import Deadwood.Text.Basic

/-!
Environment variables.
-/
namespace Deadwood

structure Environment where
  entries : List (Text × Text) := []

namespace Environment

inductive Error where
  | nullCharacter
  | illegalName
  deriving DecidableEq, Repr

def Error.message : Error → String
  | nullCharacter => "embedded null byte"
  | illegalName => "illegal environment variable name"

def get? (env : Environment) (name : Text) : Option Text :=
  env.entries.lookup name

def unset (env : Environment) (name : Text) : Environment :=
  ⟨env.entries.filter (·.1 != name)⟩

def set (env : Environment) (name value : Text) : Environment :=
  ⟨(name, value) :: (env.unset name).entries⟩

def setChecked (env : Environment) (name value : Text) : Except Error Environment :=
  if (name ++ value).any (·.val == 0) then .error .nullCharacter
  else if name.isEmpty || name.any (· == '=') then .error .illegalName
  else .ok (env.set name value)

@[simp] theorem get?_set_self (env : Environment) (name value : Text) :
    (env.set name value).get? name = some value := by
  simp [get?, set]

@[simp] theorem get?_unset_self (env : Environment) (name : Text) :
    (env.unset name).get? name = none := by
  rw [get?, unset, List.lookup_eq_none_iff]
  intro p hp
  have h : p.1 != name := (List.mem_filter.1 hp).2
  rw [bne_comm] at h
  simpa using h

private theorem lookup_filter_of_ne {name other : Text} (h : other ≠ name)
    (entries : List (Text × Text)) :
    (entries.filter (·.1 != name)).lookup other = entries.lookup other := by
  induction entries with
  | nil => rfl
  | cons entry entries ih =>
    obtain ⟨key, value⟩ := entry
    by_cases hk : key = name
    · subst hk
      simp [List.lookup_cons, ih, beq_eq_false_iff_ne.2 h]
    · simp [List.lookup_cons, ih, hk]

@[simp] theorem get?_unset_of_ne (env : Environment) {name other : Text} (h : other ≠ name) :
    (env.unset name).get? other = env.get? other :=
  lookup_filter_of_ne h env.entries

@[simp] theorem get?_set_of_ne (env : Environment) {name other : Text} (value : Text)
    (h : other ≠ name) : (env.set name value).get? other = env.get? other := by
  have hb : (other == name) = false := beq_eq_false_iff_ne.2 h
  rw [get?, set, List.lookup_cons, hb]
  exact get?_unset_of_ne env h

end Environment

end Deadwood
