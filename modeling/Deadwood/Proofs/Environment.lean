import Deadwood.Environment.File
import Mathlib.Data.List.Nodup
import Mathlib.Data.List.TakeWhile

/-!
Loading a file of variables. Variables that are set keep their
values, the others get those of the file, and loading fails exactly if one of them cannot be set. It
ends there, and what was set before that line stays.
-/
namespace Deadwood.Environment

variable {env : Environment} {name value : Text}

structure Settable (name value : Text) : Prop where
  no_null : ∀ c ∈ name ++ value, c.val ≠ 0
  named : name ≠ []
  no_equals : CodePoint.ofChar '=' ∉ name

theorem setChecked_of_settable (h : Settable name value) (env : Environment) :
    env.setChecked name value = .ok (env.set name value) := by
  have hnull : (name ++ value).any (·.val == 0) = false := by
    rw [List.any_eq_false]
    intro c hc
    simpa using h.no_null c hc
  have hempty : name.isEmpty = false := by simpa using h.named
  have hequals : name.any (· == CodePoint.ofChar '=') = false := by
    rw [List.any_eq_false]
    intro c hc heq
    exact h.no_equals (beq_iff_eq.mp heq ▸ hc)
  rewrite [setChecked, hnull, hempty, hequals]
  rfl

theorem exists_error_of_not_settable (h : ¬ Settable name value) (env : Environment) :
    ∃ e, env.setChecked name value = .error e := by
  unfold setChecked
  split
  · exact ⟨_, rfl⟩
  split
  · exact ⟨_, rfl⟩
  · next hnull hname =>
    simp only [Bool.not_eq_true, List.any_eq_false, beq_iff_eq, Bool.or_eq_false_iff,
      List.isEmpty_eq_false_iff] at hnull hname
    exact absurd ⟨hnull, hname.1, fun hmem => hname.2 _ hmem rfl⟩ h

theorem isOk_setChecked_iff (env : Environment) :
    (env.setChecked name value).isOk = true ↔ Settable name value := by
  constructor
  · intro hok
    by_contra hset
    obtain ⟨e, he⟩ := exists_error_of_not_settable hset env
    rw [he] at hok
    cases hok
  · intro hset
    rewrite [setChecked_of_settable hset env]
    rfl

instance : Decidable (Settable name value) :=
  decidable_of_iff _ (isOk_setChecked_iff {})

namespace File

variable {values rest : List (Text × Option Text)}

/-! ### Setting variables -/

theorem apply_cases (env : Environment) (name : Text) (value : Option Text)
    (rest : List (Text × Option Text)) :
    ((value = none ∨ (env.get? name).isSome) ∧
      apply env ((name, value) :: rest) = apply env rest) ∨
    (∃ text, value = some text ∧ env.get? name = none ∧ Settable name text ∧
      apply env ((name, value) :: rest) = apply (env.set name text) rest) ∨
    (∃ text e, value = some text ∧ env.get? name = none ∧ ¬ Settable name text ∧
      apply env ((name, value) :: rest) = (env, some e)) := by
  cases value with
  | none => exact .inl ⟨.inl rfl, rfl⟩
  | some text =>
    rw [apply]
    cases hget : env.get? name with
    | some old => exact .inl ⟨.inr rfl, rfl⟩
    | none =>
      by_cases hset : Settable name text
      · refine .inr (.inl ⟨text, rfl, rfl, hset, ?_⟩)
        simp [setChecked_of_settable hset]
      · obtain ⟨e, he⟩ := exists_error_of_not_settable hset env
        refine .inr (.inr ⟨text, e, rfl, rfl, hset, ?_⟩)
        simp [he]

/-- A variable that is not set would get a value that cannot be set. -/
def Refused (env : Environment) (values : List (Text × Option Text)) : Prop :=
  ∃ name value, (name, some value) ∈ values ∧ env.get? name = none ∧ ¬ Settable name value

def given (values : List (Text × Option Text)) (name : Text) : Option Text :=
  (values.lookup name).join

theorem given_cons_self (name : Text) (value : Option Text) (rest : List (Text × Option Text)) :
    given ((name, value) :: rest) name = value := by
  simp [given]

theorem given_cons_of_ne {other : Text} (h : other ≠ name) (value : Option Text)
    (rest : List (Text × Option Text)) :
    given ((name, value) :: rest) other = given rest other := by
  have hbeq : (other == name) = false := beq_false_of_ne h
  simp [given, List.lookup_cons, hbeq]

theorem given_eq_none (h : name ∉ values.map (·.1)) : given values name = none := by
  have hlookup : values.lookup name = none := by
    rw [List.lookup_eq_none_iff]
    intro entry hentry
    have hne : name ≠ entry.1 := fun heq => h (List.mem_map.mpr ⟨entry, hentry, heq.symm⟩)
    simpa using hne
  rw [given, hlookup, Option.join_none]

theorem isSome_apply_iff (h : (values.map (·.1)).Nodup) :
    (apply env values).2.isSome ↔ Refused env values := by
  induction values generalizing env with
  | nil => simp [apply, Refused]
  | cons entry rest ih =>
    obtain ⟨name, value⟩ := entry
    rw [List.map_cons, List.nodup_cons] at h
    rcases apply_cases env name value rest with
      ⟨hskip, heq⟩ | ⟨text, rfl, hunset, hset, heq⟩ | ⟨text, e, rfl, hunset, hset, heq⟩
    · rw [heq, ih h.2]
      refine ⟨fun ⟨n, v, hmem, hn⟩ => ⟨n, v, List.mem_cons_of_mem _ hmem, hn⟩, ?_⟩
      rintro ⟨n, v, hmem, hunset, hset⟩
      rcases List.mem_cons.mp hmem with hhead | hmem
      · cases hhead
        simp [hunset] at hskip
      · exact ⟨n, v, hmem, hunset, hset⟩
    · rw [heq, ih h.2]
      have hother : ∀ n v, (n, v) ∈ rest → (env.set name text).get? n = env.get? n := by
        intro n v hmem
        apply get?_set_of_ne
        rintro rfl
        exact h.1 (List.mem_map.mpr ⟨_, hmem, rfl⟩)
      refine ⟨fun ⟨n, v, hmem, hn⟩ =>
        ⟨n, v, List.mem_cons_of_mem _ hmem, hother n _ hmem ▸ hn⟩, ?_⟩
      rintro ⟨n, v, hmem, hunset, hrefused⟩
      rcases List.mem_cons.mp hmem with hhead | hmem
      · cases hhead
        exact absurd hset hrefused
      · exact ⟨n, v, hmem, (hother n _ hmem).trans hunset, hrefused⟩
    · rw [heq]
      exact ⟨fun _ => ⟨name, text, List.mem_cons_self, hunset, hset⟩, fun _ => rfl⟩

/-- The line would give a variable that is not set a value that cannot be set. -/
def isRefused (env : Environment) (entry : Text × Option Text) : Bool :=
  (env.get? entry.1).isNone && entry.2.any fun value => !decide (Settable entry.1 value)

/-- The lines that are carried out: loading ends at the first one that is refused. -/
def reached (env : Environment) (values : List (Text × Option Text)) : List (Text × Option Text) :=
  values.takeWhile fun entry => !isRefused env entry

theorem isRefused_iff {entry : Text × Option Text} : isRefused env entry = true ↔
    env.get? entry.1 = none ∧ ∃ value, entry.2 = some value ∧ ¬ Settable entry.1 value := by
  simp [isRefused, Option.any_eq_true]

theorem isRefused_of_skipped {value : Option Text} (h : value = none ∨ (env.get? name).isSome) :
    isRefused env (name, value) = false := by
  rw [← Bool.not_eq_true, isRefused_iff]
  rintro ⟨hunset, text, rfl, _⟩
  simp [hunset] at h

theorem isRefused_of_settable (h : Settable name value) :
    isRefused env (name, some value) = false := by
  rw [← Bool.not_eq_true, isRefused_iff]
  rintro ⟨_, _, hvalue, hrefused⟩
  cases hvalue
  exact hrefused h

theorem reached_eq_self (h : ¬ Refused env values) : reached env values = values := by
  rw [reached, List.takeWhile_eq_self_iff]
  intro entry hentry
  rw [Bool.not_eq_true', ← Bool.not_eq_true, isRefused_iff]
  rintro ⟨hunset, value, hvalue, hset⟩
  exact h ⟨entry.1, value, hvalue ▸ hentry, hunset, hset⟩

theorem reached_cons_of_refused {entry : Text × Option Text} (h : isRefused env entry = true) :
    reached env (entry :: rest) = [] := by
  simp [reached, h]

theorem reached_cons_of_not_refused {entry : Text × Option Text}
    (h : isRefused env entry = false) :
    reached env (entry :: rest) = entry :: reached env rest := by
  simp [reached, h]

theorem reached_congr {env' : Environment}
    (h : ∀ entry ∈ values, env'.get? entry.1 = env.get? entry.1) :
    reached env' values = reached env values := by
  induction values with
  | nil => rfl
  | cons entry rest ih =>
    have hentry : isRefused env' entry = isRefused env entry := by
      rw [isRefused, h entry List.mem_cons_self, isRefused]
    have hrest := ih fun other hother => h other (List.mem_cons_of_mem _ hother)
    cases hrefused : isRefused env entry with
    | true => rw [reached_cons_of_refused (hentry.trans hrefused), reached_cons_of_refused hrefused]
    | false =>
      rw [reached_cons_of_not_refused (hentry.trans hrefused),
        reached_cons_of_not_refused hrefused, hrest]

theorem reached_set (h : name ∉ values.map (·.1)) (value : Text) :
    reached (env.set name value) values = reached env values := by
  apply reached_congr
  intro entry hentry
  apply get?_set_of_ne
  rintro rfl
  exact h (List.mem_map.mpr ⟨entry, hentry, rfl⟩)

theorem given_reached_eq_none (h : name ∉ values.map (·.1)) :
    given (reached env values) name = none := by
  apply given_eq_none
  intro hmem
  exact h ((List.takeWhile_sublist _).map _ |>.subset hmem)

theorem get?_apply (h : (values.map (·.1)).Nodup) (other : Text) :
    (apply env values).1.get? other = (env.get? other <|> given (reached env values) other) := by
  induction values generalizing env with
  | nil => simp [apply, given, reached]
  | cons entry rest ih =>
    obtain ⟨name, value⟩ := entry
    rw [List.map_cons, List.nodup_cons] at h
    rcases apply_cases env name value rest with
      ⟨hskip, heq⟩ | ⟨text, rfl, hunset, hset, heq⟩ | ⟨text, e, rfl, hunset, hset, heq⟩
    · rw [heq, ih h.2, reached_cons_of_not_refused (isRefused_of_skipped hskip)]
      by_cases hname : other = name
      · subst hname
        rw [given_cons_self, given_reached_eq_none h.1]
        rcases hskip with rfl | hskip
        · rfl
        · obtain ⟨old, hold⟩ := Option.isSome_iff_exists.mp hskip
          rewrite [hold]
          rfl
      · rw [given_cons_of_ne hname]
    · -- No later line names the variable, so those that are carried out stay the same.
      rw [heq, ih h.2, reached_cons_of_not_refused (isRefused_of_settable hset), reached_set h.1]
      by_cases hname : other = name
      · subst hname
        rewrite [get?_set_self, given_cons_self, hunset]
        rfl
      · rw [get?_set_of_ne env text hname, given_cons_of_ne hname]
    · rw [heq, reached_cons_of_refused (isRefused_iff.mpr ⟨hunset, text, rfl, hset⟩)]
      simp [given]

theorem apply_eq_self (h : (values.map (·.1)).Nodup)
    (hnone : ∀ name, env.get? name = none → given (reached env values) name = none) :
    (apply env values).1 = env := by
  induction values with
  | nil => rfl
  | cons entry rest ih =>
    obtain ⟨name, value⟩ := entry
    rw [List.map_cons, List.nodup_cons] at h
    rcases apply_cases env name value rest with
      ⟨hskip, heq⟩ | ⟨text, rfl, hunset, hset, heq⟩ | ⟨text, e, rfl, hunset, hset, heq⟩
    · rw [reached_cons_of_not_refused (isRefused_of_skipped hskip)] at hnone
      rw [heq]
      apply ih h.2
      intro other hother
      by_cases hname : other = name
      · rw [hname, given_reached_eq_none h.1]
      · rw [← given_cons_of_ne hname value, hnone other hother]
    · rw [reached_cons_of_not_refused (isRefused_of_settable hset)] at hnone
      have hgiven := hnone name hunset
      rw [given_cons_self] at hgiven
      cases hgiven
    · rw [heq]

end File

end Deadwood.Environment
