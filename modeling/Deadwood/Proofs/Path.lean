import Deadwood.Path
import Mathlib.Data.List.Basic

/-!
The last name of a path and the stem of a file name, said without reading them off: a name runs from
the last slash to the end, and an extension starts at the last dot that has something other than dots
before it.
-/
namespace Deadwood

namespace Text

theorem split_ne_nil (sep : CodePoint) (t : Text) : split sep t ≠ [] := by
  cases t with
  | nil => simp [split]
  | cons c t =>
    unfold split
    split
    · exact List.cons_ne_nil _ _
    · split <;> exact List.cons_ne_nil _ _

theorem split_cons_self (sep : CodePoint) (t : Text) : split sep (sep :: t) = [] :: split sep t := by
  simp [split]

theorem split_cons_of_ne {sep c : CodePoint} (hc : c ≠ sep) {t piece : Text} {pieces : List Text}
    (h : split sep t = piece :: pieces) : split sep (c :: t) = (c :: piece) :: pieces := by
  simp [split, hc, h]

theorem length_split (sep : CodePoint) (t : Text) : (split sep t).length = t.count sep + 1 := by
  induction t with
  | nil => rfl
  | cons c t ih =>
    by_cases hc : c = sep
    · rw [hc, split_cons_self, List.length_cons, ih, List.count_cons_self]
    · obtain ⟨piece, pieces, hsplit⟩ := List.exists_cons_of_ne_nil (split_ne_nil sep t)
      rewrite [split_cons_of_ne hc hsplit, List.count_cons_of_ne hc, ← ih, hsplit]
      rfl

theorem split_of_not_mem {sep : CodePoint} {t : Text} (h : sep ∉ t) : split sep t = [t] := by
  induction t with
  | nil => rfl
  | cons c t ih =>
    rw [List.mem_cons, not_or] at h
    exact split_cons_of_ne (Ne.symm h.1) (ih h.2)

theorem exists_split_of_mem {sep : CodePoint} {t : Text} (h : sep ∈ t) :
    ∃ first second pieces, split sep t = first :: second :: pieces := by
  induction t with
  | nil => cases h
  | cons c t ih =>
    by_cases hc : c = sep
    · subst hc
      obtain ⟨piece, pieces, hsplit⟩ := List.exists_cons_of_ne_nil (split_ne_nil c t)
      exact ⟨[], piece, pieces, by rw [split_cons_self, hsplit]⟩
    · obtain ⟨first, second, pieces, hsplit⟩ := ih ((List.mem_cons.mp h).resolve_left (Ne.symm hc))
      exact ⟨c :: first, second, pieces, split_cons_of_ne hc hsplit⟩

end Text

namespace Path

/-- `base` is what follows the last slash of the path, all of the path if it has none. -/
def IsBaseName (p base : Text) : Prop :=
  slash ∉ base ∧ ∃ dir, p = dir ++ base ∧ ∀ c ∈ dir.getLast?, c = slash

theorem isBaseName_of_not_mem {p : Text} (h : slash ∉ p) : IsBaseName p p :=
  ⟨h, [], rfl, by simp⟩

theorem IsBaseName.cons {c : CodePoint} {p base : Text} (h : IsBaseName p base)
    (hc : c = slash ∨ slash ∈ p) : IsBaseName (c :: p) base := by
  obtain ⟨hbase, dir, rfl, hdir⟩ := h
  refine ⟨hbase, c :: dir, rfl, ?_⟩
  cases dir with
  | nil =>
    have hslash : c = slash := hc.resolve_right hbase
    simp [hslash]
  | cons d dir => simpa using hdir

theorem isBaseName_baseName (p : Text) : IsBaseName p (baseName p) := by
  unfold baseName
  induction p with
  | nil => exact isBaseName_of_not_mem List.not_mem_nil
  | cons c p ih =>
    by_cases hc : c = slash
    · subst hc
      obtain ⟨piece, pieces, hsplit⟩ := List.exists_cons_of_ne_nil (Text.split_ne_nil slash p)
      rw [hsplit] at ih
      rw [Text.split_cons_self, hsplit]
      exact ih.cons (.inl rfl)
    · by_cases hp : slash ∈ p
      · -- a slash further on: `c` stands before the last piece
        obtain ⟨first, second, pieces, hsplit⟩ := Text.exists_split_of_mem hp
        rw [hsplit] at ih
        rw [Text.split_cons_of_ne hc hsplit]
        exact ih.cons (.inr hp)
      · have hcp : slash ∉ c :: p := by
          rw [List.mem_cons, not_or]
          exact ⟨Ne.symm hc, hp⟩
        rw [Text.split_of_not_mem hcp]
        exact isBaseName_of_not_mem hcp

private theorem append_eq_nil_of_last_slash {dir extra base : Text} (hbase : slash ∉ extra ++ base)
    (hdir : ∀ c ∈ (dir ++ extra).getLast?, c = slash) : extra = [] := by
  rcases List.eq_nil_or_concat extra with hnil | ⟨front, c, rfl⟩
  · exact hnil
  · have hc : c = slash := hdir c (by simp)
    simp [hc] at hbase

theorem IsBaseName.unique {p base base' : Text} (h : IsBaseName p base) (h' : IsBaseName p base') :
    base = base' := by
  obtain ⟨hbase, dir, hp, hdir⟩ := h
  obtain ⟨hbase', dir', hp', hdir'⟩ := h'
  rw [hp] at hp'
  rcases List.append_eq_append_iff.mp hp' with ⟨extra, rfl, rfl⟩ | ⟨extra, rfl, rfl⟩
  · rw [append_eq_nil_of_last_slash hbase hdir', List.nil_append]
  · rw [append_eq_nil_of_last_slash hbase' hdir, List.nil_append]

theorem isBaseName_iff {p base : Text} : IsBaseName p base ↔ base = baseName p := by
  constructor
  · exact fun h => h.unique (isBaseName_baseName p)
  · rintro rfl
    exact isBaseName_baseName p

abbrev dot : CodePoint := '.'

/-- `stem` is a file name without its extension, which starts at the last dot. A name that has no dot,
or nothing but dots before the last one, has no extension. -/
inductive IsStem : Text → Text → Prop
  | cut {stem extension : Text} : dot ∉ extension → (∃ c ∈ stem, c ≠ dot) →
      IsStem (stem ++ dot :: extension) stem
  | dotless {name : Text} : dot ∉ name → IsStem name name
  | hidden {dots rest : Text} : dot ∉ rest → (∀ c ∈ dots, c = dot) →
      IsStem (dots ++ dot :: rest) (dots ++ dot :: rest)

private theorem takeWhile_reverse_of_not_mem {t : Text} (h : dot ∉ t) (rest : Text) :
    (t.reverse ++ rest).takeWhile (fun c : CodePoint => c != '.') =
      t.reverse ++ rest.takeWhile fun c : CodePoint => c != '.' := by
  apply List.takeWhile_append_of_pos
  intro c hc
  rw [bne_iff_ne]
  rintro rfl
  exact h (List.mem_reverse.mp hc)

theorem splitExtension_of_not_mem {name : Text} (h : dot ∉ name) :
    splitExtension name = (name, []) := by
  have htake := takeWhile_reverse_of_not_mem h []
  rw [List.append_nil] at htake
  unfold splitExtension
  simp [htake]

theorem splitExtension_append {front extension : Text} (h : dot ∉ extension) :
    splitExtension (front ++ dot :: extension) =
      if front.any (fun c : CodePoint => c != '.') then (front, dot :: extension)
      else (front ++ dot :: extension, []) := by
  have htake : (front ++ dot :: extension).reverse.takeWhile (fun c : CodePoint => c != '.') =
      extension.reverse := by
    rw [List.reverse_append, List.reverse_cons, List.append_assoc, takeWhile_reverse_of_not_mem h]
    simp
  have hlength : (front ++ dot :: extension).length - extension.length - 1 = front.length := by
    rw [List.length_append, List.length_cons]
    omega
  have hlt : extension.length < (front ++ dot :: extension).length := by
    rw [List.length_append, List.length_cons]
    omega
  unfold splitExtension
  simp only [htake, List.length_reverse, List.reverse_reverse, hlength, List.take_left, hlt,
    decide_true, Bool.true_and]

theorem exists_last_of_mem {c : CodePoint} {t : Text} (h : c ∈ t) :
    ∃ before after, t = before ++ c :: after ∧ c ∉ after := by
  obtain ⟨after, before, hreverse, hafter⟩ := List.eq_append_cons_of_mem (List.mem_reverse.mpr h)
  refine ⟨before.reverse, after.reverse, ?_, by simpa using hafter⟩
  have ht := congrArg List.reverse hreverse
  simpa using ht

theorem isStem_splitExtension (name : Text) : IsStem name (splitExtension name).1 := by
  by_cases hdot : dot ∈ name
  · obtain ⟨front, extension, rfl, hextension⟩ := exists_last_of_mem hdot
    rw [splitExtension_append hextension]
    split
    · next hany => exact .cut hextension (by simpa using hany)
    · next hany => exact .hidden hextension (by simpa using hany)
  · rw [splitExtension_of_not_mem hdot]
    exact .dotless hdot

theorem isStem_iff {name stem : Text} : IsStem name stem ↔ stem = (splitExtension name).1 := by
  constructor
  · intro h
    cases h with
    | cut hextension hstem =>
      rw [splitExtension_append hextension, if_pos (by simpa using hstem)]
    | dotless hname => rw [splitExtension_of_not_mem hname]
    | hidden hrest hdots =>
      rw [splitExtension_append hrest, if_neg (by simpa using hdots)]
  · rintro rfl
    exact isStem_splitExtension name

end Path

end Deadwood
