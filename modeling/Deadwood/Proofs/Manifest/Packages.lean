import Deadwood.Proofs.Packages

/-!
Which packages a manifest declares, in which order and at which lines. A name is declared by its first
entry that is not pinned to the development kit, in whichever section that stands; its line is found in
the text alone, as the first line that starts with the name.
-/
namespace Deadwood

open Yaml (Value Scalar)

namespace Manifest

/-! ### Lines -/

abbrev colon : CodePoint := ':'

/-- Apart from blanks, the key is what the line has before its first colon, and it has something
there. -/
def StartsWithKey (line key : Text) : Prop :=
  ∃ before after, line.stripLeft = before ++ colon :: after ∧ colon ∉ before ∧ before ≠ [] ∧
    Text.strip before = key

theorem lineKey?_eq_some_iff {line key : Text} : lineKey? line = some key ↔ StartsWithKey line key := by
  have hsome : lineKey? line = some key ↔
      (line.stripLeft.takeWhile (· != colon) ≠ [] ∧
        (line.stripLeft.takeWhile (· != colon)).length ≠ line.stripLeft.length) ∧
      Text.strip (line.stripLeft.takeWhile (· != colon)) = key := by
    unfold lineKey?
    simp only [Option.ite_none_left_eq_some, Bool.or_eq_true, List.isEmpty_iff, beq_iff_eq, not_or,
      Option.some.injEq]
  rw [hsome]
  constructor
  · rintro ⟨⟨hne, hlength⟩, hkey⟩
    obtain ⟨hcolon, hall | ⟨after, hafter⟩⟩ := takeWhile_ne_eq_iff.mp
      (rfl : line.stripLeft.takeWhile (· != colon) = _)
    · exact absurd (congrArg List.length hall.symm) hlength
    · exact ⟨_, after, by simpa using hafter.symm, hcolon, hne, hkey⟩
  · rintro ⟨before, after, hline, hcolon, hne, hkey⟩
    have htake : line.stripLeft.takeWhile (· != colon) = before := by
      rw [takeWhile_ne_eq_iff, hline]
      exact ⟨hcolon, .inr ⟨after, by rw [List.append_assoc, List.singleton_append]⟩⟩
    rw [htake]
    refine ⟨⟨hne, ?_⟩, hkey⟩
    rw [hline, List.length_append, List.length_cons]
    omega

/-- What one line does to the table of keys: a key that is known already keeps its line. -/
def keyStep (known : List (Text × Nat)) (entry : Text × Nat) : List (Text × Nat) :=
  match lineKey? entry.1 with
  | some key => if (known.lookup key).isSome then known else known ++ [(key, entry.2)]
  | none => known

theorem lookup_keyStep (known : List (Text × Nat)) (line key : Text) (number : Nat) :
    (keyStep known (line, number)).lookup key =
      (known.lookup key).or (if lineKey? line = some key then some number else none) := by
  unfold keyStep
  cases hline : lineKey? line with
  | none => simp
  | some other =>
    by_cases hother : other = key
    · subst hother
      cases hknown : known.lookup other with
      | none => simp [List.lookup_append, hknown]
      | some n => simp [hknown]
    · have hkey : (key == other) = false := beq_false_of_ne (Ne.symm hother)
      simp only [Option.some.injEq, hother, if_false, Option.or_none]
      split
      · rfl
      · simp [List.lookup_append, List.lookup_cons, hkey]

theorem lookup_foldl_keyStep (lines : List (Text × Nat)) (known : List (Text × Nat)) (key : Text) :
    (lines.foldl keyStep known).lookup key =
      (known.lookup key).or
        ((lines.find? fun entry => lineKey? entry.1 = some key).map (·.2)) := by
  induction lines generalizing known with
  | nil => simp
  | cons entry lines ih =>
    obtain ⟨line, number⟩ := entry
    rw [List.foldl_cons, ih, lookup_keyStep, Option.or_assoc, List.find?_cons]
    by_cases hline : lineKey? line = some key
    · simp [hline]
    · simp [hline]

private theorem find?_zipIdx {α : Type} (p : α → Bool) (l : List α) (start : Nat) :
    ((l.zipIdx start).find? fun entry => p entry.1).map (·.2) = (l.findIdx? p).map (· + start) := by
  induction l generalizing start with
  | nil => rfl
  | cons a l ih =>
    rw [List.zipIdx_cons, List.find?_cons, List.findIdx?_cons]
    cases p a with
    | true => exact congrArg some (Nat.zero_add start).symm
    | false =>
      simp only [ih, Bool.false_eq_true, if_false]
      cases l.findIdx? p with
      | none => rfl
      | some i => exact congrArg some (show i + (start + 1) = i + 1 + start by omega)

theorem lookup_keyLines (text key : Text) :
    (keyLines text).lookup key =
      ((text.split '\n').findIdx? fun line => lineKey? line = some key).map (· + 1) := by
  have hfold : keyLines text = ((text.split '\n').zipIdx 1).foldl keyStep [] := rfl
  rewrite [hfold, lookup_foldl_keyStep, ← find?_zipIdx]
  rfl

/-- `number` is that of the first line which starts with the key, and one if no line does. -/
inductive IsKeyLine (text key : Text) : Int → Prop
  | first {i : Nat} {line : Text} : (text.split '\n')[i]? = some line → StartsWithKey line key →
      (∀ j earlier, j < i → (text.split '\n')[j]? = some earlier → ¬ StartsWithKey earlier key) →
      IsKeyLine text key (i + 1)
  | absent : (∀ line ∈ text.split '\n', ¬ StartsWithKey line key) → IsKeyLine text key 1

theorem isKeyLine_lookup (text key : Text) :
    IsKeyLine text key (((keyLines text).lookup key).getD 1 : Nat) := by
  rw [lookup_keyLines]
  cases hfind : (text.split '\n').findIdx? fun line => lineKey? line = some key with
  | none =>
    rw [List.findIdx?_eq_none_iff] at hfind
    refine .absent fun line hline hstarts => ?_
    have hnot := hfind line hline
    simp [lineKey?_eq_some_iff.mpr hstarts] at hnot
  | some i =>
    obtain ⟨hi, hstarts, hearlier⟩ := List.findIdx?_eq_some_iff_getElem.mp hfind
    refine .first (List.getElem?_eq_getElem hi) (lineKey?_eq_some_iff.mp (by simpa using hstarts)) ?_
    intro j earlier hj hline hkey
    obtain ⟨_, rfl⟩ := List.getElem?_eq_some_iff.mp hline
    exact hearlier j hj (by simpa using lineKey?_eq_some_iff.mpr hkey)

theorem IsKeyLine.bounds {text key : Text} {number : Int} (h : IsKeyLine text key number) :
    1 ≤ number ∧ number ≤ text.count (CodePoint.ofChar '\n') + 1 := by
  cases h with
  | @first i line hline =>
    obtain ⟨hi, _⟩ := List.getElem?_eq_some_iff.mp hline
    rw [Text.length_split] at hi
    omega
  | absent => omega

/-! ### Entries -/

/-- The value is a mapping in which `sdk` is more than null. -/
def SdkPinned (v : Value) : Prop :=
  v.isMapping ∧ ∃ sdk, v.get? "sdk" = some sdk ∧ ¬ sdk.isNull

theorem isSdk_iff {v : Value} : isSdk v ↔ SdkPinned v := by
  unfold isSdk SdkPinned Value.present?
  cases v.get? "sdk" with
  | none => simp
  | some sdk => simp

def Declares (name : Text) (entry : Scalar × Value) : Prop :=
  entry.1.toText = name ∧ ¬ SdkPinned entry.2

instance decidableDeclares (name : Text) (entry : Scalar × Value) : Decidable (Declares name entry) :=
  decidable_of_iff (entry.1.toText = name ∧ ¬ isSdk entry.2) (by rw [isSdk_iff]; rfl)

def firstEntry (entries : List (Scalar × Value)) (name : Text) : Nat :=
  entries.findIdx fun entry => Declares name entry

theorem mem_packageNames {entries : List (Scalar × Value)} {name : Text} :
    name ∈ packageNames entries ↔ ∃ entry ∈ entries, Declares name entry := by
  simp only [packageNames, List.mem_map, List.mem_filter, Declares, ← isSdk_iff, Bool.not_eq_true,
    Bool.not_eq_true']
  grind

theorem packageNames_append (entries more : List (Scalar × Value)) :
    packageNames (entries ++ more) = packageNames entries ++ packageNames more := by
  simp [packageNames]

theorem packageNames_singleton (entry : Scalar × Value) :
    packageNames [entry] = if isSdk entry.2 then [] else [entry.1.toText] := by
  cases h : isSdk entry.2 <;> simp [packageNames, h]

theorem firstEntry_lt_length {entries : List (Scalar × Value)} {name : Text} :
    firstEntry entries name < entries.length ↔ name ∈ packageNames entries := by
  rw [firstEntry, List.findIdx_lt_length, mem_packageNames]
  simp only [decide_eq_true_eq]

theorem firstEntry_append {entries : List (Scalar × Value)} {name : Text}
    (h : name ∈ packageNames entries) (more : List (Scalar × Value)) :
    firstEntry (entries ++ more) name = firstEntry entries name := by
  rw [firstEntry, List.findIdx_append]
  exact if_pos (firstEntry_lt_length.mpr h)

theorem le_firstEntry_append {entries : List (Scalar × Value)} {name : Text}
    (h : name ∉ packageNames entries) (more : List (Scalar × Value)) :
    entries.length ≤ firstEntry (entries ++ more) name := by
  have habsent : ¬ firstEntry entries name < entries.length := mt firstEntry_lt_length.mp h
  unfold firstEntry at habsent ⊢
  rw [List.findIdx_append, if_neg habsent]
  exact Nat.le_add_left _ _

theorem pairwise_firstEntry (entries : List (Scalar × Value)) :
    (packageNames entries).eraseDups.Pairwise fun a b =>
      firstEntry entries a < firstEntry entries b := by
  induction entries using List.reverseRecOn with
  | nil => exact .nil
  | append_singleton entries entry ih =>
    have hold : (packageNames entries).eraseDups.Pairwise fun a b =>
        firstEntry (entries ++ [entry]) a < firstEntry (entries ++ [entry]) b := by
      refine ih.imp_of_mem fun {a b} ha hb hab => ?_
      rw [List.mem_eraseDups] at ha hb
      rwa [firstEntry_append ha, firstEntry_append hb]
    rw [packageNames_append, packageNames_singleton]
    split
    · rwa [List.append_nil]
    · by_cases hseen : entry.1.toText ∈ packageNames entries
      · rwa [eraseDups_concat_of_mem hseen]
      · rw [eraseDups_concat_of_notMem hseen, List.pairwise_append]
        refine ⟨hold, List.pairwise_singleton _ _, fun a ha b hb => ?_⟩
        rw [List.mem_eraseDups] at ha
        rw [List.mem_singleton.mp hb, firstEntry_append ha]
        exact Nat.lt_of_lt_of_le (firstEntry_lt_length.mpr ha) (le_firstEntry_append hseen _)

/-- A manifest declares each name once, in the order of the first entries that make it a package, and
with the first line that starts with it. -/
theorem declaredPackages_exact (m : Manifest) :
    (m.declaredPackages.map (·.name)).Nodup ∧
    (∀ name, name ∈ m.declaredPackages.map (·.name) ↔
      ∃ entry ∈ m.dependencies ++ m.devDependencies, Declares name entry) ∧
    m.declaredPackages.Pairwise (fun a b =>
      firstEntry (m.dependencies ++ m.devDependencies) a.name <
        firstEntry (m.dependencies ++ m.devDependencies) b.name) ∧
    ∀ package ∈ m.declaredPackages, IsKeyLine m.text package.name package.line ∧
      1 ≤ package.line ∧ package.line ≤ m.text.count (CodePoint.ofChar '\n') + 1 := by
  have hnames : m.declaredPackages.map (·.name) =
      (packageNames (m.dependencies ++ m.devDependencies)).eraseDups := by
    rw [map_name_declaredPackages, packageNames_append]
  refine ⟨nodup_name_declaredPackages m, fun name => ?_, ?_, fun package hpackage => ?_⟩
  · rw [hnames, List.mem_eraseDups]
    exact mem_packageNames
  · have hordered := pairwise_firstEntry (m.dependencies ++ m.devDependencies)
    rw [← hnames, List.pairwise_map] at hordered
    exact hordered
  · have hline : IsKeyLine m.text package.name package.line := by
      obtain ⟨name, _, rfl⟩ := List.mem_map.mp hpackage
      exact isKeyLine_lookup m.text name
    exact ⟨hline, hline.bounds⟩

def pinnedValue : Value :=
  .mapping none [(.text "sdk", .scalar (.text "flutter"))]

/-- The first entry is pinned, and two keys of different types have one name. -/
def pinnedFirst : Manifest where
  text := "dependencies:\n  a : any"
  dependencies := [(.text "a", pinnedValue), (.int 1, .scalar .null)]
  devDependencies := [(.text "1", .scalar .null), (.text "a", .scalar .null)]

theorem declaredPackages_exact_pinnedFirst :
    SdkPinned pinnedValue ∧ pinnedFirst.declaredPackages = [⟨"1", 1⟩, ⟨"a", 2⟩] ∧
      firstEntry (pinnedFirst.dependencies ++ pinnedFirst.devDependencies) "1" <
        firstEntry (pinnedFirst.dependencies ++ pinnedFirst.devDependencies) "a" ∧
      IsKeyLine pinnedFirst.text "a" 2 := by
  have hpackages : pinnedFirst.declaredPackages = [⟨"1", 1⟩, ⟨"a", 2⟩] := by decide +kernel
  obtain ⟨_, _, hordered, hlines⟩ := declaredPackages_exact pinnedFirst
  rw [hpackages] at hordered hlines
  exact ⟨isSdk_iff.mp (by decide), hpackages, List.rel_of_pairwise_cons hordered List.mem_cons_self,
    (hlines ⟨"a", 2⟩ (by simp)).1⟩

end Manifest

end Deadwood
