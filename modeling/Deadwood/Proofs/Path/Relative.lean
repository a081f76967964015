import Deadwood.Proofs.Path.Normal
import Deadwood.Usage

/-!
The path of a file as seen from a directory. It goes up as far as the two have nothing more in common
and down from there, so that it leads from the directory back to the file, and to no other.
-/
namespace Deadwood

namespace Path

/-! ### The way between two places -/

theorem dropCommon_self_append (names rest : List Text) :
    dropCommon names (names ++ rest) = ([], rest) := by
  induction names with
  | nil => cases rest <;> rfl
  | cons a names ih => simpa [dropCommon] using ih

theorem exists_common (start goal : List Text) :
    ∃ common, start = common ++ (dropCommon start goal).1 ∧
      goal = common ++ (dropCommon start goal).2 := by
  fun_induction dropCommon start goal with
  | case1 a start b goal hab ih =>
    obtain ⟨common, hstart, hgoal⟩ := ih
    rw [eq_of_beq hab]
    exact ⟨b :: common, congrArg (b :: ·) hstart, congrArg (b :: ·) hgoal⟩
  | case2 => exact ⟨[], rfl, rfl⟩
  | case3 => exact ⟨[], rfl, rfl⟩

/-- Up from one place to the last directory in common, then down to the other. -/
def wayTo (start goal : List Text) : List Text :=
  List.replicate (dropCommon start goal).1.length above ++ (dropCommon start goal).2

theorem wayTo_self_append (names rest : List Text) : wayTo names (names ++ rest) = rest := by
  rewrite [wayTo, dropCommon_self_append]
  rfl

theorem mem_wayTo {start goal : List Text} {name : Text} (h : name ∈ wayTo start goal) :
    name = above ∨ name ∈ goal := by
  obtain ⟨common, _, hgoal⟩ := exists_common start goal
  rcases List.mem_append.mp h with h | h
  · exact .inl (List.eq_of_mem_replicate h)
  · rw [hgoal]
    exact .inr (List.mem_append_right _ h)

theorem foldl_enter_wayTo {start goal : List Text} (hstart : above ∉ start)
    (hgoal : ∀ name ∈ goal, name ≠ above) :
    (wayTo start goal).foldl (enter true) start.reverse = goal.reverse := by
  obtain ⟨common, hup, hdown⟩ := exists_common start goal
  have hstack : above ∉ start.reverse := mt List.mem_reverse.mp hstart
  unfold wayTo
  generalize dropCommon start goal = way at hup hdown
  subst hup hdown
  have hback : (common ++ way.1).reverse.drop way.1.length = common.reverse := by
    rw [List.reverse_append, List.drop_left' List.length_reverse]
  rw [List.foldl_append, foldl_enter_above hstack, hback,
    foldl_enter_names fun name hname => hgoal name (List.mem_append_right _ hname),
    List.reverse_append]

/-! ### Relative paths -/

section Relative

variable {cwd p start : Text}

theorem isComponent_of_mem_wayTo (names : List Text) (h : isAbsolute (join cwd p)) :
    ∀ name ∈ wayTo names (place cwd p), IsComponent name := by
  intro name hname
  rcases mem_wayTo hname with rfl | hname
  · exact isComponent_above
  · exact (isName_of_mem_place h hname).1

theorem relative_eq (hp : p ≠ []) (h : isAbsolute (join cwd p)) (start : Text) :
    relative cwd p start = .ok (ofComponents [] (wayTo (place cwd start) (place cwd p))) := by
  have hempty : p.isEmpty = false := by simpa using hp
  rw [ofComponents_nil_eq (isComponent_of_mem_wayTo _ h)]
  simp only [relative, hempty, Bool.false_eq_true, if_false, wayTo, List.map_const']
  rfl

theorem relative_congr {p' : Text} (hp : p ≠ []) (h : isAbsolute (join cwd p)) (hp' : p' ≠ [])
    (h' : isAbsolute (join cwd p')) (hplace : place cwd p = place cwd p') (start : Text) :
    relative cwd p start = relative cwd p' start := by
  rw [relative_eq hp h, relative_eq hp' h', hplace]

/-- A relative path, read where it was seen from, leads to the place that it was made for. -/
theorem place_join_relative (hstart : isAbsolute (join cwd start)) (hp : p ≠ [])
    (h : isAbsolute (join cwd p)) {q : Text} (hq : relative cwd p start = .ok q) :
    isAbsolute q = false ∧ place cwd (join start q) = place cwd p := by
  rw [relative_eq hp h] at hq
  cases hq
  have hway := isComponent_of_mem_wayTo (place cwd start) h
  have hrelative : isAbsolute (ofComponents [] (wayTo (place cwd start) (place cwd p))) = false :=
    isAbsolute_ofComponents (.inl rfl) hway
  have hjoin : isAbsolute (join cwd (join start
      (ofComponents [] (wayTo (place cwd start) (place cwd p))))) := by
    rw [isAbsolute_join] at hstart ⊢
    rw [isAbsolute_join, hrelative, Bool.or_false]
    exact hstart
  have hplace : ∀ name ∈ place cwd start, IsName name := fun name => isName_of_mem_place hstart
  refine ⟨hrelative, ?_⟩
  rw [place_eq hjoin, components_join_join hrelative, components_ofComponents (.inl rfl) hway,
    collapse_append, ← place_eq hstart,
    foldl_enter_wayTo (fun hmem => (hplace above hmem).2 rfl)
      fun name hname => (isName_of_mem_place h hname).2,
    List.reverse_reverse]

theorem mem_of_mem_place (h : isAbsolute (join cwd p)) {name : Text} {c : CodePoint}
    (hname : name ∈ place cwd p) (hc : c ∈ name) : c ∈ join cwd p := by
  rw [place_eq h] at hname
  exact mem_of_mem_components (mem_of_mem_collapse hname) hc

theorem mem_of_mem_relative (hp : p ≠ []) (h : isAbsolute (join cwd p)) {q : Text}
    (hq : relative cwd p start = .ok q) {c : CodePoint} (hc : c ∈ q) :
    c = dot ∨ c = slash ∨ ∃ name ∈ place cwd p, c ∈ name := by
  rw [relative_eq hp h] at hq
  cases hq
  have hhere : here = [dot] := rfl
  have habove : above = [dot, dot] := rfl
  rw [ofComponents_nil_eq (isComponent_of_mem_wayTo _ h)] at hc
  split at hc
  · rw [hhere, List.mem_singleton] at hc
    exact .inl hc
  · rcases Text.mem_join hc with hslash | ⟨name, hname, hc⟩
    · exact .inr (.inl hslash)
    · rcases mem_wayTo hname with rfl | hname
      · rw [habove] at hc
        exact .inl (by simpa using hc)
      · exact .inr (.inr ⟨name, hname, hc⟩)

end Relative

/-! ### Paths in reports -/

abbrev backslash : CodePoint := '\\'

theorem forwardSlashes_of_notMem {p : Text} (h : backslash ∉ p) : forwardSlashes p = p := by
  unfold forwardSlashes Text.replace
  conv_rhs => rw [← List.map_id p]
  apply List.map_congr_left
  intro c hc
  have hne : c ≠ backslash := fun heq => h (heq ▸ hc)
  simp [hne]

/-- A file as findings show it: seen from the project's root, with forward slashes. -/
def reported (cwd root file : Text) : Except Error Text :=
  (relative cwd file root).map forwardSlashes

theorem symbolFinding_eq (cwd root : Text) (d : Declaration) :
    Index.symbolFinding cwd root d =
      (reported cwd root d.file).map fun file => ⟨d.name, file, d.line⟩ := by
  unfold Index.symbolFinding reported
  cases relative cwd d.file root <;> rfl

section Reported

variable {cwd root file : Text}

theorem ne_nil_of_isAbsolute {p : Text} (h : isAbsolute p) : p ≠ [] := by
  rintro rfl
  cases h

theorem reported_eq (hfile : file ≠ []) (h : isAbsolute (join cwd file))
    (hback : ∀ name ∈ place cwd file, backslash ∉ name) (root : Text) :
    reported cwd root file = relative cwd file root := by
  unfold reported
  cases hq : relative cwd file root with
  | error e => rfl
  | ok q =>
    have hnone : backslash ∉ q := by
      intro hc
      rcases mem_of_mem_relative hfile h hq hc with hdot | hslash | ⟨name, hname, hc⟩
      · exact absurd hdot (by decide)
      · exact absurd hslash (by decide)
      · exact hback name hname hc
    exact congrArg Except.ok (forwardSlashes_of_notMem hnone)

theorem place_of_isAbsolute (h : isAbsolute file) (cwd : Text) :
    place cwd file = components (normalize file) := by
  rw [place, absolute_of_isAbsolute h]

theorem isAbsolute_join_right (h : isAbsolute file) (cwd : Text) : isAbsolute (join cwd file) := by
  rw [isAbsolute_join, h, Bool.or_true]

theorem reported_eq_of_isAbsolute (hfile : isAbsolute file) (hback : backslash ∉ file)
    (cwd root : Text) : reported cwd root file = relative cwd file root := by
  have hjoin := isAbsolute_join_right hfile cwd
  apply reported_eq (ne_nil_of_isAbsolute hfile) hjoin
  intro name hname hc
  have hmem := mem_of_mem_place hjoin hname hc
  rw [join_of_isAbsolute hfile] at hmem
  exact hback hmem

theorem components_join_reported (hroot : isAbsolute root) (hfile : isAbsolute file)
    (hback : backslash ∉ file) {p : Text} (hp : reported cwd root file = .ok p) :
    isAbsolute p = false ∧ components (normalize (join root p)) = components (normalize file) := by
  rw [reported_eq_of_isAbsolute hfile hback] at hp
  obtain ⟨hrelative, hplace⟩ := place_join_relative (isAbsolute_join_right hroot cwd)
    (ne_nil_of_isAbsolute hfile) (isAbsolute_join_right hfile cwd) hp
  rw [place_of_isAbsolute (isAbsolute_join_left hroot p), place_of_isAbsolute hfile] at hplace
  exact ⟨hrelative, hplace⟩

/-- The path of a file in a report leads from the root back to the file, so that files of one path are
one file, and inside the root it is the rest of the way. Normal forms differ otherwise only in
whether they keep two slashes at the start. -/
theorem reported_leads_back (cwd : Text) (hroot : isAbsolute root) (hfile : isAbsolute file)
    (hback : backslash ∉ file) :
    ∃ p, reported cwd root file = .ok p ∧
      (∀ d : Declaration, d.file = file →
        Index.symbolFinding cwd root d = .ok ⟨d.name, p, d.line⟩) ∧
      p.head? ≠ some slash ∧
      components (normalize (join root p)) = components (normalize file) ∧
      (∀ other, isAbsolute other → backslash ∉ other → reported cwd root other = .ok p →
        components (normalize other) = components (normalize file) ∧
        (leadingSlashes other = leadingSlashes file → normalize other = normalize file)) ∧
      ∀ rest, components (normalize file) = components (normalize root) ++ rest →
        p = if rest.isEmpty then here else Text.join [slash] rest := by
  have hjoin := isAbsolute_join_right hfile cwd
  have hp := relative_eq (ne_nil_of_isAbsolute hfile) hjoin root
  have hway := isComponent_of_mem_wayTo (place cwd root) hjoin
  rw [← reported_eq_of_isAbsolute hfile hback] at hp
  obtain ⟨hrelative, hleads⟩ := components_join_reported hroot hfile hback hp
  refine ⟨_, hp, ?_, ?_, hleads, ?_, ?_⟩
  · rintro d rfl
    rewrite [symbolFinding_eq, hp]
    rfl
  · simpa [isAbsolute] using hrelative
  · intro other hother hback' hsame
    have hcomponents := (components_join_reported hroot hother hback' hsame).2.symm.trans hleads
    refine ⟨hcomponents, fun hslashes => ?_⟩
    rw [components_normalize hother, components_normalize hfile] at hcomponents
    rw [normalize_eq hother, normalize_eq hfile, hslashes, hcomponents]
  · intro rest hrest
    rw [ofComponents_nil_eq hway, place_of_isAbsolute hroot, place_of_isAbsolute hfile, hrest,
      wayTo_self_append]

def steppedRoot : Text := "/p/./x/../app"

def doubledFile : Text := "//p/lib//../b.dart"

theorem reported_leads_back_up :
    (isAbsolute steppedRoot ∧ isAbsolute doubledFile ∧ backslash ∉ doubledFile) ∧
      reported "/" steppedRoot doubledFile = .ok "../b.dart" ∧
      components (normalize (join steppedRoot "../b.dart")) = components (normalize doubledFile) ∧
      components (normalize doubledFile) = [Text.ofString "p", Text.ofString "b.dart"] := by
  have hroot : isAbsolute steppedRoot := by decide
  have hfile : isAbsolute doubledFile := by decide
  have hback : backslash ∉ doubledFile := by decide
  obtain ⟨p, hp, _, _, hleads, _⟩ := reported_leads_back "/" hroot hfile hback
  have hvalue : reported "/" steppedRoot doubledFile = .ok "../b.dart" := by rfl
  cases hp.symm.trans hvalue
  exact ⟨⟨hroot, hfile, hback⟩, hvalue, hleads, by decide⟩

end Reported

end Path

end Deadwood
