import Deadwood.Proofs.Path

/-!
Paths as lists of names. What a path says is how many slashes it starts with and which names it goes
through; a path in normal form is written from these and read back to the same.
-/
namespace Deadwood

namespace Text

theorem split_append_sep (sep : CodePoint) (s t : Text) :
    split sep (s ++ sep :: t) = split sep s ++ split sep t := by
  induction s with
  | nil => exact split_cons_self sep t
  | cons c s ih =>
    by_cases hc : c = sep
    · subst hc
      rw [List.cons_append, split_cons_self, split_cons_self, ih, List.cons_append]
    · obtain ⟨piece, pieces, hsplit⟩ := List.exists_cons_of_ne_nil (split_ne_nil sep s)
      rw [hsplit, List.cons_append] at ih
      rw [List.cons_append, split_cons_of_ne hc ih, split_cons_of_ne hc hsplit, List.cons_append]

theorem mem_of_mem_split {sep c : CodePoint} {t piece : Text} (hpiece : piece ∈ split sep t)
    (hc : c ∈ piece) : c ≠ sep ∧ c ∈ t := by
  induction t generalizing piece with
  | nil =>
    rw [List.mem_singleton.mp hpiece] at hc
    cases hc
  | cons b t ih =>
    by_cases hb : b = sep
    · rw [hb, split_cons_self] at hpiece
      rcases List.mem_cons.mp hpiece with rfl | hpiece
      · cases hc
      · exact ⟨(ih hpiece hc).1, List.mem_cons_of_mem _ (ih hpiece hc).2⟩
    · obtain ⟨first, pieces, hsplit⟩ := List.exists_cons_of_ne_nil (split_ne_nil sep t)
      rw [split_cons_of_ne hb hsplit] at hpiece
      rw [hsplit] at ih
      rcases List.mem_cons.mp hpiece with rfl | hpiece
      · rcases List.mem_cons.mp hc with rfl | hc
        · exact ⟨hb, List.mem_cons_self⟩
        · exact ⟨(ih List.mem_cons_self hc).1,
            List.mem_cons_of_mem _ (ih List.mem_cons_self hc).2⟩
      · have hlater := ih (List.mem_cons_of_mem _ hpiece) hc
        exact ⟨hlater.1, List.mem_cons_of_mem _ hlater.2⟩

theorem mem_split_of_mem {sep c : CodePoint} {t : Text} (h : c ∈ t) :
    c = sep ∨ ∃ piece ∈ split sep t, c ∈ piece := by
  induction t with
  | nil => cases h
  | cons b t ih =>
    by_cases hb : b = sep
    · subst hb
      rw [split_cons_self]
      rcases List.mem_cons.mp h with rfl | h
      · exact .inl rfl
      · rcases ih h with hc | ⟨piece, hpiece, hc⟩
        · exact .inl hc
        · exact .inr ⟨piece, List.mem_cons_of_mem _ hpiece, hc⟩
    · obtain ⟨first, pieces, hsplit⟩ := List.exists_cons_of_ne_nil (split_ne_nil sep t)
      rw [split_cons_of_ne hb hsplit]
      rw [hsplit] at ih
      rcases List.mem_cons.mp h with rfl | h
      · exact .inr ⟨_, List.mem_cons_self, List.mem_cons_self⟩
      · rcases ih h with hc | ⟨piece, hpiece, hc⟩
        · exact .inl hc
        · rcases List.mem_cons.mp hpiece with rfl | hpiece
          · exact .inr ⟨_, List.mem_cons_self, List.mem_cons_of_mem _ hc⟩
          · exact .inr ⟨piece, List.mem_cons_of_mem _ hpiece, hc⟩

theorem join_singleton (sep : CodePoint) (a : Text) : join [sep] [a] = a :=
  List.intercalate_singleton

theorem join_cons_cons (sep : CodePoint) (a b : Text) (pieces : List Text) :
    join [sep] (a :: b :: pieces) = a ++ sep :: join [sep] (b :: pieces) := by
  unfold join
  rw [List.intercalate_cons_cons, List.append_assoc, List.singleton_append]

theorem join_concat (sep : CodePoint) {pieces : List Text} (h : pieces ≠ []) (a : Text) :
    join [sep] (pieces ++ [a]) = join [sep] pieces ++ sep :: a := by
  induction pieces with
  | nil => exact absurd rfl h
  | cons b pieces ih =>
    cases pieces with
    | nil =>
      rw [List.singleton_append, join_cons_cons, join_singleton, join_singleton]
    | cons c pieces =>
      rw [List.cons_append, List.cons_append, join_cons_cons, ← List.cons_append,
        ih (List.cons_ne_nil _ _), join_cons_cons, List.append_assoc, List.cons_append]

theorem mem_join {sep c : CodePoint} {pieces : List Text} (h : c ∈ join [sep] pieces) :
    c = sep ∨ ∃ piece ∈ pieces, c ∈ piece := by
  induction pieces with
  | nil => cases h
  | cons a pieces ih =>
    cases pieces with
    | nil =>
      rw [join_singleton] at h
      exact .inr ⟨a, List.mem_cons_self, h⟩
    | cons b pieces =>
      rw [join_cons_cons, List.mem_append, List.mem_cons] at h
      rcases h with h | h | h
      · exact .inr ⟨a, List.mem_cons_self, h⟩
      · exact .inl h
      · rcases ih h with h | ⟨piece, hpiece, h⟩
        · exact .inl h
        · exact .inr ⟨piece, List.mem_cons_of_mem _ hpiece, h⟩

end Text

namespace Path

/-! ### Names -/

theorem isComponent_above : IsComponent above := by decide

theorem components_append_slash (p q : Text) :
    components (p ++ slash :: q) = components p ++ components q := by
  unfold components
  rw [Text.split_append_sep, List.filter_append]

@[simp] theorem components_nil : components [] = [] := rfl

theorem components_slash_cons (p : Text) : components (slash :: p) = components p :=
  components_append_slash [] p

theorem isComponent_of_mem {p name : Text} (h : name ∈ components p) : IsComponent name := by
  simp only [components, List.mem_filter, Bool.and_eq_true, Bool.not_eq_true',
    List.isEmpty_eq_false_iff, bne_iff_ne] at h
  exact ⟨h.2.1, h.2.2, fun hslash => (Text.mem_of_mem_split h.1 hslash).1 rfl⟩

theorem mem_of_mem_components {p name : Text} {c : CodePoint} (h : name ∈ components p)
    (hc : c ∈ name) : c ∈ p :=
  (Text.mem_of_mem_split (List.mem_of_mem_filter h) hc).2

theorem mem_components_of_mem {p : Text} {c : CodePoint} (h : c ∈ p) :
    c = dot ∨ c = slash ∨ ∃ name ∈ components p, c ∈ name := by
  rcases Text.mem_split_of_mem h with hslash | ⟨piece, hpiece, hc⟩
  · exact .inr (.inl hslash)
  · by_cases hhere : piece = here
    · have hdot : here = [dot] := rfl
      rw [hhere, hdot, List.mem_singleton] at hc
      exact .inl hc
    · refine .inr (.inr ⟨piece, List.mem_filter.mpr ⟨hpiece, ?_⟩, hc⟩)
      simp [List.ne_nil_of_mem hc, hhere]

theorem components_of_isComponent {name : Text} (h : IsComponent name) :
    components name = [name] := by
  unfold components
  rw [Text.split_of_not_mem h.2.2]
  simp [h.1, h.2.1]

theorem components_slashed {names : List Text} (h : ∀ name ∈ names, IsComponent name) :
    components (Text.join [slash] names) = names := by
  induction names with
  | nil => rfl
  | cons a names ih =>
    rw [List.forall_mem_cons] at h
    cases names with
    | nil =>
      rw [Text.join_singleton]
      exact components_of_isComponent h.1
    | cons b names =>
      rw [Text.join_cons_cons, components_append_slash, components_of_isComponent h.1, ih h.2,
        List.singleton_append]

/-! ### Leading slashes -/

/-- What a path can start with before its first name. -/
def IsLead (lead : Text) : Prop :=
  lead = [] ∨ lead = [slash] ∨ lead = [slash, slash]

theorem isLead_leadingSlashes (p : Text) : IsLead (leadingSlashes p) := by
  unfold IsLead leadingSlashes
  grind

theorem leadingSlashes_eq_nil_iff {p : Text} : leadingSlashes p = [] ↔ isAbsolute p = false := by
  unfold leadingSlashes isAbsolute
  grind

theorem ne_slash_of_isComponent {c : CodePoint} {name : Text} (h : IsComponent (c :: name)) :
    c ≠ slash := by
  rintro rfl
  exact h.2.2 List.mem_cons_self

theorem head?_slashed {names : List Text} (h : ∀ name ∈ names, IsComponent name) :
    ∀ c ∈ (Text.join [slash] names).head?, c ≠ slash := by
  cases names with
  | nil => simp [Text.join]
  | cons a names =>
    have ha : IsComponent a := h a List.mem_cons_self
    cases a with
    | nil => exact absurd rfl ha.1
    | cons c a =>
      have hhead : (Text.join [slash] ((c :: a) :: names)).head? = some c := by
        cases names with
        | nil => rw [Text.join_singleton, List.head?_cons]
        | cons b names => rw [Text.join_cons_cons, List.cons_append, List.head?_cons]
      rw [hhead]
      simpa using ne_slash_of_isComponent ha

/-! ### Paths written from names -/

section OfComponents

variable {lead : Text} {names : List Text}

theorem ofComponents_eq (hlead : lead ≠ []) (names : List Text) :
    ofComponents lead names = lead ++ Text.join [slash] names := by
  unfold ofComponents
  simp [hlead]

theorem slashed_ne_nil (h : ∀ name ∈ names, IsComponent name) (hne : names ≠ []) :
    Text.join [slash] names ≠ [] := by
  intro hnil
  have hnames := components_slashed h
  rw [hnil] at hnames
  exact hne hnames.symm

theorem ofComponents_nil_eq (h : ∀ name ∈ names, IsComponent name) :
    ofComponents [] names = if names.isEmpty then here else Text.join [slash] names := by
  unfold ofComponents
  cases names with
  | nil => rfl
  | cons a names =>
    have hne := slashed_ne_nil h (List.cons_ne_nil a names)
    simp [hne]

theorem components_ofComponents (hlead : IsLead lead) (h : ∀ name ∈ names, IsComponent name) :
    components (ofComponents lead names) = names := by
  rcases hlead with rfl | rfl | rfl
  · rw [ofComponents_nil_eq h]
    cases names with
    | nil => rfl
    | cons a names => exact components_slashed h
  · rw [ofComponents_eq (by simp), List.singleton_append, components_slash_cons,
      components_slashed h]
  · rw [ofComponents_eq (by simp), List.cons_append, List.singleton_append, components_slash_cons,
      components_slash_cons, components_slashed h]

theorem leadingSlashes_ofComponents (hlead : IsLead lead) (h : ∀ name ∈ names, IsComponent name) :
    leadingSlashes (ofComponents lead names) = lead := by
  have hhead := head?_slashed h
  rcases hlead with rfl | rfl | rfl
  · rw [leadingSlashes_eq_nil_iff, ofComponents_nil_eq h]
    cases names with
    | nil => decide
    | cons a names =>
      simp only [isAbsolute, List.isEmpty_cons, Bool.false_eq_true, if_false, beq_eq_false_iff_ne]
      exact fun hslash => hhead slash hslash rfl
  · rw [ofComponents_eq (by simp)]
    cases hrest : Text.join [slash] names with
    | nil => rfl
    | cons c rest =>
      have hc : c ≠ slash := by simpa [hrest] using hhead
      cases rest <;> simp [leadingSlashes, hc]
  · rw [ofComponents_eq (by simp)]
    cases hrest : Text.join [slash] names with
    | nil => rfl
    | cons c rest =>
      have hc : c ≠ slash := by simpa [hrest] using hhead
      simp [leadingSlashes, hc]

theorem isAbsolute_ofComponents (hlead : IsLead lead) (h : ∀ name ∈ names, IsComponent name) :
    isAbsolute (ofComponents lead names) = !lead.isEmpty := by
  have hslashes := leadingSlashes_ofComponents hlead h
  cases habsolute : isAbsolute (ofComponents lead names) with
  | false =>
    rw [leadingSlashes_eq_nil_iff.mpr habsolute] at hslashes
    simp [← hslashes]
  | true =>
    have hne : leadingSlashes (ofComponents lead names) ≠ [] := by
      rw [Ne, leadingSlashes_eq_nil_iff, habsolute]
      simp
    rw [hslashes] at hne
    simp [hne]

end OfComponents

/-! ### Joined paths -/

section Join

variable {base p : Text}

theorem join_of_isAbsolute (h : isAbsolute p) (base : Text) : join base p = p := by
  simp [join, h]

theorem components_join (h : isAbsolute p = false) (base : Text) :
    components (join base p) = components base ++ components p := by
  unfold join
  simp only [h, Bool.false_or]
  split
  · next hbase => rw [List.isEmpty_iff.mp hbase, components_nil, List.nil_append]
  · split
    · next hlast =>
      obtain ⟨front, rfl⟩ := List.getLast?_eq_some_iff.mp (eq_of_beq hlast)
      rw [List.append_assoc, List.singleton_append, components_append_slash,
        components_append_slash, components_nil, List.append_nil]
    · exact components_append_slash base p

theorem isAbsolute_join (base p : Text) :
    isAbsolute (join base p) = (isAbsolute base || isAbsolute p) := by
  cases hp : isAbsolute p with
  | true => rw [join_of_isAbsolute hp, hp, Bool.or_true]
  | false =>
    unfold join
    cases base with
    | nil =>
      rw [List.isEmpty_nil, Bool.or_true, if_pos rfl]
      exact hp
    | cons c base =>
      simp only [hp, List.isEmpty_cons, Bool.or_self, Bool.false_eq_true, if_false]
      split <;> simp [isAbsolute]

theorem isAbsolute_join_left {base : Text} (h : isAbsolute base) (p : Text) :
    isAbsolute (join base p) := by
  rw [isAbsolute_join, h, Bool.true_or]

theorem isAbsolute_of_isComponent {name : Text} (h : IsComponent name) : isAbsolute name = false := by
  cases name with
  | nil => rfl
  | cons c name => simpa [isAbsolute] using ne_slash_of_isComponent h

theorem join_ne_nil_right (h : p ≠ []) (base : Text) : join base p ≠ [] := by
  unfold join
  split
  · exact h
  · split <;> simp [h]

theorem mem_components_join {name : Text} (h : name ∈ components p) (base : Text) :
    name ∈ components (join base p) := by
  cases hp : isAbsolute p with
  | true => rwa [join_of_isAbsolute hp]
  | false =>
    rw [components_join hp]
    exact List.mem_append_right _ h

theorem getLast?_slashed {names : List Text} (h : ∀ name ∈ names, IsComponent name)
    (hne : names ≠ []) : (Text.join [slash] names).getLast? ≠ some slash := by
  obtain ⟨front, last, rfl⟩ := (List.eq_nil_or_concat names).resolve_left hne
  have hlast : IsComponent last := h last (by simp)
  have hgetLast : (Text.join [slash] (front ++ [last])).getLast? = last.getLast? := by
    cases front with
    | nil => rw [List.nil_append, Text.join_singleton]
    | cons a front =>
      rw [Text.join_concat slash (List.cons_ne_nil _ _), List.append_cons,
        List.getLast?_append_of_ne_nil _ hlast.1]
  rw [List.concat_eq_append, hgetLast]
  exact fun hslash => hlast.2.2 (List.mem_of_getLast? hslash)

theorem join_ofComponents {lead name : Text} {names : List Text} (hlead : IsLead lead)
    (hne : lead ≠ []) (h : ∀ name ∈ names, IsComponent name) (hname : IsComponent name) :
    join (ofComponents lead names) name = ofComponents lead (names ++ [name]) := by
  have hempty : (ofComponents lead names).isEmpty = false := by
    simp [ofComponents_eq hne, hne]
  unfold join
  simp only [isAbsolute_of_isComponent hname, hempty, Bool.or_self, Bool.false_eq_true, if_false]
  rw [ofComponents_eq hne, ofComponents_eq hne]
  by_cases hnames : names = []
  · have hslash : lead.getLast? = some slash := by
      rcases hlead with rfl | rfl | rfl
      · exact absurd rfl hne
      · rfl
      · rfl
    subst hnames
    simp [Text.join, hslash]
  · have hslash : (lead ++ Text.join [slash] names).getLast? ≠ some slash := by
      rw [List.getLast?_append_of_ne_nil _ (slashed_ne_nil h hnames)]
      exact getLast?_slashed h hnames
    rw [if_neg (by simpa using hslash), Text.join_concat slash hnames, List.append_assoc]

end Join

/-! ### Cleaned paths -/

theorem components_clean (p : Text) : components (clean p) = components p :=
  components_ofComponents (isLead_leadingSlashes p) fun _ => isComponent_of_mem

theorem isAbsolute_clean (p : Text) : isAbsolute (clean p) = isAbsolute p := by
  have hlead := leadingSlashes_eq_nil_iff (p := p)
  rw [clean, isAbsolute_ofComponents (isLead_leadingSlashes p) fun _ => isComponent_of_mem]
  cases habsolute : isAbsolute p with
  | false => rw [hlead.mpr habsolute, List.isEmpty_nil, Bool.not_true]
  | true =>
    have hne : leadingSlashes p ≠ [] := fun hnil => by simp [hlead.mp hnil] at habsolute
    simp [hne]

theorem components_join_clean (base p : Text) :
    components (join base (clean p)) = components (join base p) := by
  have habsolute := isAbsolute_clean p
  cases hp : isAbsolute p with
  | false => rw [components_join (habsolute.trans hp), components_join hp, components_clean]
  | true => rw [join_of_isAbsolute (habsolute.trans hp), join_of_isAbsolute hp, components_clean]

/-! ### Names resolved -/

/-- One more name after those on the stack, the innermost first. -/
def enter (absolute : Bool) (stack : List Text) (name : Text) : List Text :=
  if name != above then name :: stack
  else match stack with
    | [] => if absolute then [] else [name]
    | top :: below => if top == above then name :: stack else below

theorem collapse_eq_foldl (absolute : Bool) (names : List Text) :
    collapse absolute names = (names.foldl (enter absolute) []).reverse := rfl

section Collapse

variable {absolute : Bool} {stack names : List Text} {name : Text}

theorem enter_of_ne (h : name ≠ above) : enter absolute stack name = name :: stack := by
  simp [enter, h]

theorem enter_above (h : above ∉ stack) : enter true stack above = stack.tail := by
  cases stack with
  | nil => rfl
  | cons top below =>
    have htop : top ≠ above := fun htop => h (htop ▸ List.mem_cons_self)
    simp [enter, htop]

theorem above_notMem_enter (h : above ∉ stack) (name : Text) : above ∉ enter true stack name := by
  by_cases hname : name = above
  · rw [hname, enter_above h]
    exact fun hmem => h (List.mem_of_mem_tail hmem)
  · rw [enter_of_ne hname, List.mem_cons, not_or]
    exact ⟨Ne.symm hname, h⟩

theorem above_notMem_foldl_enter (h : above ∉ stack) (names : List Text) :
    above ∉ names.foldl (enter true) stack := by
  induction names generalizing stack with
  | nil => exact h
  | cons name names ih => exact ih (above_notMem_enter h name)

theorem mem_enter {other : Text} (h : name ∈ enter absolute stack other) :
    name = other ∨ name ∈ stack := by
  unfold enter at h
  grind

theorem mem_foldl_enter (h : name ∈ names.foldl (enter absolute) stack) :
    name ∈ names ∨ name ∈ stack := by
  induction names generalizing stack with
  | nil => exact .inr h
  | cons other names ih =>
    rw [List.mem_cons]
    rcases ih h with hmem | hmem
    · exact .inl (.inr hmem)
    · rcases mem_enter hmem with rfl | hmem
      · exact .inl (.inl rfl)
      · exact .inr hmem

theorem foldl_enter_names (h : ∀ name ∈ names, name ≠ above) (stack : List Text) :
    names.foldl (enter absolute) stack = names.reverse ++ stack := by
  induction names generalizing stack with
  | nil => rfl
  | cons name names ih =>
    rw [List.forall_mem_cons] at h
    rw [List.foldl_cons, enter_of_ne h.1, ih h.2, List.reverse_cons, List.append_assoc,
      List.singleton_append]

theorem foldl_enter_above (h : above ∉ stack) (n : Nat) :
    (List.replicate n above).foldl (enter true) stack = stack.drop n := by
  induction n generalizing stack with
  | zero => rfl
  | succ n ih =>
    rw [List.replicate_succ, List.foldl_cons, enter_above h,
      ih fun hmem => h (List.mem_of_mem_tail hmem), List.drop_tail]

theorem collapse_of_names (h : ∀ name ∈ names, name ≠ above) : collapse absolute names = names := by
  rw [collapse_eq_foldl, foldl_enter_names h, List.append_nil, List.reverse_reverse]

theorem collapse_append (absolute : Bool) (names more : List Text) :
    collapse absolute (names ++ more) =
      (more.foldl (enter absolute) (collapse absolute names).reverse).reverse := by
  simp only [collapse_eq_foldl, List.foldl_append, List.reverse_reverse]

theorem mem_of_mem_collapse (h : name ∈ collapse absolute names) : name ∈ names := by
  rw [collapse_eq_foldl, List.mem_reverse] at h
  exact (mem_foldl_enter h).resolve_right List.not_mem_nil

theorem isName_of_mem_collapse {p : Text} (h : name ∈ collapse true (components p)) :
    IsName name := by
  refine ⟨isComponent_of_mem (mem_of_mem_collapse h), ?_⟩
  rintro rfl
  rw [collapse_eq_foldl, List.mem_reverse] at h
  exact above_notMem_foldl_enter List.not_mem_nil _ h

end Collapse

/-! ### Normal forms -/

section Normalize

variable {p : Text}

theorem leadingSlashes_ne_nil (h : isAbsolute p) : leadingSlashes p ≠ [] := by
  rw [Ne, leadingSlashes_eq_nil_iff, h]
  exact Bool.noConfusion

theorem normalize_eq (h : isAbsolute p) :
    normalize p = ofComponents (leadingSlashes p) (collapse true (components p)) := by
  rw [normalize, h]

theorem components_normalize (h : isAbsolute p) :
    components (normalize p) = collapse true (components p) := by
  rw [normalize_eq h]
  exact components_ofComponents (isLead_leadingSlashes p) fun _ hname =>
    (isName_of_mem_collapse hname).1

theorem normalize_ofComponents {lead : Text} {names : List Text} (hlead : IsLead lead)
    (hne : lead ≠ []) (h : ∀ name ∈ names, IsName name) :
    normalize (ofComponents lead names) = ofComponents lead names := by
  have hcomponents : ∀ name ∈ names, IsComponent name := fun name hname => (h name hname).1
  have habsolute : isAbsolute (ofComponents lead names) := by
    rw [isAbsolute_ofComponents hlead hcomponents]
    simp [hne]
  rw [normalize_eq habsolute, leadingSlashes_ofComponents hlead hcomponents,
    components_ofComponents hlead hcomponents, collapse_of_names fun name hname => (h name hname).2]

end Normalize

/-! ### Places -/

def place (cwd p : Text) : List Text :=
  components (absolute cwd p)

section Place

variable {cwd p q : Text}

theorem place_eq (h : isAbsolute (join cwd p)) :
    place cwd p = collapse true (components (join cwd p)) :=
  components_normalize h

theorem isName_of_mem_place (h : isAbsolute (join cwd p)) {name : Text} (hname : name ∈ place cwd p) :
    IsName name := by
  rw [place_eq h] at hname
  exact isName_of_mem_collapse hname

theorem absolute_of_isAbsolute (h : isAbsolute p) (cwd : Text) : absolute cwd p = normalize p := by
  rw [absolute, join_of_isAbsolute h]

theorem components_join_join (h : isAbsolute q = false) (cwd p : Text) :
    components (join cwd (join p q)) = components (join cwd p) ++ components q := by
  cases hp : isAbsolute p with
  | true =>
    rw [join_of_isAbsolute (isAbsolute_join_left hp q), join_of_isAbsolute hp, components_join h]
  | false =>
    have hjoin : isAbsolute (join p q) = false := by rw [isAbsolute_join, hp, h, Bool.or_self]
    rw [components_join hjoin, components_join hp, components_join h, List.append_assoc]

end Place

end Path

end Deadwood
