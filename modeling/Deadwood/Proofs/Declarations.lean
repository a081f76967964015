import Deadwood.Declaration
import Deadwood.Proofs.Census
import Mathlib.Data.List.Basic

/-!
Each recorded declaration belongs to the place of its name, and no place names two. Where names are
tokens, this is an injection of the declarations of a tree into its tokens.
-/
namespace Deadwood

def Declaration.Kind.role : Kind → Node.Role
  | .classType => .classDefinition
  | .method => .function

namespace Node

def nameIndex? (n : Node) : Option Nat :=
  match n.children.findIdx? (·.field == some "name") with
  | some i => some i
  | none => n.children.findIdx? (·.label == "identifier")

private theorem find?_eq_bind_findIdx? {α : Type} (p : α → Bool) (l : List α) :
    l.find? p = (l.findIdx? p).bind (l[·]?) := by
  induction l with
  | nil => rfl
  | cons a l ih =>
    rw [List.find?_cons, List.findIdx?_cons]
    cases p a with
    | true => rfl
    | false =>
      rw [ih]
      cases l.findIdx? p <;> rfl

theorem nameIndex?_lt (n : Node) {i : Nat} (h : n.nameIndex? = some i) :
    i < n.children.length := by
  unfold nameIndex? at h
  split at h
  · next j hj =>
    cases h
    exact (List.findIdx?_eq_some_iff_getElem.mp hj).1
  · exact (List.findIdx?_eq_some_iff_getElem.mp h).1

theorem nameNode?_eq_bind_nameIndex? (n : Node) :
    n.nameNode? = n.nameIndex?.bind (n.children[·]?) := by
  unfold nameNode? nameIndex? child?
  rw [find?_eq_bind_findIdx?]
  cases hname : n.children.findIdx? (·.field == some "name") with
  | none => exact find?_eq_bind_findIdx? _ _
  | some i =>
    obtain ⟨hi, _⟩ := List.findIdx?_eq_some_iff_getElem.mp hname
    simp [List.getElem?_eq_getElem hi]

def recorded? (source : Bytes) (file : Text) (excluded : List Text) (n : Node) :
    Option Declaration :=
  n.role?.bind fun role => role.declares?.bind fun kind => n.declaration? source file excluded kind

theorem recorded?_cases {source : Bytes} {file : Text} {excluded : List Text} {n : Node}
    {d : Declaration} (h : n.recorded? source file excluded = some d) :
    ∃ name, n.nameNode? = some name ∧ n.role?.bind Role.declares? = some d.kind ∧
      d = ⟨d.kind, name.text source, file, name.line source⟩ ∧ d.name ≠ [] ∧
      (d.kind = .method → d.name ∉ excluded) := by
  obtain ⟨role, hrole, h⟩ := Option.bind_eq_some_iff.mp h
  obtain ⟨kind, hkind, h⟩ := Option.bind_eq_some_iff.mp h
  obtain ⟨name, hname, h⟩ := Option.bind_eq_some_iff.mp h
  change (if (name.text source).isEmpty || (kind == .method && excluded.contains (name.text source))
    then none else some ⟨kind, name.text source, file, name.line source⟩) = some d at h
  split at h
  · cases h
  · next hkept =>
    cases h
    simp only [Bool.or_eq_true, List.isEmpty_iff, Bool.and_eq_true, beq_iff_eq,
      List.contains_iff_mem, not_or, not_and] at hkept
    exact ⟨name, hname, by rw [hrole]; exact hkind, rfl, hkept⟩

theorem Role.declares?_eq_some_iff {role : Role} {kind : Declaration.Kind} :
    role.declares? = some kind ↔ role = kind.role := by
  cases role <;> cases kind <;> simp [declares?, Declaration.Kind.role]

theorem role?_eq_kind_role_iff {n : Node} {kind : Declaration.Kind} :
    n.role? = some kind.role ↔ labelRole? n.label = some kind.role := by
  apply role?_eq_some_iff
  cases kind <;> decide

/-- A class or a function that has a name declares it, in the line of the name; the excluded names
are those of methods. -/
def Declares (source : Bytes) (file : Text) (excluded : List Text) (n : Node)
    (d : Declaration) : Prop :=
  ∃ name, n.nameNode? = some name ∧ labelRole? n.label = some d.kind.role ∧
    d = ⟨d.kind, name.text source, file, name.line source⟩ ∧ d.name ≠ [] ∧
    (d.kind = .method → d.name ∉ excluded)

theorem recorded?_eq_some_iff {source : Bytes} {file : Text} {excluded : List Text} {n : Node}
    {d : Declaration} :
    n.recorded? source file excluded = some d ↔ n.Declares source file excluded d := by
  constructor
  · intro h
    obtain ⟨name, hname, hkind, hd⟩ := recorded?_cases h
    simp only [Option.bind_eq_some_iff, Role.declares?_eq_some_iff, exists_eq_right,
      role?_eq_kind_role_iff] at hkind
    exact ⟨name, hname, hkind, hd⟩
  · rintro ⟨name, hname, hlabel, hd, hempty, hexcluded⟩
    have hkept : ¬ ((name.text source).isEmpty ||
        (d.kind == .method && excluded.contains (name.text source))) := by
      rw [hd] at hempty hexcluded
      simpa using ⟨hempty, hexcluded⟩
    have hentry : n.declaration? source file excluded d.kind = some d := by
      unfold declaration?
      rw [hname, Option.bind_some]
      change (if (name.text source).isEmpty ||
        (d.kind == .method && excluded.contains (name.text source)) then none
        else some ⟨d.kind, name.text source, file, name.line source⟩) = some d
      rw [if_neg hkept, ← hd]
    have hdeclares : d.kind.role.declares? = some d.kind := Role.declares?_eq_some_iff.mpr rfl
    rw [recorded?, role?_eq_kind_role_iff.mpr hlabel, Option.bind_some, hdeclares, Option.bind_some,
      hentry]

theorem declarations_eq_filterMap_preorder (source : Bytes) (file : Text) (excluded : List Text)
    (root : Node) :
    root.declarations source file excluded =
      root.preorder.filterMap (recorded? source file excluded) := by
  have hnodes : root.walk.map Visit.node = root.preorder := root.traverse_eq_preorder
  unfold declarations events
  rw [← hnodes, List.filterMap_map, List.filterMap_filterMap]
  congr 1
  funext v
  simp only [Function.comp_apply, recorded?]
  cases v.node.role? <;> rfl

/-- Every name of a class or a function is a token. -/
def NamesAreTokens (root : Node) : Prop :=
  ∀ n ∈ root.preorder, n.role? = some .classDefinition ∨ n.role? = some .function →
    ∀ name ∈ n.nameNode?, name.isLeaf ∧ labelRole? name.label = none

end Node

def Place.declaration? (source : Bytes) (file : Text) (excluded : List Text) (p : Place) :
    Option Declaration :=
  p.parent.bind fun (parent, i) =>
    if parent.nameIndex? = some i then parent.recorded? source file excluded else none

private theorem filterMap_mapIdx_at {α β γ : Type} {g : β → Option γ} {x : Option γ} :
    ∀ {f : Nat → α → β} {l : List α} {j : Nat}, j < l.length →
      (∀ i a, g (f i a) = if i = j then x else none) → (l.mapIdx f).filterMap g = x.toList := by
  intro f l
  induction l generalizing f with
  | nil => exact fun hj _ => absurd hj (Nat.not_lt_zero _)
  | cons a l ih =>
    intro j hj hg
    rw [List.mapIdx_cons]
    cases j with
    | zero =>
      have hrest : (l.mapIdx fun i => f (i + 1)).filterMap g = [] := by
        rw [List.filterMap_eq_nil_iff]
        intro b hb
        obtain ⟨i, _, rfl⟩ := List.mem_mapIdx.mp hb
        simp [hg]
      rw [List.filterMap_cons, hrest, hg 0 a, if_pos rfl]
      cases x <;> rfl
    | succ j =>
      rw [List.filterMap_cons_none (by simp [hg])]
      exact ih (Nat.lt_of_succ_lt_succ hj) (fun i a => by simp [hg])

theorem filterMap_childPlaces (source : Bytes) (file : Text) (excluded : List Text)
    (parent : Node) :
    parent.childPlaces.filterMap (Place.declaration? source file excluded) =
      (parent.recorded? source file excluded).toList := by
  unfold Node.childPlaces
  cases hindex : parent.nameIndex? with
  | none =>
    have hrecorded : parent.recorded? source file excluded = none := by
      cases hr : parent.recorded? source file excluded with
      | none => rfl
      | some d =>
        obtain ⟨name, hname, _⟩ := Node.recorded?_cases hr
        rw [parent.nameNode?_eq_bind_nameIndex?, hindex] at hname
        cases hname
    rw [hrecorded, Option.toList_none, List.filterMap_eq_nil_iff]
    intro p hp
    obtain ⟨i, _, rfl⟩ := List.mem_mapIdx.mp hp
    simp [Place.declaration?, hindex]
  | some j =>
    apply filterMap_mapIdx_at (parent.nameIndex?_lt hindex)
    intro i child
    simp [Place.declaration?, hindex, eq_comm]

theorem Node.declarations_eq_filterMap_places (source : Bytes) (file : Text)
    (excluded : List Text) (root : Node) :
    root.declarations source file excluded =
      root.places.filterMap (Place.declaration? source file excluded) := by
  unfold Node.places
  rw [List.filterMap_cons_none rfl, List.filterMap_flatMap, declarations_eq_filterMap_preorder,
    List.filterMap_eq_flatMap_toList]
  simp only [filterMap_childPlaces]

theorem Place.declaration?_cases {source : Bytes} {file : Text} {excluded : List Text}
    {root : Node} {p : Place} {d : Declaration} (hp : p ∈ root.places)
    (h : p.declaration? source file excluded = some d) :
    ∃ parent i, p.parent = some (parent, i) ∧ parent ∈ root.preorder ∧
      parent.nameNode? = some p.node ∧ parent.recorded? source file excluded = some d := by
  obtain ⟨⟨parent, i⟩, hparent, h⟩ := Option.bind_eq_some_iff.mp h
  obtain ⟨hmem, hchild⟩ := Node.parent_of_mem_places hp hparent
  simp only [Option.ite_none_right_eq_some] at h
  refine ⟨parent, i, hparent, hmem, ?_, h.2⟩
  rw [parent.nameNode?_eq_bind_nameIndex?, h.1]
  exact hchild

theorem Place.name_of_declaration? {source : Bytes} {file : Text} {excluded : List Text}
    {root : Node} {p : Place} {d : Declaration} (hp : p ∈ root.places)
    (h : p.declaration? source file excluded = some d) : d.name = p.node.text source := by
  obtain ⟨parent, i, _, _, hname, hrecorded⟩ := Place.declaration?_cases hp h
  obtain ⟨name, hname', _, hd, _⟩ := Node.recorded?_cases hrecorded
  rw [hname] at hname'
  cases hname'
  rw [hd]

theorem Node.role?_of_declares {n : Node} {kind : Declaration.Kind}
    (h : n.role?.bind Role.declares? = some kind) :
    n.role? = some .classDefinition ∨ n.role? = some .function := by
  obtain ⟨role, hrole, hkind⟩ := Option.bind_eq_some_iff.mp h
  cases role with
  | classDefinition => exact .inl hrole
  | function => exact .inr hrole
  | directive | string | token => cases hkind

theorem Place.isToken_of_declaration? {source : Bytes} {file : Text} {excluded : List Text}
    {root : Node} {p : Place} {d : Declaration} (hroot : root.NamesAreTokens)
    (hp : p ∈ root.places) (h : p.declaration? source file excluded = some d) : p.isToken := by
  obtain ⟨parent, i, hparent, hmem, hname, hrecorded⟩ := Place.declaration?_cases hp h
  obtain ⟨_, _, hkind, _⟩ := Node.recorded?_cases hrecorded
  have hrole := Node.role?_of_declares hkind
  obtain ⟨hleaf, hlabel⟩ := hroot parent hmem hrole p.node hname
  have hstring : parent.label ≠ "string_literal" := by
    intro heq
    have hs : parent.role? = some .string := by
      unfold Node.role?
      rw [heq]
      rfl
    rw [hs] at hrole
    rcases hrole with hrole | hrole <;> cases hrole
  simp [Place.isToken, hleaf, hlabel, hparent, hstring]

end Deadwood
