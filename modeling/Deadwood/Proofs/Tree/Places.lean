import Deadwood.Tree.Walk

/-!
The places of a tree. A node says nothing about where it stands, so two equal nodes of one tree
are told apart by the node they hang from and by their number among its children. The walk visits
each place once.
-/
namespace Deadwood

namespace Node

theorem preorder_eq (n : Node) : n.preorder = n :: preorderAll n.children := by
  cases n
  rw [preorder]

theorem preorderAll_append (as bs : List Node) :
    preorderAll (as ++ bs) = preorderAll as ++ preorderAll bs := by
  induction as with
  | nil => rw [List.nil_append, preorderAll, List.nil_append]
  | cons a as ih => rw [List.cons_append, preorderAll, preorderAll, ih, List.append_assoc]

theorem mem_preorder_self (n : Node) : n ∈ n.preorder := by
  rw [preorder_eq]
  exact List.mem_cons_self

theorem mem_preorderAll {m : Node} {ns : List Node} :
    m ∈ preorderAll ns ↔ ∃ n ∈ ns, m ∈ n.preorder := by
  induction ns with
  | nil => simp [preorderAll]
  | cons n ns ih => simp [preorderAll, ih]

theorem mem_preorder_of_child {n child : Node} (h : child ∈ n.children) : child ∈ n.preorder := by
  rw [preorder_eq]
  exact List.mem_cons_of_mem _ (mem_preorderAll.mpr ⟨child, h, mem_preorder_self child⟩)

mutual

theorem mem_preorder_trans (root : Node) {n m : Node} (hn : n ∈ root.preorder)
    (hm : m ∈ n.preorder) : m ∈ root.preorder := by
  obtain ⟨_, _, _, _, children⟩ := root
  rw [preorder] at hn ⊢
  rcases List.mem_cons.mp hn with rfl | hn
  · rwa [preorder] at hm
  · exact List.mem_cons_of_mem _ (mem_preorderAll_trans children hn hm)

theorem mem_preorderAll_trans (roots : List Node) {n m : Node} (hn : n ∈ preorderAll roots)
    (hm : m ∈ n.preorder) : m ∈ preorderAll roots := by
  cases roots with
  | nil =>
    rw [preorderAll] at hn
    cases hn
  | cons root roots =>
    rw [preorderAll] at hn ⊢
    rcases List.mem_append.mp hn with hn | hn
    · exact List.mem_append_left _ (mem_preorder_trans root hn hm)
    · exact List.mem_append_right _ (mem_preorderAll_trans roots hn hm)

end

end Node

theorem Visit.map_node_children (v : Visit) : v.children.map Visit.node = v.node.children := by
  simp [children, Function.comp_def]

theorem map_node_walkFrom (stack : List Visit) :
    (walkFrom stack).map Visit.node = Node.preorderAll (stack.map Visit.node) := by
  fun_induction walkFrom stack with
  | case1 => rw [List.map_nil, Node.preorderAll]
  | case2 v stack ih =>
    rw [List.map_cons, ih, List.map_append, Visit.map_node_children, Node.preorderAll_append,
      List.map_cons, Node.preorderAll, Node.preorder_eq, List.cons_append]

theorem walkFrom_append (s t : List Visit) : walkFrom (s ++ t) = walkFrom s ++ walkFrom t := by
  fun_induction walkFrom s with
  | case1 => rfl
  | case2 v s ih => rw [List.cons_append, walkFrom, ← List.append_assoc, ih, List.cons_append]

theorem walkFrom_singleton (n : Node) (parent : Option String) :
    walkFrom [⟨n, parent⟩] = ⟨n, parent⟩ :: walkFrom (n.children.map (⟨·, some n.label⟩)) := by
  rewrite [walkFrom, List.append_nil]
  rfl

theorem Node.traverse_eq_preorder (root : Node) : root.traverse = root.preorder := by
  unfold Node.traverse Node.walk
  rw [map_node_walkFrom]
  simp [Node.preorderAll]

theorem walkFrom_perm (stack : List Visit) :
    (walkFrom stack).Perm (stack ++ (walkFrom stack).flatMap Visit.children) := by
  fun_induction walkFrom stack with
  | case1 => exact .nil
  | case2 v stack ih =>
    rw [List.flatMap_cons, List.cons_append]
    -- the children of `v` went on top of the stack; here they come after it
    refine .cons v (ih.trans ?_)
    rw [← List.append_assoc]
    exact List.perm_append_comm.append_right _

/-- A node of a tree, with the node it hangs from and its number among the children there. -/
structure Place where
  node : Node
  parent : Option (Node × Nat) := none

def Place.visit (p : Place) : Visit :=
  ⟨p.node, p.parent.map fun parent => parent.1.label⟩

namespace Node

def childPlaces (parent : Node) : List Place :=
  parent.children.mapIdx fun i child => ⟨child, some (parent, i)⟩

/-- All places of a tree: its root, and the children of each of its nodes. -/
def places (root : Node) : List Place :=
  ⟨root, none⟩ :: root.preorder.flatMap childPlaces

theorem map_visit_childPlaces (parent : Node) :
    parent.childPlaces.map Place.visit = parent.children.map (⟨·, some parent.label⟩) := by
  apply List.ext_getElem?
  intro i
  simp [childPlaces, Place.visit, Function.comp_def]

theorem walk_perm_places (root : Node) : root.walk.Perm (root.places.map Place.visit) := by
  have hnodes : root.walk.map Visit.node = root.preorder := root.traverse_eq_preorder
  have hchildren : (root.preorder.flatMap childPlaces).map Place.visit =
      root.walk.flatMap Visit.children := by
    rw [← hnodes, List.flatMap_map, List.map_flatMap]
    simp only [map_visit_childPlaces]
    rfl
  unfold places
  rw [List.map_cons, hchildren]
  exact walkFrom_perm [⟨root, none⟩]

theorem mem_childPlaces {parent : Node} {p : Place} (h : p ∈ parent.childPlaces) :
    ∃ i, parent.children[i]? = some p.node ∧ p.parent = some (parent, i) := by
  obtain ⟨i, hi, rfl⟩ := List.mem_mapIdx.mp h
  exact ⟨i, List.getElem?_eq_getElem hi, rfl⟩

theorem parent_of_mem_places {root parent : Node} {p : Place} {i : Nat} (h : p ∈ root.places)
    (hparent : p.parent = some (parent, i)) :
    parent ∈ root.preorder ∧ parent.children[i]? = some p.node := by
  rcases List.mem_cons.mp h with rfl | h
  · cases hparent
  · obtain ⟨n, hn, hp⟩ := List.mem_flatMap.mp h
    obtain ⟨j, hj, hjparent⟩ := mem_childPlaces hp
    rw [hparent] at hjparent
    cases hjparent
    exact ⟨hn, hj⟩

end Node

end Deadwood
