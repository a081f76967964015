import Deadwood.Proofs.Tree.Addresses

/-!
Where a source is broken, said by addresses: the outermost defects are the marked nodes with no marked
node on the way to them. The search passes over whatever lies below a marked node and over subtrees
without a mark, and still meets each of them once and in order.
-/
namespace Deadwood

namespace Node

mutual

theorem hasDefect_iff (n : Node) : n.hasDefect ↔ ∃ m ∈ n.preorder, m.defect.isSome := by
  obtain ⟨label, span, field, defect, children⟩ := n
  rw [hasDefect, Bool.or_eq_true, anyDefect_iff children, preorder]
  simp only [List.mem_cons, exists_eq_or_imp]

theorem anyDefect_iff (ns : List Node) :
    anyDefect ns ↔ ∃ m ∈ preorderAll ns, m.defect.isSome := by
  cases ns with
  | nil => simp [anyDefect, preorderAll]
  | cons n ns =>
    rw [anyDefect, Bool.or_eq_true, hasDefect_iff n, anyDefect_iff ns, preorderAll]
    simp only [List.mem_append, or_and_right, exists_or]

end

mutual

/-- The marked nodes of a tree that hang below no marked node. -/
def outermostDefects : Node → List Node
  | n@⟨_, _, _, defect, children⟩ =>
    if defect.isSome then [n] else outermostDefectsAll children

def outermostDefectsAll : List Node → List Node
  | [] => []
  | n :: ns => n.outermostDefects ++ outermostDefectsAll ns

end

theorem outermostDefects_eq (n : Node) :
    n.outermostDefects = if n.defect.isSome then [n] else outermostDefectsAll n.children := by
  cases n
  rw [outermostDefects]

theorem outermostDefectsAll_append (as bs : List Node) :
    outermostDefectsAll (as ++ bs) = outermostDefectsAll as ++ outermostDefectsAll bs := by
  induction as with
  | nil => rw [List.nil_append, outermostDefectsAll, List.nil_append]
  | cons a as ih =>
    rw [List.cons_append, outermostDefectsAll, outermostDefectsAll, ih, List.append_assoc]

mutual

theorem outermostDefects_eq_nil_iff (n : Node) : n.outermostDefects = [] ↔ n.hasDefect = false := by
  obtain ⟨label, span, field, defect, children⟩ := n
  rw [outermostDefects, hasDefect]
  cases defect with
  | none => simpa using outermostDefectsAll_eq_nil_iff children
  | some mark => simp

theorem outermostDefectsAll_eq_nil_iff (ns : List Node) :
    outermostDefectsAll ns = [] ↔ anyDefect ns = false := by
  cases ns with
  | nil => simp [outermostDefectsAll, anyDefect]
  | cons n ns =>
    rw [outermostDefectsAll, anyDefect, List.append_eq_nil_iff, outermostDefects_eq_nil_iff n,
      outermostDefectsAll_eq_nil_iff ns, Bool.or_eq_false_iff]

end

end Node

/-- The stack holds what is left of the recursion. -/
theorem defectsFrom_eq (stack : List Node) : defectsFrom stack = Node.outermostDefectsAll stack := by
  fun_induction defectsFrom stack with
  | case1 => rw [Node.outermostDefectsAll]
  | case2 n stack hmarked ih =>
    rw [Node.outermostDefectsAll, Node.outermostDefects_eq, if_pos hmarked, ih,
      List.singleton_append]
  | case3 n stack hmarked _ ih =>
    rw [Node.outermostDefectsAll, Node.outermostDefects_eq, if_neg hmarked, ih,
      Node.outermostDefectsAll_append]
  | case4 n stack _ hclean ih =>
    have hnone : n.outermostDefects = [] :=
      n.outermostDefects_eq_nil_iff.mpr (Bool.not_eq_true _ ▸ hclean)
    rw [Node.outermostDefectsAll, hnone, ih, List.nil_append]

namespace Node

theorem defectLines_eq (source : Bytes) (root : Node) :
    root.defectLines source = root.outermostDefects.map (line source) := by
  rw [defectLines, defectsFrom_eq, outermostDefectsAll, outermostDefectsAll, List.append_nil]

/-- A marked node stands at the address, and none on the way to it is marked. -/
def OutermostDefect (root : Node) (address : List Nat) : Prop :=
  (∃ n, root.at? address = some n ∧ n.defect.isSome) ∧
    ∀ above, above <+: address → above ≠ address → ∀ n, root.at? above = some n → n.defect = none

theorem outermostDefect_nil {root : Node} : root.OutermostDefect [] ↔ root.defect.isSome := by
  constructor
  · rintro ⟨⟨n, hn, hmarked⟩, _⟩
    cases hn
    exact hmarked
  · refine fun hmarked => ⟨⟨root, rfl, hmarked⟩, ?_⟩
    intro above habove hne
    exact absurd (List.prefix_nil.mp habove) hne

theorem outermostDefect_cons {root : Node} {i : Nat} {rest : List Nat} :
    root.OutermostDefect (i :: rest) ↔
      root.defect = none ∧ ∃ child, root.children[i]? = some child ∧ child.OutermostDefect rest := by
  constructor
  · rintro ⟨⟨n, hn, hmarked⟩, habove⟩
    obtain ⟨child, hchild, hn⟩ := Option.bind_eq_some_iff.mp hn
    refine ⟨habove [] List.nil_prefix (List.cons_ne_nil i rest).symm root rfl, child, hchild,
      ⟨n, hn, hmarked⟩, ?_⟩
    intro above hprefix hne m hm
    refine habove (i :: above) (List.cons_prefix_cons.mpr ⟨rfl, hprefix⟩) (by simpa using hne) m ?_
    rw [at?, hchild]
    exact hm
  · rintro ⟨hroot, child, hchild, ⟨n, hn, hmarked⟩, habove⟩
    refine ⟨⟨n, by rw [at?, hchild]; exact hn, hmarked⟩, ?_⟩
    intro above hprefix hne m hm
    cases above with
    | nil =>
      cases hm
      exact hroot
    | cons j above =>
      obtain ⟨rfl, hrest⟩ := List.cons_prefix_cons.mp hprefix
      rw [at?, hchild] at hm
      exact habove above hrest (by simpa using hne) m hm

instance decidableOutermostDefect (root : Node) :
    (address : List Nat) → Decidable (root.OutermostDefect address)
  | [] => decidable_of_iff _ outermostDefect_nil.symm
  | i :: rest =>
    match h : root.children[i]? with
    | none => isFalse fun houter => by simp [outermostDefect_cons, h] at houter
    | some child =>
      have := decidableOutermostDefect child rest
      decidable_of_iff (root.defect = none ∧ child.OutermostDefect rest)
        (by simp [outermostDefect_cons, h])

mutual

theorem map_at?_outermost (n : Node) :
    (n.addresses.filter fun address => n.OutermostDefect address).map (at? · n) =
      n.outermostDefects.map some := by
  obtain ⟨label, span, field, defect, children⟩ := n
  rw [addresses, outermostDefects]
  cases hdefect : defect with
  | some mark =>
    -- the root itself is the outermost defect, and nothing below it counts
    have hbelow : (addressesFrom 0 children).filter
        (fun address => OutermostDefect ⟨label, span, field, some mark, children⟩ address) = [] := by
      rw [List.filter_eq_nil_iff]
      intro address haddress
      obtain ⟨j, rest, child, rfl, _⟩ := mem_addressesFrom.mp haddress
      simp [outermostDefect_cons]
    rw [List.filter_cons_of_pos (by simp [outermostDefect_nil]), hbelow]
    rfl
  | none =>
    have hbelow := map_at?_outermostFrom ⟨label, span, field, none, children⟩ rfl [] children rfl
    rw [List.length_nil] at hbelow
    rw [List.filter_cons_of_neg (by simp [outermostDefect_nil]), hbelow]
    rfl

theorem map_at?_outermostFrom (parent : Node) (hparent : parent.defect = none)
    (before ns : List Node) (h : parent.children = before ++ ns) :
    ((addressesFrom before.length ns).filter fun address => parent.OutermostDefect address).map
      (at? · parent) = (outermostDefectsAll ns).map some := by
  cases ns with
  | nil => rw [addressesFrom, outermostDefectsAll, List.filter_nil, List.map_nil, List.map_nil]
  | cons n ns =>
    have hn : parent.children[before.length]? = some n := by simp [h]
    have hat : ∀ rest, parent.at? (before.length :: rest) = n.at? rest := by
      intro rest
      rw [at?, hn, Option.bind_some]
    have houter : ∀ rest, parent.OutermostDefect (before.length :: rest) ↔
        n.OutermostDefect rest := by
      intro rest
      simp [outermostDefect_cons, hparent, hn]
    have hns := map_at?_outermostFrom parent hparent (before ++ [n]) ns (by simp [h])
    rw [List.length_append, List.length_singleton] at hns
    rw [addressesFrom, outermostDefectsAll, List.filter_append, List.map_append, hns,
      List.map_append, List.filter_map, List.map_map, ← map_at?_outermost n]
    simp only [Function.comp_def, hat, houter]

end

/-- The lines of the outermost defects, in the order of the walk and each once. -/
theorem defectLines_are_outermost (source : Bytes) (root : Node) :
    (∀ n ∈ root.preorder, n.hasDefect ↔ ∃ m ∈ n.preorder, m.defect.isSome) ∧
    (root.addresses.Pairwise (List.Lex (· < ·)) ∧
      root.addresses.map (root.at? ·) = root.preorder.map some ∧
      (root.defectLines source).map some =
        (root.addresses.filter fun address => root.OutermostDefect address).map fun address =>
          (root.at? address).map fun n => (source.take n.span.start).count 0x0A + 1) ∧
    (root.defectLines source = [] ↔ ∀ n ∈ root.preorder, n.defect = none) ∧
    ∀ line ∈ root.defectLines source, 1 ≤ line := by
  refine ⟨fun n _ => n.hasDefect_iff, ⟨root.pairwise_addresses, root.map_at?_addresses, ?_⟩, ?_, ?_⟩
  · have hnodes := congrArg (List.map (Option.map (line source))) root.map_at?_outermost
    rw [List.map_map, List.map_map] at hnodes
    rw [defectLines_eq, List.map_map]
    exact hnodes.symm
  · rw [defectLines_eq, List.map_eq_nil_iff, outermostDefects_eq_nil_iff, ← Bool.not_eq_true,
      hasDefect_iff]
    simp
  · intro line hline
    rw [defectLines_eq] at hline
    obtain ⟨n, _, rfl⟩ := List.mem_map.mp hline
    exact Nat.le_add_left 1 _

/-- Two marks, one below the other, and a third below an unmarked node. -/
def brokenTree : Node where
  label := "program"
  span := ⟨0, 5⟩
  children := [
    { label := "ERROR"
      span := ⟨0, 1⟩
      defect := some .error
      children := [{ label := ";", span := ⟨1, 1⟩, defect := some .missing }] },
    { label := "arguments"
      span := ⟨2, 5⟩
      children := [
        { label := "identifier", span := ⟨2, 3⟩ },
        { label := ")", span := ⟨4, 4⟩, defect := some .missing }] }]

def threeLines : Bytes := Utf8.encode "a\nb\nc"

theorem defectLines_are_outermost_nested :
    brokenTree.OutermostDefect [0] ∧ ¬ brokenTree.OutermostDefect [0, 0] ∧
      brokenTree.OutermostDefect [1, 1] ∧ brokenTree.defectLines threeLines = [1, 3] := by
  obtain ⟨_, ⟨_, _, hlines⟩, _⟩ := defectLines_are_outermost threeLines brokenTree
  have hfound : (brokenTree.addresses.filter fun address => brokenTree.OutermostDefect address) =
      [[0], [1, 1]] := by decide
  rw [hfound] at hlines
  refine ⟨by decide, by decide, by decide, ?_⟩
  exact (List.map_inj_right fun _ _ => Option.some.inj).mp hlines

end Node

end Deadwood
