import Deadwood.Proofs.Tree.Places

/-!
A node is reached by the numbers of the children on the way to it. In these terms the walk is easily
checked: it meets the nodes in the lexicographic order of their addresses, and each address once.
-/
namespace Deadwood

namespace Node

def at? : List Nat → Node → Option Node
  | [], n => some n
  | i :: address, n => n.children[i]?.bind (at? address)

mutual

def addresses : Node → List (List Nat)
  | ⟨_, _, _, _, children⟩ => [] :: addressesFrom 0 children

def addressesFrom (i : Nat) : List Node → List (List Nat)
  | [] => []
  | n :: ns => n.addresses.map (i :: ·) ++ addressesFrom (i + 1) ns

end

theorem addresses_eq (n : Node) : n.addresses = [] :: addressesFrom 0 n.children := by
  cases n
  rw [addresses]

theorem mem_addressesFrom {i : Nat} {ns : List Node} {address : List Nat} :
    address ∈ addressesFrom i ns ↔
      ∃ j rest n, address = (i + j) :: rest ∧ ns[j]? = some n ∧ rest ∈ n.addresses := by
  induction ns generalizing i with
  | nil => simp [addressesFrom]
  | cons n ns ih =>
    rw [addressesFrom, List.mem_append, List.mem_map, ih]
    constructor
    · rintro (⟨rest, hrest, rfl⟩ | ⟨j, rest, m, rfl, hm, hrest⟩)
      · exact ⟨0, rest, n, rfl, rfl, hrest⟩
      · exact ⟨j + 1, rest, m, by rw [Nat.add_assoc, Nat.add_comm 1], hm, hrest⟩
    · rintro ⟨j, rest, m, rfl, hm, hrest⟩
      cases j with
      | zero =>
        cases hm
        exact .inl ⟨rest, hrest, rfl⟩
      | succ j => exact .inr ⟨j, rest, m, by rw [Nat.add_assoc, Nat.add_comm 1], hm, hrest⟩

theorem mem_addresses {n : Node} {address : List Nat} :
    address ∈ n.addresses ↔ (n.at? address).isSome := by
  induction address generalizing n with
  | nil => simp [addresses_eq, at?]
  | cons i rest ih =>
    rw [addresses_eq, List.mem_cons, mem_addressesFrom, at?]
    constructor
    · rintro (h | ⟨j, rest', child, h, hchild, hrest⟩)
      · cases h
      · obtain ⟨rfl, rfl⟩ : i = j ∧ rest = rest' := by simpa using h
        rw [hchild]
        exact ih.mp hrest
    · intro h
      cases hchild : n.children[i]? with
      | none => simp [hchild] at h
      | some child =>
        rw [hchild] at h
        exact .inr ⟨i, rest, child, by rw [Nat.zero_add], hchild, ih.mpr h⟩

mutual

theorem pairwise_addresses (n : Node) : n.addresses.Pairwise (List.Lex (· < ·)) := by
  obtain ⟨_, _, _, _, children⟩ := n
  rw [addresses, List.pairwise_cons]
  refine ⟨?_, pairwise_addressesFrom 0 children⟩
  intro address h
  obtain ⟨j, rest, _, rfl, _⟩ := mem_addressesFrom.mp h
  exact .nil

theorem pairwise_addressesFrom (i : Nat) (ns : List Node) :
    (addressesFrom i ns).Pairwise (List.Lex (· < ·)) := by
  cases ns with
  | nil =>
    rw [addressesFrom]
    exact .nil
  | cons n ns =>
    rw [addressesFrom, List.pairwise_append, List.pairwise_map]
    refine ⟨(pairwise_addresses n).imp .cons, pairwise_addressesFrom (i + 1) ns, ?_⟩
    intro a ha b hb
    obtain ⟨_, _, rfl⟩ := List.mem_map.mp ha
    obtain ⟨j, _, _, rfl, _⟩ := mem_addressesFrom.mp hb
    exact .rel (by omega)

end

mutual

theorem map_at?_addresses (n : Node) : n.addresses.map (at? · n) = n.preorder.map some := by
  obtain ⟨label, span, field, defect, children⟩ := n
  have hbelow := map_at?_addressesFrom ⟨label, span, field, defect, children⟩ [] children rfl
  rw [List.length_nil] at hbelow
  rw [addresses, preorder, List.map_cons, List.map_cons, hbelow]
  rfl

theorem map_at?_addressesFrom (parent : Node) (before ns : List Node)
    (h : parent.children = before ++ ns) :
    (addressesFrom before.length ns).map (at? · parent) = (preorderAll ns).map some := by
  cases ns with
  | nil => rw [addressesFrom, preorderAll, List.map_nil, List.map_nil]
  | cons n ns =>
    have hn : ∀ rest, parent.at? (before.length :: rest) = n.at? rest := by
      intro rest
      simp [at?, h]
    have hns := map_at?_addressesFrom parent (before ++ [n]) ns (by simp [h])
    rw [List.length_append, List.length_singleton] at hns
    rw [addressesFrom, preorderAll, List.map_append, List.map_append, hns, List.map_map,
      ← map_at?_addresses n]
    simp only [Function.comp_def, hn]

end

end Node

end Deadwood
