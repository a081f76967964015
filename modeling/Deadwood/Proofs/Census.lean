import Deadwood.Census
import Deadwood.Proofs.Tree.Places

/-!
What a census counts. Adding and merging change each count by what is added; and the census of a tree
counts the places of the tree where a token has the text.
-/
namespace Deadwood

namespace Census

private theorem lookup_cons_ite (k l : Text) (n : Int) (entries : List (Text × Int)) :
    ((k, n) :: entries).lookup l = if l = k then some n else entries.lookup l := by
  by_cases hl : l = k
  · simp [hl]
  · simp [List.lookup_cons, hl, beq_false_of_ne hl]

theorem lookup_alterEntry (lexeme l : Text) (f : Option Int → Int) (entries : List (Text × Int)) :
    (alterEntry lexeme f entries).lookup l =
      if l = lexeme then some (f (entries.lookup lexeme)) else entries.lookup l := by
  induction entries with
  | nil => simp [alterEntry, lookup_cons_ite]
  | cons entry entries ih =>
    obtain ⟨k, n⟩ := entry
    by_cases hk : k = lexeme
    · subst hk
      by_cases hl : l = k
      · simp [alterEntry, hl]
      · simp [alterEntry, lookup_cons_ite, hl]
    · have hlexeme : ¬ lexeme = k := fun h => hk h.symm
      simp only [alterEntry, beq_iff_eq, hk, if_false, lookup_cons_ite, ih, hlexeme]
      by_cases hl : l = k
      · simp [hl, hk]
      · simp [hl]

theorem count_addCount (census : Census) (lexeme l : Text) (n : Int) :
    (census.addCount lexeme n).count l = census.count l + if l = lexeme then n else 0 := by
  unfold count get? addCount alter
  rw [lookup_alterEntry]
  by_cases hl : l = lexeme
  · subst hl
    simp
  · simp [hl]

theorem count_foldl_addCount {entries : List (Text × Int)} (h : (entries.map Prod.fst).Nodup)
    (census : Census) (l : Text) :
    (entries.foldl (fun c (lexeme, n) => c.addCount lexeme n) census).count l =
      census.count l + (entries.lookup l).getD 0 := by
  induction entries generalizing census with
  | nil => exact (Int.add_zero _).symm
  | cons entry entries ih =>
    obtain ⟨k, n⟩ := entry
    obtain ⟨habsent, hrest⟩ := List.nodup_cons.mp h
    rw [List.foldl_cons, ih hrest, count_addCount, lookup_cons_ite]
    by_cases hl : l = k
    · subst hl
      have hnone : entries.lookup l = none := by
        rw [List.lookup_eq_none_iff]
        intro e he
        rw [bne_iff_ne]
        exact fun heq => habsent (List.mem_map.mpr ⟨e, he, heq.symm⟩)
      simp [hnone]
    · simp [hl]

theorem count_merge (census other : Census) (l : Text) :
    (census.merge other).count l = census.count l + other.count l := by
  unfold merge
  rw [count_foldl_addCount other.distinct]
  rfl

theorem count_empty (l : Text) : ({} : Census).count l = 0 := rfl

theorem count_ofLexemes (lexemes : List Text) (l : Text) :
    (ofLexemes lexemes).count l = lexemes.count l := by
  have hfold : ∀ census : Census,
      (lexemes.foldl (fun c lexeme => c.add lexeme) census).count l =
        census.count l + lexemes.count l := by
    induction lexemes with
    | nil => simp
    | cons lexeme lexemes ih =>
      intro census
      rw [List.foldl_cons, ih]
      unfold add
      rw [count_addCount, List.count_cons]
      by_cases hl : l = lexeme
      · subst hl
        simp
        omega
      · have hk : ¬ lexeme = l := fun h => hl h.symm
        simp [hl, hk]
  unfold ofLexemes
  rw [hfold, count_empty, Int.zero_add]

end Census

def Node.text (source : Bytes) (n : Node) : Text :=
  Utf8.decodeSkipping (n.bytes source)

/-- A token: nothing hangs from it, no other role is given to it by its label, and it is no piece
of a string literal's quotes. -/
def Place.isToken (p : Place) : Bool :=
  p.node.isLeaf && (Node.labelRole? p.node.label).isNone &&
    p.parent.all fun parent => parent.1.label != "string_literal"

namespace Node

theorem withRole_eq_filter (role : Role) (root : Node) :
    root.withRole role = root.walk.filter fun v => v.node.role? == some role := by
  unfold withRole events
  rw [List.filterMap_filterMap, ← List.filterMap_eq_filter]
  congr 1
  funext v
  cases hr : v.node.role? with
  | none => simp [Option.guard, hr]
  | some r => by_cases h : r = role <;> simp [Option.guard, hr, h]

theorem role?_eq_some_iff {n : Node} {role : Role} (h : role ≠ .token) :
    n.role? = some role ↔ labelRole? n.label = some role := by
  unfold role?
  cases labelRole? n.label with
  | some other => rfl
  | none => cases n.isLeaf <;> simp [Ne.symm h]

theorem role?_eq_token (n : Node) :
    (n.role? == some Role.token) = (n.isLeaf && (labelRole? n.label).isNone) := by
  have hlabel : labelRole? n.label ≠ some .token := by
    unfold labelRole?
    split <;> simp
  unfold role?
  cases hl : labelRole? n.label with
  | none => cases n.isLeaf <;> rfl
  | some role =>
    rw [hl] at hlabel
    simpa using hlabel

theorem lexeme?_visit_eq_some (source : Bytes) (p : Place) (l : Text) :
    p.visit.lexeme? source = some l ↔
      (p.parent.all fun parent => parent.1.label != "string_literal") ∧
        p.node.text source = l ∧ isIdentifier l := by
  have hparent : (p.visit.parent == some "string_literal") =
      !(p.parent.all fun parent => parent.1.label != "string_literal") := by
    unfold Place.visit
    cases p.parent with
    | none => rfl
    | some parent => simp [bne]
  unfold Visit.lexeme?
  rw [hparent]
  cases p.parent.all fun parent => parent.1.label != "string_literal" with
  | false => simp
  | true =>
    change (if isIdentifier (p.node.text source) then _ else _) = _ ↔ _
    split
    · next hid =>
      simp only [Option.some.injEq, true_and]
      constructor
      · rintro rfl
        exact ⟨rfl, hid⟩
      · exact fun h => h.1
    · next hid =>
      simp only [reduceCtorEq, true_and, false_iff]
      rintro ⟨rfl, h⟩
      exact hid h

/-- The census of a tree counts the tokens with a text, if the text is that of an identifier. -/
theorem count_census (source : Bytes) (root : Node) (l : Text) :
    (root.census source).count l =
      if isIdentifier l then
        ((root.places.countP fun p => p.isToken && p.node.text source == l : Nat) : Int)
      else 0 := by
  have hwalk : ((root.withRole .token).filterMap (Visit.lexeme? source)).count l =
      root.walk.countP fun v => v.node.role? == some .token && v.lexeme? source == some l := by
    rw [withRole_eq_filter, List.count, List.countP_filterMap, List.countP_filter]
    congr 1
    funext v
    cases v.lexeme? source <;> simp [Bool.and_comm]
  unfold census
  rw [Census.count_ofLexemes, hwalk, root.walk_perm_places.countP_eq, List.countP_map]
  have hplace : ∀ p : Place, (p.visit.node.role? == some .token && p.visit.lexeme? source == some l) =
      (p.isToken && p.node.text source == l && isIdentifier l) := by
    intro p
    have hlexeme := lexeme?_visit_eq_some source p l
    change (p.node.role? == some .token && p.visit.lexeme? source == some l) = _
    rw [role?_eq_token, Bool.eq_iff_iff]
    simp only [Bool.and_eq_true, beq_iff_eq, hlexeme, Place.isToken]
    grind
  split
  · next hid => simp [Function.comp_def, hplace, hid]
  · next hid => simp [Function.comp_def, hplace, hid]

end Node

end Deadwood
