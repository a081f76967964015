import Deadwood.Tree.Walk

/-!
How often each identifier stands in the code. What it names makes no difference: a class and a
method of one name share one count.
-/
namespace Deadwood

def isIdentifier : Text → Bool
  | [] => false
  | c :: t => c.isNameStart && t.all CodePoint.isNameChar

/-- Counts by lexeme, each lexeme once, in the order of first appearance. -/
structure Census where
  counts : List (Text × Int) := []
  distinct : (counts.map Prod.fst).Nodup := by exact List.nodup_nil
  deriving DecidableEq, Repr

namespace Census

def get? (lexeme : Text) (census : Census) : Option Int :=
  census.counts.lookup lexeme

def count (lexeme : Text) (census : Census) : Int :=
  (census.get? lexeme).getD 0

def alterEntry (lexeme : Text) (f : Option Int → Int) : List (Text × Int) → List (Text × Int)
  | [] => [(lexeme, f none)]
  | (l, n) :: rest =>
    if l == lexeme then (l, f (some n)) :: rest else (l, n) :: alterEntry lexeme f rest

theorem map_fst_alterEntry (lexeme : Text) (f : Option Int → Int) (entries : List (Text × Int)) :
    (alterEntry lexeme f entries).map Prod.fst = entries.map Prod.fst ∨
      lexeme ∉ entries.map Prod.fst ∧
        (alterEntry lexeme f entries).map Prod.fst = entries.map Prod.fst ++ [lexeme] := by
  induction entries with
  | nil => exact .inr ⟨List.not_mem_nil, rfl⟩
  | cons entry entries ih =>
    obtain ⟨k, n⟩ := entry
    by_cases hk : k = lexeme
    · left
      simp [alterEntry, hk]
    · have hlexeme : ¬ lexeme = k := fun h => hk h.symm
      simp only [alterEntry, beq_iff_eq, hk, if_false, List.map_cons]
      rcases ih with ih | ⟨hnew, ih⟩
      · left
        rw [ih]
      · right
        refine ⟨?_, ?_⟩
        · rw [List.mem_cons, not_or]
          exact ⟨hlexeme, hnew⟩
        · rw [ih, List.cons_append]

theorem nodup_alterEntry (lexeme : Text) (f : Option Int → Int) {entries : List (Text × Int)}
    (h : (entries.map Prod.fst).Nodup) : ((alterEntry lexeme f entries).map Prod.fst).Nodup := by
  rcases map_fst_alterEntry lexeme f entries with hkeys | ⟨hnew, hkeys⟩
  · rw [hkeys]
    exact h
  · rw [hkeys]
    refine List.nodup_append.mpr ⟨h, List.pairwise_singleton _ _, ?_⟩
    intro a ha b hb hab
    rw [hab, List.mem_singleton.mp hb] at ha
    exact hnew ha

def alter (lexeme : Text) (f : Option Int → Int) (census : Census) : Census :=
  ⟨alterEntry lexeme f census.counts, nodup_alterEntry lexeme f census.distinct⟩

def set (lexeme : Text) (n : Int) (census : Census) : Census :=
  census.alter lexeme fun _ => n

def addCount (lexeme : Text) (n : Int) (census : Census) : Census :=
  census.alter lexeme fun old => old.getD 0 + n

def add (lexeme : Text) (census : Census) : Census :=
  census.addCount lexeme 1

def merge (census other : Census) : Census :=
  other.counts.foldl (fun c (lexeme, n) => c.addCount lexeme n) census

/-- A census with given counts; of two for one lexeme the later holds. -/
def ofCounts (counts : List (Text × Int)) : Census :=
  counts.foldl (fun c (lexeme, n) => c.set lexeme n) {}

def ofLexemes (lexemes : List Text) : Census :=
  lexemes.foldl (fun c lexeme => c.add lexeme) {}

end Census

/-- The identifier a token contributes. Tokens directly inside a string literal are its quotes. -/
def Visit.lexeme? (source : Bytes) (v : Visit) : Option Text :=
  if v.parent == some "string_literal" then none
  else
    let lexeme := Utf8.decodeSkipping (v.node.bytes source)
    if isIdentifier lexeme then some lexeme else none

def Node.census (source : Bytes) (root : Node) : Census :=
  Census.ofLexemes ((root.withRole .token).filterMap (Visit.lexeme? source))

end Deadwood
