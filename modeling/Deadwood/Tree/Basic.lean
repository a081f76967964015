import Deadwood.Text.Utf8

/-!
Concrete syntax trees. A node has a label of the grammar, the bytes it covers, the role it plays in
its parent, and a mark if the source is broken there. Spans are not trusted: they may cut a
character, and a child may lie outside its parent.
-/
namespace Deadwood

structure Span where
  start : Nat
  stop : Nat
  deriving DecidableEq, Repr, Inhabited

/-- A node that stands for text that does not fit the grammar, or for text that is not there. -/
inductive Defect where
  | error
  | missing
  deriving DecidableEq, Repr

structure Node where
  label : String
  span : Span
  field : Option String := none
  defect : Option Defect := none
  children : List Node := []

instance : Inhabited Node := ⟨{ label := "", span := default }⟩

namespace Node

def isLeaf (n : Node) : Bool :=
  n.children.isEmpty

def child? (field : String) (n : Node) : Option Node :=
  n.children.find? (·.field == some field)

mutual

def size : Node → Nat
  | ⟨_, _, _, _, children⟩ => 1 + sizeAll children

def sizeAll : List Node → Nat
  | [] => 0
  | n :: ns => n.size + sizeAll ns

end

mutual

def hasDefect : Node → Bool
  | ⟨_, _, _, defect, children⟩ => defect.isSome || anyDefect children

def anyDefect : List Node → Bool
  | [] => false
  | n :: ns => n.hasDefect || anyDefect ns

end

theorem size_eq (n : Node) : n.size = 1 + sizeAll n.children := by
  cases n; simp [size]

theorem sizeAll_append (as bs : List Node) : sizeAll (as ++ bs) = sizeAll as + sizeAll bs := by
  induction as with
  | nil => simp [sizeAll]
  | cons a as ih => simp [sizeAll, ih]; omega

def bytes (source : Bytes) (n : Node) : Bytes :=
  source.slice n.span.start n.span.stop

def line (source : Bytes) (n : Node) : Nat :=
  source.lineAt n.span.start

end Node

end Deadwood
