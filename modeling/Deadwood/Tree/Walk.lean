import Deadwood.Tree.Basic

/-!
The walk over a syntax tree, parents before children and siblings in order, with an explicit stack
of nodes still to visit; and the roles in which the analysis meets a node.
-/
namespace Deadwood

structure Visit where
  node : Node
  parent : Option String := none

namespace Visit

def children (v : Visit) : List Visit :=
  v.node.children.map (⟨·, some v.node.label⟩)

def sizeAll (stack : List Visit) : Nat :=
  Node.sizeAll (stack.map Visit.node)

theorem sizeAll_push (v : Visit) (stack : List Visit) :
    sizeAll (v.children ++ stack) < sizeAll (v :: stack) := by
  have : v.children.map Visit.node = v.node.children := by
    simp [children, Function.comp_def]
  simp only [sizeAll, List.map_append, List.map_cons, this, Node.sizeAll_append, Node.sizeAll,
    Node.size_eq]
  omega

end Visit

def walkFrom : List Visit → List Visit
  | [] => []
  | v :: stack => v :: walkFrom (v.children ++ stack)
termination_by stack => Visit.sizeAll stack
decreasing_by exact Visit.sizeAll_push v stack

namespace Node

def walk (root : Node) : List Visit :=
  walkFrom [⟨root, none⟩]

def traverse (root : Node) : List Node :=
  root.walk.map Visit.node

mutual

def preorder : Node → List Node
  | n@⟨_, _, _, _, children⟩ => n :: preorderAll children

def preorderAll : List Node → List Node
  | [] => []
  | n :: ns => n.preorder ++ preorderAll ns

end

inductive Role where
  | classDefinition
  | function
  | directive
  | string
  | token
  deriving DecidableEq, Repr

def labelRole? (label : String) : Option Role :=
  match label with
  | "class_definition" => some .classDefinition
  | "function_signature" | "getter_signature" | "setter_signature" => some .function
  | "import_or_export" | "library_import" | "library_export" | "import_specification" =>
    some .directive
  | "string_literal" => some .string
  | _ => none

/-- The label decides; a node of no other role is a token if nothing hangs from it. -/
def role? (n : Node) : Option Role :=
  match labelRole? n.label with
  | some role => some role
  | none => if n.isLeaf then some .token else none

def events (root : Node) : List (Role × Visit) :=
  root.walk.filterMap fun v => v.node.role?.map (·, v)

def withRole (role : Role) (root : Node) : List Visit :=
  root.events.filterMap fun (r, v) => if r == role then some v else none

end Node

/-! ### Where a source is broken -/

/-- The outermost marked nodes on the stack and below it. -/
def defectsFrom : List Node → List Node
  | [] => []
  | n :: stack =>
    if n.defect.isSome then n :: defectsFrom stack
    else if n.hasDefect then defectsFrom (n.children ++ stack)
    else defectsFrom stack
termination_by stack => Node.sizeAll stack
decreasing_by
  all_goals simp only [Node.sizeAll_append, Node.sizeAll, Node.size_eq]; omega

def Node.defectLines (source : Bytes) (root : Node) : List Nat :=
  (defectsFrom [root]).map (Node.line source)

end Deadwood
