import Deadwood.Tree.Walk

/-!
Declaration sites of classes and of methods, functions, getters and setters.
-/
namespace Deadwood

namespace Declaration

inductive Kind where
  | classType
  | method
  deriving DecidableEq, Repr

def Kind.name : Kind → String
  | .classType => "class"
  | .method => "method"

def Kind.ofName? : String → Option Kind
  | "class" => some .classType
  | "method" => some .method
  | _ => none

end Declaration

structure Declaration where
  kind : Declaration.Kind
  name : Text
  file : Text
  line : Int
  deriving DecidableEq, Repr

/-- Methods that the framework or the runtime calls. No code names them, so they would always look
unused. -/
def frameworkCallbacks : List Text :=
  ["build", "createState", "initState", "dispose", "deactivate", "reassemble",
    "didChangeDependencies", "didUpdateWidget", "debugFillProperties", "toString", "hashCode",
    "noSuchMethod", "main"].map Text.ofString

namespace Node

def nameNode? (n : Node) : Option Node :=
  match n.child? "name" with
  | some name => some name
  | none => n.children.find? (·.label == "identifier")

def declaration? (source : Bytes) (file : Text) (excluded : List Text) (kind : Declaration.Kind)
    (n : Node) : Option Declaration :=
  n.nameNode?.bind fun nameNode =>
    let name := Utf8.decodeSkipping (nameNode.bytes source)
    if name.isEmpty || (kind == .method && excluded.contains name) then none
    else some ⟨kind, name, file, nameNode.line source⟩

def Role.declares? : Role → Option Declaration.Kind
  | .classDefinition => some .classType
  | .function => some .method
  | _ => none

def declarations (source : Bytes) (file : Text) (excluded : List Text) (root : Node) :
    List Declaration :=
  root.events.filterMap fun (role, v) =>
    role.declares?.bind fun kind => v.node.declaration? source file excluded kind

end Node

end Deadwood
