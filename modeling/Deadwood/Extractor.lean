import Deadwood.Census
import Deadwood.Declaration
import Deadwood.Import
import Deadwood.Tree.Walker

/-!
What is collected on the one walk over a file's syntax tree. Each extractor has a state of its own and
is called on the nodes of its own roles.
-/
namespace Deadwood

structure Collected where
  declarations : List Declaration := []
  census : Census := {}
  uris : UriTable := []
  literals : List Text := []

inductive Extractor where
  | declarations
  | census
  | imports
  | strings
  deriving DecidableEq, Repr

namespace Extractor

abbrev State : Extractor → Type
  | declarations => List Declaration
  | census => Census
  | imports => UriTable
  | strings => List Text

def get (c : Collected) : (e : Extractor) → e.State
  | declarations => c.declarations
  | census => c.census
  | imports => c.uris
  | strings => c.literals

def set (c : Collected) : (e : Extractor) → e.State → Collected
  | declarations, found => { c with declarations := found }
  | census, counts => { c with census := counts }
  | imports, table => { c with uris := table }
  | strings, known => { c with literals := known }

def roles : Extractor → List Node.Role
  | declarations => [.classDefinition, .function]
  | census => [.token]
  | imports => [.directive]
  | strings => [.string]

def visit (source : Bytes) (file : Text) (excluded : List Text) :
    (e : Extractor) → Node.Role → e.State → Visit → e.State
  | declarations, role, found, v =>
    found ++ (role.declares?.bind fun kind => v.node.declaration? source file excluded kind).toList
  | census, _, counts, v => ((v.lexeme? source).map counts.add).getD counts
  | imports, _, table, v => ((v.node.directiveUri? source).map table.record).getD table
  | strings, _, known, v =>
    Text.addAll known
      (Literal.fragments (Literal.decode (Utf8.decodeReplacing (v.node.bytes source))))

def register (source : Bytes) (file : Text) (excluded : List Text) (w : Walker Collected)
    (e : Extractor) : Walker Collected :=
  e.roles.foldl (fun w role =>
    w.on role fun c v => e.set c (e.visit source file excluded role (e.get c) v)) w

def collect (source : Bytes) (file : Text) (excluded : List Text) (extractors : List Extractor)
    (root : Node) : Collected :=
  (extractors.foldl (register source file excluded) {}).walk root {}

def all : List Extractor :=
  [declarations, census, imports, strings]

end Extractor

end Deadwood
