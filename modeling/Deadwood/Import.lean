import Deadwood.Literal.Scanner
import Deadwood.Tree.Walk

/-!
The URIs that import and export directives name, and the packages among them. Several nested nodes
stand for one directive, so URIs are kept by the offset of their literal.
-/
namespace Deadwood

def packageScheme : Text := "package:"

def packageName? (uri : Text) : Option Text :=
  (packageScheme.isPrefixOf? uri).map fun rest =>
    rest.takeWhile fun c : CodePoint => c != '/'

def packageNames (uris : List Text) : List Text :=
  uris.filterMap fun uri => (packageName? uri).filter (!·.isEmpty)

abbrev UriTable := List (Nat × Text)

namespace UriTable

/-- Of two URIs at one offset the later holds. -/
def record (table : UriTable) (entry : Nat × Text) : UriTable :=
  entry :: table.filter (·.1 != entry.1)

def inOrder (table : UriTable) : UriTable :=
  table.mergeSort fun a b => a.1 ≤ b.1

def uris (table : UriTable) : List Text :=
  table.inOrder.map (·.2)

end UriTable

namespace Node

def leadingLiteral? (n : Node) : Option Node :=
  if n.label == "uri" then some ((n.children.find? (·.label == "string_literal")).getD n)
  else if n.label == "string_literal" then some n
  else none

def primaryLiteral? (n : Node) : Option Node :=
  n.traverse.findSome? leadingLiteral?

def directiveUri? (source : Bytes) (n : Node) : Option (Nat × Text) :=
  n.primaryLiteral?.bind fun literal =>
    (Literal.value? (Literal.decode (Utf8.decodeSkipping (literal.bytes source)))).map
      (literal.span.start, ·)

def uriTable (source : Bytes) (root : Node) : UriTable :=
  ((root.withRole .directive).filterMap fun v => v.node.directiveUri? source).foldl
    UriTable.record []

def uris (source : Bytes) (root : Node) : List Text :=
  (root.uriTable source).uris

def packages (source : Bytes) (root : Node) : List Text :=
  packageNames (root.uris source)

end Node

end Deadwood
