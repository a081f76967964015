import Deadwood.Extractor
import Deadwood.Notice

/-!
All that is taken from one file, read off its syntax tree.
-/
namespace Deadwood

structure FileAnalysis where
  file : Text
  declarations : List Declaration := []
  census : Census := {}
  packages : List Text := []
  literals : List Text := []

def Node.literalFragments (source : Bytes) (root : Node) : List Text :=
  (root.withRole .string).foldl (fun known v =>
    Text.addAll known
      (Literal.fragments (Literal.decode (Utf8.decodeReplacing (v.node.bytes source))))) []

def Node.analyze (source : Bytes) (file : Text) (excluded : List Text) (root : Node) :
    FileAnalysis :=
  let found := Extractor.collect source file excluded Extractor.all root
  { file
    declarations := found.declarations
    census := found.census
    packages := Text.addAll [] (packageNames found.uris.uris)
    literals := found.literals }

def FileAnalysis.ofSource (parse : Text → Node) (file : Text) (excluded : List Text) (source : Text) :
    FileAnalysis :=
  (parse source).analyze (Utf8.encode source) file excluded

def Node.notices (source : Bytes) (file : Text) (root : Node) : List Notice :=
  let lines := root.defectLines source
  if lines.isEmpty then [] else [.brokenSource file lines.length]

end Deadwood
