import Deadwood.Disk
import Deadwood.Text.Blank
import Deadwood.Usage
import Deadwood.Yaml.Error
import Deadwood.Yaml.Value

/-!
The manifest of a project: the packages that it depends on and the assets that it declares. A section
that is absent or has another shape than expected counts as empty.
-/
namespace Deadwood

open Yaml (Value Scalar)

structure Manifest where
  text : Text := []
  dependencies : List (Scalar × Value) := []
  devDependencies : List (Scalar × Value) := []
  assets : List Text := []
  fontAssets : List Text := []

namespace Manifest

inductive Error where
  | yaml (e : Yaml.Error)
  | notAMapping (kind : String)
  /-- A number that stands for a name or a path has too many digits to be written out. -/
  | digits
  | refused (r : Disk.Refusal)
  deriving DecidableEq, Repr

def Error.message : Error → Text
  | yaml e => e.message
  | notAMapping kind => Text.ofString ("Expected a mapping, got " ++ kind)
  | digits => "Exceeds the limit (" ++ Text.ofNat Text.digitLimit ++ " digits) for integer string " ++
      "conversion; use sys.set_int_max_str_digits() to increase the limit"
  | refused r => r.message

/-- Whether the manifest is to blame; the run then goes on without it. -/
def Error.isForgiven : Error → Bool
  | yaml .malformed | notAMapping _ => true
  | _ => false

def assetPath? (entry : Value) : Option Value :=
  (if entry.isMapping then entry.present? "path" else some entry).filter (!·.isNull)

def assetPaths (assets : Value) : List Value :=
  assets.items.filterMap assetPath?

def fontPaths (families : Value) : List Value :=
  families.items.flatMap fun family =>
    ((family.get? "fonts").map Value.items).getD [] |>.filterMap fun font => font.present? "asset"

structure Sections where
  dependencies : Value := .scalar .null
  devDependencies : Value := .scalar .null
  assets : Value := .scalar .null
  fonts : Value := .scalar .null

namespace Sections

/-- Only paths are written out here. Names of packages are left as they are until they are asked for. -/
def isWritable (s : Sections) : Bool :=
  (assetPaths s.assets ++ fontPaths s.fonts).all Value.isWritable

def manifest (s : Sections) (text : Text) : Manifest where
  text := text
  dependencies := s.dependencies.entries
  devDependencies := s.devDependencies.entries
  assets := (assetPaths s.assets).map Value.toText
  fontAssets := (fontPaths s.fonts).map fun path => Path.forwardSlashes path.toText

def under (name : Text) (v : Value) : Value :=
  (v.get? name).getD (.scalar .null)

def ofValue (data : Value) : Sections :=
  let flutter := under "flutter" data
  { dependencies := under "dependencies" data
    devDependencies := under "dev_dependencies" data
    assets := under "assets" flutter
    fonts := under "fonts" flutter }

end Sections

def parse (yaml : Text → Except Yaml.Error Value) (text : Text) : Except Error Manifest :=
  match yaml text with
  | .error e => .error (.yaml e)
  | .ok data =>
    if !data.isMapping then .error (.notAMapping data.kindName)
    else if !(Sections.ofValue data).isWritable then .error .digits
    else .ok ((Sections.ofValue data).manifest text)

/-! ### Packages -/

def lineKey? (line : Text) : Option Text :=
  let line := line.stripLeft
  let key := line.takeWhile fun c : CodePoint => c != ':'
  if key.isEmpty || key.length == line.length then none else some (Text.strip key)

def keyLines (text : Text) : List (Text × Nat) :=
  ((text.split '\n').zipIdx 1).foldl (fun known (line, number) =>
    match lineKey? line with
    | some key => if (known.lookup key).isSome then known else known ++ [(key, number)]
    | none => known) []

/-- Whether an entry names a part of the development kit, which is not a package. -/
def isSdk (v : Value) : Bool :=
  v.isMapping && (v.present? "sdk").isSome

def packageNames (entries : List (Scalar × Value)) : List Text :=
  (entries.filter fun (_, v) => !isSdk v).map fun (key, _) => key.toText

def declaredPackages (m : Manifest) : List DeclaredPackage :=
  let lines := keyLines m.text
  let names := (packageNames m.dependencies ++ packageNames m.devDependencies).eraseDups
  names.map fun name => ⟨name, (lines.lookup name).getD 1⟩

/-- The names of both sections are written out, those of the development kit among them. -/
def writtenPackages (m : Manifest) : Except Error (List DeclaredPackage) :=
  if (m.dependencies ++ m.devDependencies).all fun (key, _) => key.isWritable then
    .ok m.declaredPackages
  else .error .digits

end Manifest

end Deadwood
