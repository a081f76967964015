import Deadwood.Manifest.Assets
import Deadwood.Notice

/-!
Reading the manifest from the disk. One that is absent or makes no sense is left out, and the run
says so.
-/
namespace Deadwood.Manifest

structure Loaded where
  manifest : Option Manifest
  notices : List Notice

def load (yaml : Text → Except Yaml.Error Yaml.Value) (d : Disk) (root name : Text) :
    Except Error Loaded :=
  let path := Path.clean (Path.join root name)
  let ignored (reason : Text) : Loaded := ⟨none, [.manifestIgnored path reason]⟩
  match d.isFile path with
  | .error r => .error (.refused r)
  | .ok false => .ok ⟨none, [.noManifest name root]⟩
  | .ok true =>
    match d.refusal? .read path with
    | some r => .ok (ignored r.message)
    | none =>
      match (d.tree.read? path).bind Text.ofFile? with
      | none => .ok (ignored "not valid UTF-8")
      | some text =>
        match parse yaml text with
        | .ok manifest => .ok ⟨some manifest, []⟩
        | .error e => if e.isForgiven then .ok (ignored e.message) else .error e

structure Declared where
  packages : List DeclaredPackage
  assets : List Text
  notices : List Notice

def declared (yaml : Text → Except Yaml.Error Yaml.Value) (d : Disk) (cwd root name : Text) :
    Except Error Declared := do
  let loaded ← load yaml d root name
  let manifest := loaded.manifest.getD {}
  let packages ← manifest.writtenPackages
  let assets ← manifest.findAssets d cwd root
  return ⟨packages, assets, loaded.notices⟩

end Deadwood.Manifest
