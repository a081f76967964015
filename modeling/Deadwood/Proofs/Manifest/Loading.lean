import Deadwood.Manifest.Loading
import Deadwood.Proofs.SourceFiles

/-!
Loading the manifest gives what its text parses to, and nothing if there is no text or it makes no
sense. Three things stand in the way: the operating system does not say whether there is a manifest,
the loader of documents fails in another way than by finding the document malformed, or a path is a
number that cannot be written out.
-/
namespace Deadwood

namespace Manifest

variable {yaml : Text → Except Yaml.Error Yaml.Value} {d : Disk} {root name : Text} {e : Error}

inductive Parsed (yaml : Text → Except Yaml.Error Yaml.Value) (text : Text) :
    Except Error Manifest → Prop
  | failed {e : Yaml.Error} (hyaml : yaml text = .error e) : Parsed yaml text (.error (.yaml e))
  | shapeless {data : Yaml.Value} (hyaml : yaml text = .ok data) (hmapping : data.isMapping = false) :
      Parsed yaml text (.error (.notAMapping data.kindName))
  | digits {data : Yaml.Value} (hyaml : yaml text = .ok data) (hmapping : data.isMapping = true)
      (hwritable : (Sections.ofValue data).isWritable = false) : Parsed yaml text (.error .digits)
  | manifest {data : Yaml.Value} (hyaml : yaml text = .ok data) (hmapping : data.isMapping = true)
      (hwritable : (Sections.ofValue data).isWritable = true) :
      Parsed yaml text (.ok ((Sections.ofValue data).manifest text))

theorem parsed_parse (yaml : Text → Except Yaml.Error Yaml.Value) (text : Text) :
    Parsed yaml text (parse yaml text) := by
  unfold parse
  cases hyaml : yaml text with
  | error e => exact .failed hyaml
  | ok data =>
    cases hmapping : data.isMapping with
    | false =>
      simp only [hmapping]
      exact .shapeless hyaml hmapping
    | true =>
      cases hwritable : (Sections.ofValue data).isWritable with
      | false =>
        simp only [hmapping, hwritable]
        exact .digits hyaml hmapping hwritable
      | true =>
        simp only [hmapping, hwritable]
        exact .manifest hyaml hmapping hwritable

def location (root name : Text) : Text :=
  Path.clean (Path.join root name)

def source? (d : Disk) (root name : Text) : Option Text :=
  (d.read? (location root name)).bind Text.ofFile?

def manifest? (yaml : Text → Except Yaml.Error Yaml.Value) (d : Disk) (root name : Text) :
    Option Manifest :=
  (source? d root name).bind fun text => (parse yaml text).toOption

/-- What keeps a manifest from being read or passed over. -/
inductive Unloadable (yaml : Text → Except Yaml.Error Yaml.Value) (d : Disk) (root name : Text) :
    Error → Prop
  | refused {r : Disk.Refusal} : d.refusal? .look (location root name) = some r →
      Unloadable yaml d root name (.refused r)
  | document {text : Text} {e : Yaml.Error} : d.refusal? .look (location root name) = none →
      source? d root name = some text → yaml text = .error e → e ≠ .malformed →
      Unloadable yaml d root name (.yaml e)
  | digits {text : Text} {data : Yaml.Value} : d.refusal? .look (location root name) = none →
      source? d root name = some text → yaml text = .ok data → data.isMapping →
      (Sections.ofValue data).isWritable = false → Unloadable yaml d root name .digits

theorem unloadable_iff_of_look {r : Disk.Refusal}
    (hlook : d.refusal? .look (location root name) = some r) :
    Unloadable yaml d root name e ↔ e = .refused r := by
  constructor
  · rintro (h | ⟨h, _⟩ | ⟨h, _⟩)
    · exact congrArg Error.refused (Option.some.inj (h.symm.trans hlook))
    all_goals
      rw [hlook] at h
      cases h
  · rintro rfl
    exact .refused hlook

theorem not_unloadable_of_source?_none (hlook : d.refusal? .look (location root name) = none)
    (hsource : source? d root name = none) : ¬ Unloadable yaml d root name e := by
  rintro (h | ⟨_, h, _⟩ | ⟨_, h, _⟩)
  · rw [hlook] at h
    cases h
  all_goals
    rw [hsource] at h
    cases h

theorem unloadable_iff_of_source? {text : Text} (hlook : d.refusal? .look (location root name) = none)
    (hsource : source? d root name = some text) :
    Unloadable yaml d root name e ↔ parse yaml text = .error e ∧ e.isForgiven = false := by
  constructor
  · rintro (h | @⟨_, e', _, h, hyaml, hne⟩ | ⟨_, h, hyaml, hmapping, hwritable⟩)
    · rw [hlook] at h
      cases h
    · rw [hsource] at h
      cases h
      cases e' with
      | malformed => exact absurd rfl hne
      | _ => simp [parse, hyaml, Error.isForgiven]
    · rw [hsource] at h
      cases h
      simp [parse, hyaml, hmapping, hwritable, Error.isForgiven]
  · rintro ⟨hparse, hforgiven⟩
    have hparsed := parsed_parse yaml text
    rw [hparse] at hparsed
    cases hparsed with
    | failed hyaml =>
      refine .document hlook hsource hyaml ?_
      rintro rfl
      cases hforgiven
    | shapeless => cases hforgiven
    | digits hyaml hmapping hwritable => exact .digits hlook hsource hyaml hmapping hwritable

theorem load_of_source? {text : Text} (hlook : d.refusal? .look (location root name) = none)
    (hsource : source? d root name = some text) :
    load yaml d root name =
      match parse yaml text with
      | .ok manifest => .ok ⟨some manifest, []⟩
      | .error e =>
        if e.isForgiven then .ok ⟨none, [.manifestIgnored (location root name) e.message]⟩
        else .error e := by
  obtain ⟨content, hread, htext⟩ := Option.bind_eq_some_iff.mp hsource
  unfold Disk.read? at hread
  split at hread
  · next hallows =>
    have hfile : d.tree.hasFile (location root name) = true := by
      rw [← FileTree.isSome_read?, hread]
      rfl
    have hunrefused : d.refusal? .read (location root name) = none :=
      Option.isNone_iff_eq_none.mp hallows
    unfold location at *
    cases hparse : parse yaml text <;>
      simp only [load, Disk.isFile, hlook, hfile, hunrefused, hread, Option.bind_some, htext, hparse]
  · cases hread

theorem load_of_source?_none (yaml : Text → Except Yaml.Error Yaml.Value)
    (hlook : d.refusal? .look (location root name) = none) (hsource : source? d root name = none) :
    ∃ notices, load yaml d root name = .ok ⟨none, notices⟩ := by
  unfold source? Disk.read? Disk.allows at hsource
  unfold location at *
  simp only [load, Disk.isFile, hlook]
  cases hfile : d.tree.hasFile (Path.clean (Path.join root name)) with
  | false => exact ⟨_, rfl⟩
  | true =>
    cases hrefused : d.refusal? .read (Path.clean (Path.join root name)) with
    | some r => exact ⟨_, rfl⟩
    | none =>
      simp only [hrefused, Option.isNone_none, if_true] at hsource
      simp only [hsource]
      exact ⟨_, rfl⟩

theorem load_eq_error_iff : load yaml d root name = .error e ↔ Unloadable yaml d root name e := by
  cases hlook : d.refusal? .look (location root name) with
  | some r =>
    have hload : load yaml d root name = .error (.refused r) := by
      unfold location at hlook
      simp only [load, Disk.isFile, hlook]
    rw [hload, unloadable_iff_of_look hlook, Except.error.injEq, eq_comm]
  | none =>
    cases hsource : source? d root name with
    | none =>
      obtain ⟨notices, hload⟩ := load_of_source?_none yaml hlook hsource
      simp [hload, not_unloadable_of_source?_none hlook hsource]
    | some text =>
      rw [load_of_source? hlook hsource, unloadable_iff_of_source? hlook hsource]
      cases parse yaml text with
      | ok manifest => simp
      | error e' =>
        simp only [Except.error.injEq]
        split
        · next hforgiven =>
          simp only [reduceCtorEq, false_iff, not_and]
          rintro rfl
          simp [hforgiven]
        · next hforgiven =>
          simp only [Except.error.injEq, iff_self_and]
          rintro rfl
          simpa using hforgiven

theorem exists_load_iff :
    (∃ loaded, load yaml d root name = .ok loaded) ↔ ∀ e, ¬ Unloadable yaml d root name e := by
  simp only [← load_eq_error_iff]
  cases load yaml d root name <;> simp

theorem manifest_of_load {loaded : Loaded} (h : load yaml d root name = .ok loaded) :
    loaded.manifest = manifest? yaml d root name := by
  have hlook : d.refusal? .look (location root name) = none := by
    refine Option.eq_none_iff_forall_not_mem.mpr fun r hr => ?_
    exact exists_load_iff.mp ⟨loaded, h⟩ _ (.refused hr)
  unfold manifest?
  cases hsource : source? d root name with
  | none =>
    obtain ⟨notices, hload⟩ := load_of_source?_none yaml hlook hsource
    rw [hload] at h
    cases h
    rfl
  | some text =>
    rw [load_of_source? hlook hsource] at h
    rw [Option.bind_some]
    cases hparse : parse yaml text with
    | ok manifest =>
      rw [hparse] at h
      cases h
      rfl
    | error e =>
      rw [hparse] at h
      dsimp only at h
      split at h <;> cases h
      rfl

/-! ### Names of packages and files of assets -/

variable {cwd : Text} {m : Manifest}

/-- The name of a package is a number that cannot be written out. -/
def Illegible (m : Manifest) : Prop :=
  ∃ entry ∈ m.dependencies ++ m.devDependencies, entry.1.isWritable = false

theorem writtenPackages_of_illegible (h : m.Illegible) : m.writtenPackages = .error .digits := by
  obtain ⟨entry, hentry, hlong⟩ := h
  rw [writtenPackages, if_neg]
  intro hall
  have hwritable : entry.1.isWritable := List.all_eq_true.mp hall entry hentry
  rw [hlong] at hwritable
  cases hwritable

theorem writtenPackages_of_not_illegible (h : ¬ m.Illegible) :
    m.writtenPackages = .ok m.declaredPackages := by
  rw [writtenPackages, if_pos]
  apply List.all_eq_true.mpr
  rintro ⟨key, v⟩ hentry
  cases hwritable : key.isWritable with
  | true => exact hwritable
  | false => exact absurd ⟨_, hentry, hwritable⟩ h

/-- What is turned down while the files of the entries are looked for. -/
def Denied (d : Disk) (cwd root : Text) (m : Manifest) (r : Disk.Refusal) : Prop :=
  ∃ entry ∈ m.assets, ∃ request path, (request, path) ∈ requests d.tree cwd root entry ∧
    d.refusal? request path = some r

theorem exists_firstRefusal?_of_denied {r : Disk.Refusal} (h : m.Denied d cwd root r) :
    ∃ r', d.firstRefusal? (m.assets.flatMap (requests d.tree cwd root)) = some r' := by
  obtain ⟨entry, hentry, request, path, hrequest, hrefused⟩ := h
  apply Option.isSome_iff_exists.mp
  apply List.findSome?_isSome_iff.mpr
  exact ⟨(request, path), List.mem_flatMap.mpr ⟨entry, hentry, hrequest⟩, by simp [hrefused]⟩

theorem denied_of_firstRefusal? {r : Disk.Refusal}
    (h : d.firstRefusal? (m.assets.flatMap (requests d.tree cwd root)) = some r) :
    m.Denied d cwd root r := by
  obtain ⟨⟨request, path⟩, hrequest, hrefused⟩ := List.exists_of_findSome?_eq_some h
  obtain ⟨entry, hentry, hmem⟩ := List.mem_flatMap.mp hrequest
  exact ⟨entry, hentry, request, path, hmem, hrefused⟩

theorem findAssets_cases (d : Disk) (cwd root : Text) (m : Manifest) :
    (∃ r, m.Denied d cwd root r ∧ findAssets d cwd root m = .error (.refused r)) ∨
      (∀ r, ¬ m.Denied d cwd root r) ∧
        findAssets d cwd root m = .ok (m.declaredAssets d.tree cwd root) := by
  unfold findAssets
  cases hfirst : d.firstRefusal? (m.assets.flatMap (requests d.tree cwd root)) with
  | some r => exact .inl ⟨r, denied_of_firstRefusal? hfirst, rfl⟩
  | none =>
    refine .inr ⟨fun r hr => ?_, rfl⟩
    obtain ⟨r', hr'⟩ := exists_firstRefusal?_of_denied hr
    rw [hfirst] at hr'
    cases hr'

/-! ### What a project declares -/

/-- What keeps the packages and the assets of a project from being known. -/
inductive Obstacle (yaml : Text → Except Yaml.Error Yaml.Value) (d : Disk) (cwd root name : Text) :
    Error → Prop
  | manifest {e : Error} : Unloadable yaml d root name e → Obstacle yaml d cwd root name e
  | package {m : Manifest} : manifest? yaml d root name = some m → m.Illegible →
      Obstacle yaml d cwd root name .digits
  | asset {m : Manifest} {r : Disk.Refusal} : manifest? yaml d root name = some m →
      m.Denied d cwd root r → Obstacle yaml d cwd root name (.refused r)

theorem exists_of_illegible {o : Option Manifest} (h : (o.getD {}).Illegible) :
    ∃ m, o = some m ∧ m.Illegible := by
  cases o with
  | some m => exact ⟨m, rfl, h⟩
  | none =>
    obtain ⟨_, hentry, _⟩ := h
    cases hentry

theorem exists_of_denied {o : Option Manifest} {r : Disk.Refusal}
    (h : (o.getD {}).Denied d cwd root r) : ∃ m, o = some m ∧ m.Denied d cwd root r := by
  cases o with
  | some m => exact ⟨m, rfl, h⟩
  | none =>
    obtain ⟨_, hentry, _⟩ := h
    cases hentry

/-- Either something is in the way, and is what is reported, or all that is declared is known. -/
theorem declared_cases (yaml : Text → Except Yaml.Error Yaml.Value) (d : Disk)
    (cwd root name : Text) :
    (∃ e, Obstacle yaml d cwd root name e ∧ declared yaml d cwd root name = .error e) ∨
      (∀ e, ¬ Obstacle yaml d cwd root name e) ∧
        ∃ notices, declared yaml d cwd root name =
          .ok ⟨((manifest? yaml d root name).getD {}).declaredPackages,
            ((manifest? yaml d root name).getD {}).declaredAssets d.tree cwd root, notices⟩ := by
  unfold declared
  cases hload : load yaml d root name with
  | error e => exact .inl ⟨e, .manifest (load_eq_error_iff.mp hload), rfl⟩
  | ok loaded =>
    simp only [bind, Except.bind, manifest_of_load hload]
    by_cases hillegible : ((manifest? yaml d root name).getD {}).Illegible
    · obtain ⟨m, hm, hlong⟩ := exists_of_illegible hillegible
      rw [writtenPackages_of_illegible hillegible]
      exact .inl ⟨.digits, .package hm hlong, rfl⟩
    · rw [writtenPackages_of_not_illegible hillegible]
      rcases findAssets_cases d cwd root ((manifest? yaml d root name).getD {}) with
        ⟨r, hdenied, hassets⟩ | ⟨hfree, hassets⟩
      · obtain ⟨m, hm, hr⟩ := exists_of_denied hdenied
        simp only [hassets]
        exact .inl ⟨.refused r, .asset hm hr, rfl⟩
      · simp only [hassets]
        refine .inr ⟨?_, loaded.notices, rfl⟩
        rintro e (hunloadable | ⟨hm, hlong⟩ | ⟨hm, hr⟩)
        · exact exists_load_iff.mp ⟨loaded, hload⟩ e hunloadable
        · exact hillegible (by rwa [hm])
        · exact hfree _ (by rwa [hm])

end Manifest

end Deadwood
