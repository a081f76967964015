import Deadwood.Settings
import Deadwood.Proofs.Environment
import Deadwood.Proofs.Utf8

/-!
What the settings are and when they are refused. The file of variables must be text, each variable
that it sets must be one that can be set, and the number of workers, if there is one, must be
positive.
-/
namespace Deadwood.Settings

open Deadwood.Environment.File
  (Reader Refused given reached isSome_apply_iff get?_apply apply_eq_self reached_eq_self)

variable {reader : Reader} {env : Environment} {file : Option Bytes} {content : Bytes} {s : Settings}

/-! ### The file of variables -/

def fileValues (reader : Reader) (env : Environment) (file : Option Bytes) :
    List (Text × Option Text) :=
  match file.bind Text.ofFile? with
  | some text => reader.values env text
  | none => []

/-- The value of a variable: the one that it has, or else the one in the file. -/
def effective? (reader : Reader) (env : Environment) (file : Option Bytes) (name : Text) :
    Option Text :=
  env.get? name <|> given (fileValues reader env file) name

def Unreadable (file : Option Bytes) : Prop :=
  ∃ content, file = some content ∧ ¬ Utf8.WellFormed content

theorem isSome_ofFile?_iff : (Text.ofFile? content).isSome ↔ Utf8.WellFormed content := by
  rw [Text.ofFile?, Option.isSome_map, Utf8.isSome_decode?_iff]

theorem ofFile?_eq_none (h : ¬ Utf8.WellFormed content) : Text.ofFile? content = none := by
  rw [← Option.not_isSome_iff_eq_none, isSome_ofFile?_iff]
  exact h

theorem loadFile_of_unreadable (h : Unreadable file) (reader : Reader) (env : Environment) :
    ∃ e, loadFile reader env file = (env, some e) := by
  obtain ⟨content, rfl, hcontent⟩ := h
  obtain ⟨m, hm⟩ := Option.isSome_iff_exists.mp (Utf8.isSome_malformed?_iff.mpr hcontent)
  exact ⟨.malformed m.message, by simp [loadFile, ofFile?_eq_none hcontent, hm]⟩

theorem loadFile_of_not_unreadable (h : ¬ Unreadable file) (reader : Reader) (env : Environment) :
    loadFile reader env file =
      ((Environment.File.apply env (fileValues reader env file)).1,
        (Environment.File.apply env (fileValues reader env file)).2.map .environment) := by
  cases file with
  | none => rfl
  | some content =>
    have hwell : Utf8.WellFormed content :=
      Classical.byContradiction fun hnot => h ⟨content, rfl, hnot⟩
    obtain ⟨text, htext⟩ := Option.isSome_iff_exists.mp (isSome_ofFile?_iff.mpr hwell)
    simp [loadFile, fileValues, htext, Environment.File.load]

theorem loadFile_ne_workers (reader : Reader) (env : Environment) (file : Option Bytes) (raw : Text) :
    (loadFile reader env file).2 ≠ some (.workers raw) := by
  cases file with
  | none => simp [loadFile]
  | some content => cases htext : Text.ofFile? content <;> simp [loadFile, htext]

theorem nodup_fileValues (reader : Reader) (env : Environment) (file : Option Bytes) :
    ((fileValues reader env file).map (·.1)).Nodup := by
  unfold fileValues
  split
  · exact reader.nodup env _
  · exact List.nodup_nil

theorem isSome_loadFile_iff :
    (loadFile reader env file).2.isSome ↔
      Unreadable file ∨ Refused env (fileValues reader env file) := by
  by_cases hfile : Unreadable file
  · obtain ⟨e, he⟩ := loadFile_of_unreadable hfile reader env
    rw [he]
    exact ⟨fun _ => .inl hfile, fun _ => rfl⟩
  · rw [loadFile_of_not_unreadable hfile, Option.isSome_map,
      isSome_apply_iff (nodup_fileValues reader env file)]
    exact ⟨.inr, fun h => h.resolve_left hfile⟩

theorem fileValues_of_unreadable (h : Unreadable file) (reader : Reader) (env : Environment) :
    fileValues reader env file = [] := by
  obtain ⟨content, rfl, hcontent⟩ := h
  simp [fileValues, ofFile?_eq_none hcontent]

def reachedValues (reader : Reader) (env : Environment) (file : Option Bytes) :
    List (Text × Option Text) :=
  reached env (fileValues reader env file)

theorem get?_loadFile (reader : Reader) (env : Environment) (file : Option Bytes) (name : Text) :
    (loadFile reader env file).1.get? name =
      (env.get? name <|> given (reachedValues reader env file) name) := by
  by_cases hfile : Unreadable file
  · obtain ⟨e, he⟩ := loadFile_of_unreadable hfile reader env
    rw [he, reachedValues, fileValues_of_unreadable hfile]
    simp [reached, given]
  · rw [loadFile_of_not_unreadable hfile]
    exact get?_apply (nodup_fileValues reader env file) name

theorem loadFile_eq_self
    (h : ∀ name, env.get? name = none → given (reachedValues reader env file) name = none) :
    (loadFile reader env file).1 = env := by
  by_cases hfile : Unreadable file
  · obtain ⟨e, he⟩ := loadFile_of_unreadable hfile reader env
    rw [he]
  · rw [loadFile_of_not_unreadable hfile]
    exact apply_eq_self (nodup_fileValues reader env file) h

theorem get?_loadFile_of_ok (h : (loadFile reader env file).2 = none) (name : Text) :
    (loadFile reader env file).1.get? name = effective? reader env file name := by
  have hfile : ¬ (Unreadable file ∨ Refused env (fileValues reader env file)) := by
    rw [← isSome_loadFile_iff, h]
    simp
  rw [get?_loadFile, reachedValues, reached_eq_self (fun hrefused => hfile (.inr hrefused)),
    effective?]

/-! ### The number of workers -/

/-- Something is given as the number of workers, but no positive integer. -/
structure InvalidCount (raw : Text) : Prop where
  not_blank : raw.isBlank = false
  not_positive : ∀ n, Text.integer? 10 raw = some n → n < 1

inductive Counts : Option Text → Except Error (Option Int) → Prop
  | unset : Counts none (.ok none)
  | blank {raw : Text} : raw.isBlank = true → Counts (some raw) (.ok none)
  | positive {raw : Text} {n : Int} : raw.isBlank = false → Text.integer? 10 raw = some n →
      1 ≤ n → Counts (some raw) (.ok (some n))
  | invalid {raw : Text} : InvalidCount raw → Counts (some raw) (.error (.workers raw))

theorem counts_readWorkers (env : Environment) :
    Counts (env.get? workersName) (readWorkers env) := by
  unfold readWorkers
  cases env.get? workersName with
  | none => exact .unset
  | some raw =>
    dsimp only
    cases hblank : raw.isBlank with
    | true => exact .blank hblank
    | false =>
      cases hread : Text.integer? 10 raw with
      | none => exact .invalid ⟨hblank, by simp [hread]⟩
      | some n =>
        by_cases hn : n < 1
        · simpa [hn] using Counts.invalid ⟨hblank, by simpa [hread] using hn⟩
        · simpa [hn] using Counts.positive hblank hread (by omega)

theorem Counts.exists_error_iff {raw? : Option Text} {result : Except Error (Option Int)}
    (h : Counts raw? result) :
    (∃ e, result = .error e) ↔ ∃ raw, raw? = some raw ∧ InvalidCount raw := by
  cases h with
  | unset => simp
  | blank hblank =>
    refine ⟨fun ⟨e, he⟩ => (by cases he), ?_⟩
    rintro ⟨_, hraw, hinvalid⟩
    cases hraw
    simp [hinvalid.not_blank] at hblank
  | positive hblank hread hn =>
    refine ⟨fun ⟨e, he⟩ => (by cases he), ?_⟩
    rintro ⟨_, hraw, hinvalid⟩
    cases hraw
    have hlt := hinvalid.not_positive _ hread
    omega
  | invalid hinvalid => exact ⟨fun _ => ⟨_, rfl, hinvalid⟩, fun _ => ⟨_, rfl⟩⟩

theorem Counts.eq_of_error {raw? : Option Text} {e : Error} (h : Counts raw? (.error e)) :
    ∃ raw, e = .workers raw ∧ raw? = some raw ∧ InvalidCount raw := by
  cases h with
  | invalid hinvalid => exact ⟨_, rfl, rfl, hinvalid⟩

theorem exists_readWorkers_error_iff : (∃ e, readWorkers env = .error e) ↔
    ∃ raw, env.get? workersName = some raw ∧ InvalidCount raw :=
  (counts_readWorkers env).exists_error_iff

/-! ### The settings -/

/-- What is wrong with the environment and the file of variables. -/
inductive Faulty (reader : Reader) (env : Environment) (file : Option Bytes) : Prop
  | unreadable : Unreadable file → Faulty reader env file
  | refused : Refused env (fileValues reader env file) → Faulty reader env file
  | workers {raw : Text} : effective? reader env file workersName = some raw → InvalidCount raw →
      Faulty reader env file

theorem mem_readNames {raw callback : Text} : callback ∈ readNames raw ↔
    callback ≠ [] ∧ ∃ part ∈ raw.split ',', part.strip = callback := by
  simp [readNames, and_comm]

/-- What is read from an environment is what values of variables stand for. -/
structure Reports (env : Environment) (value? : Text → Option Text) : Prop where
  codeDir : readCodeDir env = (value? codeDirName).getD "lib"
  manifestName : readManifestName env = (value? manifestVariable).getD "pubspec.yaml"
  workers : Counts (value? workersName) (readWorkers env)
  extraCallbacks : ∀ callback, callback ∈ readExtraCallbacks env ↔
    callback ≠ [] ∧ ∃ part ∈ ((value? extraCallbacksName).getD []).split ',', part.strip = callback

theorem reports_of_get? {value? : Text → Option Text} (h : ∀ name, env.get? name = value? name) :
    Reports env value? where
  codeDir := by rw [readCodeDir, h]
  manifestName := by rw [readManifestName, h]
  workers := h workersName ▸ counts_readWorkers env
  extraCallbacks := by
    intro callback
    rw [readExtraCallbacks, h, mem_readNames]

theorem read_eq_error_iff {e : Error} : read env = .error e ↔ readWorkers env = .error e := by
  unfold read
  cases readWorkers env with
  | error e => simp [bind, Except.bind]
  | ok workers => simp [bind, Except.bind, pure, Except.pure]

theorem exists_load_error_iff :
    (∃ e, (load reader env file).2 = .error e) ↔ Faulty reader env file := by
  unfold load
  rcases hload : loadFile reader env file with ⟨loaded, _ | e⟩
  · have hnone : (loadFile reader env file).2 = none := by rw [hload]
    have hget := get?_loadFile_of_ok hnone
    rw [hload] at hget
    have hfile : ¬ (Unreadable file ∨ Refused env (fileValues reader env file)) := by
      rw [← isSome_loadFile_iff, hnone]
      simp
    simp only [read_eq_error_iff]
    rw [exists_readWorkers_error_iff, hget]
    constructor
    · exact fun ⟨raw, hraw, hcount⟩ => .workers hraw hcount
    · intro h
      cases h with
      | unreadable h => exact absurd (.inl h) hfile
      | refused h => exact absurd (.inr h) hfile
      | workers hraw hcount => exact ⟨_, hraw, hcount⟩
  · have hsome : (loadFile reader env file).2.isSome := by rw [hload]; rfl
    refine ⟨fun _ => ?_, fun _ => ⟨e, rfl⟩⟩
    exact (isSome_loadFile_iff.mp hsome).elim .unreadable .refused

end Deadwood.Settings
