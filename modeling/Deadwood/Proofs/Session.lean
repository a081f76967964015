import Deadwood.Proofs.Settings
import Mathlib.Control.Monad.Basic

/-!
What asking for settings does to a session. Settings in use are read again and nothing is loaded.
Otherwise the file of variables is loaded first and the settings are read after that, so that a
failure keeps the variables that were loaded, and a later file does not replace them.
-/
namespace Deadwood.Settings

open Deadwood.Environment.File (Reader given)

variable {reader : Reader} {env : Environment} {file : Option Bytes} {t : Settings} {e : Error}

/-! ### Loading -/

theorem load_fst (reader : Reader) (env : Environment) (file : Option Bytes) :
    (load reader env file).1 = (loadFile reader env file).1 := by
  unfold load
  rcases loadFile reader env file with ⟨loaded, _ | _⟩ <;> rfl

theorem read_of_load (h : (load reader env file).2 = .ok t) :
    (loadFile reader env file).2 = none ∧ read (load reader env file).1 = .ok t := by
  unfold load at h ⊢
  rcases hload : loadFile reader env file with ⟨loaded, _ | e⟩ <;> rw [hload] at h
  · exact ⟨rfl, h⟩
  · cases h

theorem reports_of_load (h : (load reader env file).2 = .ok t) :
    Reports (load reader env file).1 (effective? reader env file) := by
  apply reports_of_get?
  intro name
  rw [load_fst]
  exact get?_loadFile_of_ok (read_of_load h).1 name

theorem exists_load_ok_iff : (∃ t, (load reader env file).2 = .ok t) ↔ ¬ Faulty reader env file := by
  rw [← exists_load_error_iff]
  cases (load reader env file).2 with
  | error e => simp
  | ok t => simp

theorem get?_of_load_workers {raw : Text} (h : (load reader env file).2 = .error (.workers raw)) :
    (load reader env file).1.get? workersName = some raw ∧ InvalidCount raw := by
  unfold load at h ⊢
  rcases hload : loadFile reader env file with ⟨loaded, _ | e⟩ <;> rw [hload] at h
  · have hread : readWorkers loaded = .error (.workers raw) := read_eq_error_iff.mp h
    obtain ⟨_, heq, hraw⟩ := (hread ▸ counts_readWorkers loaded).eq_of_error
    cases heq
    exact hraw
  · cases h
    exact absurd (congrArg Prod.snd hload) (loadFile_ne_workers reader env file raw)

namespace Session

variable {s after : Session}

theorem get_of_kept (h : s.kept.isSome) (file : Option Bytes) :
    s.get file = (s, read s.environment) := by
  obtain ⟨n, hn⟩ := Option.isSome_iff_exists.mp h
  simp [get, hn]

theorem get_of_not_kept (h : s.kept = none) (file : Option Bytes) :
    (∃ t, (load s.reader s.environment file).2 = .ok t ∧
      s.get file =
        ({ s with
            environment := (load s.reader s.environment file).1
            kept := some s.opened
            opened := s.opened + 1 }, .ok t)) ∨
    (∃ e, (load s.reader s.environment file).2 = .error e ∧
      s.get file = ({ s with environment := (load s.reader s.environment file).1 }, .error e)) := by
  unfold get
  rw [h]
  rcases load s.reader s.environment file with ⟨loaded, e | t⟩
  · exact .inr ⟨e, rfl, rfl⟩
  · exact .inl ⟨t, rfl, rfl⟩

/-- Settings are asked for while none are in use, or some are opened apart from those in use, and
that fails. With settings in use, asking for them opens nothing that could fail. -/
inductive Fails (s : Session) (file : Option Bytes) (e : Error) : Session → Prop
  | get : s.kept = none → (s.get file).2 = .error e → Fails s file e (s.get file).1
  | openApart : (s.openApart file).2 = .error e → Fails s file e (s.openApart file).1

theorem Fails.load_eq (h : Fails s file e after) : (load s.reader s.environment file).2 = .error e ∧
    after = { s with environment := (load s.reader s.environment file).1 } := by
  cases h with
  | get hkept herror =>
    rcases get_of_not_kept hkept file with ⟨t, _, hget⟩ | ⟨e', hload, hget⟩
    · rw [hget] at herror
      cases herror
    · rw [hget] at herror ⊢
      cases herror
      exact ⟨hload, rfl⟩
  | openApart herror => exact ⟨herror, rfl⟩

theorem Fails.get?_after (h : Fails s file e after) (name : Text) :
    after.environment.get? name =
      (s.environment.get? name <|> given (reachedValues s.reader s.environment file) name) := by
  obtain ⟨_, rfl⟩ := h.load_eq
  dsimp only
  rw [load_fst, get?_loadFile]

theorem Fails.eq_self_iff (h : Fails s file e after) : after = s ↔
    ∀ name, s.environment.get? name = none →
      given (reachedValues s.reader s.environment file) name = none := by
  constructor
  · rintro rfl name hunset
    simpa [hunset] using (h.get?_after name).symm
  · intro hnone
    obtain ⟨_, rfl⟩ := h.load_eq
    rw [load_fst, loadFile_eq_self hnone]

theorem exists_get_ok_iff (h : s.kept = none) :
    (∃ t, (s.get file).2 = .ok t) ↔ ¬ Faulty s.reader s.environment file := by
  rw [← exists_load_ok_iff]
  rcases get_of_not_kept h file with ⟨t, hload, hget⟩ | ⟨e, hload, hget⟩ <;> simp [hload, hget]

theorem reports_of_get (h : s.kept = none) (hok : (s.get file).2 = .ok t) :
    read (s.get file).1.environment = .ok t ∧
    Reports (s.get file).1.environment (effective? s.reader s.environment file) := by
  rcases get_of_not_kept h file with ⟨t', hload, hget⟩ | ⟨e, hload, hget⟩
  · rw [hget] at hok ⊢
    cases hok
    exact ⟨(read_of_load hload).2, reports_of_load hload⟩
  · rw [hget] at hok
    cases hok

/-- No file mends a number of workers that was refused: the variable has a value now. -/
theorem Fails.faulty_of_workers {raw : Text} (h : Fails s file (.workers raw) after)
    (corrected : Option Bytes) : Faulty after.reader after.environment corrected := by
  obtain ⟨hload, rfl⟩ := h.load_eq
  obtain ⟨hraw, hinvalid⟩ := get?_of_load_workers hload
  refine .workers ?_ hinvalid
  rewrite [effective?, hraw]
  rfl

/-- A failure keeps the settings in use and the variables that were set. Those that the file has set
by then stay too, and no other file replaces them. -/
theorem failure_keeps_loaded_variables (h : Fails s file e after) :
    after.kept = s.kept ∧ after.opened = s.opened ∧
    (∀ name, after.environment.get? name =
      (s.environment.get? name <|> given (reachedValues s.reader s.environment file) name)) ∧
    (after = s ↔ ∀ name, s.environment.get? name = none →
      given (reachedValues s.reader s.environment file) name = none) ∧
    (s.kept = none → ∀ corrected,
      ((∃ t, (after.get corrected).2 = .ok t) ↔ ¬ Faulty after.reader after.environment corrected) ∧
      (∀ t, (after.get corrected).2 = .ok t →
        read (after.get corrected).1.environment = .ok t ∧
        Reports (after.get corrected).1.environment
          (effective? after.reader after.environment corrected)) ∧
      (∀ raw, e = .workers raw → ∃ e', (after.get corrected).2 = .error e')) := by
  obtain ⟨_, hafter⟩ := h.load_eq
  have hkept : after.kept = s.kept := by rw [hafter]
  refine ⟨hkept, by rw [hafter], h.get?_after, h.eq_self_iff, ?_⟩
  intro hnone corrected
  rw [← hkept] at hnone
  refine ⟨exists_get_ok_iff hnone, fun t hok => reports_of_get hnone hok, ?_⟩
  rintro raw rfl
  cases hnext : (after.get corrected).2 with
  | error e => exact ⟨e, rfl⟩
  | ok t => exact absurd (h.faulty_of_workers corrected) ((exists_get_ok_iff hnone).mp ⟨t, hnext⟩)

/-! A number of workers that is not positive, and a file that gives another one. -/

def zeroWorkers : Bytes := Utf8.encode "DART_JANITOR_WORKERS=0\n"

def twoWorkers : Bytes := Utf8.encode "DART_JANITOR_WORKERS=2\n"

theorem fails_zeroWorkers :
    Fails {} (some zeroWorkers) (.workers "0") (get {} (some zeroWorkers)).1 :=
  .get rfl (by decide +kernel)

theorem failure_keeps_loaded_variables_zeroWorkers :
    Fails {} (some zeroWorkers) (.workers "0") (get {} (some zeroWorkers)).1 ∧
    (get {} (some zeroWorkers)).1.kept = none ∧
    (get {} (some zeroWorkers)).1.environment.get? workersName = some (Text.ofString "0") ∧
    ∃ e, ((get {} (some zeroWorkers)).1.get (some twoWorkers)).2 = .error e := by
  obtain ⟨hkept, _, hget, _, hnext⟩ := failure_keeps_loaded_variables fails_zeroWorkers
  have hgiven : given (reachedValues .standard {} (some zeroWorkers)) workersName =
      some (Text.ofString "0") := by
    decide +kernel
  refine ⟨fails_zeroWorkers, hkept, ?_, (hnext rfl _).2.2 _ rfl⟩
  rewrite [hget, hgiven]
  rfl

/-- A failure can leave a variable behind that was not set before, and with it the settings fail
again though the file is in order by then. -/
theorem exists_failure_with_trace :
    Fails {} (some zeroWorkers) (.workers "0") (get {} (some zeroWorkers)).1 ∧
    (get {} (some zeroWorkers)).1.environment.get? workersName ≠
      ({} : Session).environment.get? workersName ∧
    (get {} (some twoWorkers)).2 = .ok
      { codeDir := "lib"
        manifestName := "pubspec.yaml"
        workers := some 2
        extraCallbacks := [] } ∧
    ∀ t, ((get {} (some zeroWorkers)).1.get (some twoWorkers)).2 ≠ .ok t := by
  have hleft : (get {} (some zeroWorkers)).1.environment.get? workersName =
      some (Text.ofString "0") := by
    decide +kernel
  have hagain : ((get {} (some zeroWorkers)).1.get (some twoWorkers)).2 =
      .error (.workers "0") := by
    decide +kernel
  refine ⟨fails_zeroWorkers, ?_, by decide +kernel, ?_⟩
  · rw [hleft]
    exact Option.some_ne_none _
  · intro t ht
    rw [hagain] at ht
    cases ht

end Session

end Deadwood.Settings
