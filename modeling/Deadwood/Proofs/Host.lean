import Deadwood.Host
import Deadwood.Proofs.Session
import Mathlib.Data.List.DropRight
import Mathlib.Data.List.Induction

/-!
Where the values of variables come from in the course of a run. Each action comes to one event at
most: a variable is set or unset by name, or a file is loaded. A variable has the value that it was
last set to, unless it was unset since. Otherwise it has the value of the first load since then that
gave it one, because a load leaves the variables alone that have a value.
-/
namespace Deadwood.Host

open Deadwood.Environment (Settable setChecked_of_settable exists_error_of_not_settable)
open Deadwood.Environment.File (Reader given)
open Deadwood.Settings (Session reachedValues Reports)

variable {host : Host}

/-! ### Events -/

inductive Event where
  | set (name value : Text)
  | unset (name : Text)
  /-- A file is loaded, with the values of its lines that are carried out. -/
  | load (values : List (Text × Option Text))
  deriving DecidableEq, Repr

namespace Event

def explicit? (name : Text) : Event → Option (Option Text)
  | set other value => if other == name then some (some value) else none
  | unset other => if other == name then some none else none
  | load _ => none

def given? (name : Text) : Event → Option Text
  | load values => given values name
  | _ => none

def update (e : Event) (name : Text) (old : Option Text) : Option Text :=
  match e.explicit? name with
  | some value => value
  | none => old <|> e.given? name

end Event

/-- What the latest event that names a variable has made of it. Variables that are there at the
start count as set. -/
def assigned? (env : Environment) (events : List Event) (name : Text) : Option Text :=
  (events.reverse.findSome? (·.explicit? name)).getD (env.get? name)

/-- The value of a variable from the earliest load that has one for it, since the variable was last
set or unset by name. -/
def loaded? (events : List Event) (name : Text) : Option Text :=
  (events.rtakeWhile fun e => (e.explicit? name).isNone).findSome? (·.given? name)

def value? (env : Environment) (events : List Event) (name : Text) : Option Text :=
  assigned? env events name <|> loaded? events name

theorem value?_nil (env : Environment) (name : Text) : value? env [] name = env.get? name := by
  simp [value?, assigned?, loaded?]

theorem value?_concat (env : Environment) (events : List Event) (e : Event) (name : Text) :
    value? env (events ++ [e]) name = e.update name (value? env events name) := by
  unfold value? assigned? loaded? Event.update
  cases hexplicit : e.explicit? name with
  | some value =>
    rw [List.rtakeWhile_concat_neg _ _ _ (by simp [hexplicit])]
    simp [hexplicit]
  | none =>
    rw [List.rtakeWhile_concat_pos _ _ _ (by simp [hexplicit])]
    simp [hexplicit, List.findSome?_append, Option.or_assoc]

/-! ### What a run does to the variables -/

/-- The event that an action comes to. A file is loaded if settings are asked for and none are in
use. -/
def event? (host : Host) : Action → Option Event
  | .set name value => if Settable name value then some (.set name value) else none
  | .unset name => some (.unset name)
  | .get =>
    if host.isCached then none
    else some (.load (reachedValues host.reader host.environment host.file))
  | .write _ | .delete | .reset => none

def history (host : Host) : List Action → List Event
  | [] => []
  | action :: rest => (host.event? action).toList ++ (host.step action).history rest

theorem run_concat (host : Host) (actions : List Action) (action : Action) :
    host.run (actions ++ [action]) = (host.run actions).step action := by
  simp [run]

theorem history_concat (host : Host) (actions : List Action) (action : Action) :
    host.history (actions ++ [action]) =
      host.history actions ++ ((host.run actions).event? action).toList := by
  induction actions generalizing host with
  | nil => simp [history, run]
  | cons first rest ih =>
    rw [List.cons_append, history, ih, history, List.append_assoc]
    rfl

theorem step_get_of_cached (h : host.isCached = true) : host.step .get = host := by
  rw [step, Session.get_of_kept h]

theorem kept_eq_none (h : host.isCached = false) : host.session.kept = none := by
  simpa [isCached] using h

theorem environment_step_get (h : host.isCached = false) :
    (host.step .get).environment = (Settings.loadFile host.reader host.environment host.file).1 := by
  rw [← Settings.load_fst, step, environment, environment, reader]
  rcases Session.get_of_not_kept (kept_eq_none h) host.file with ⟨_, _, hget⟩ | ⟨_, _, hget⟩ <;>
    rw [hget]

theorem settings_of_cached (h : host.isCached = true) :
    host.settings = Settings.read host.environment := by
  rewrite [settings, Session.get_of_kept h]
  rfl

theorem settings_of_not_cached (h : host.isCached = false) :
    host.settings = (Settings.load host.reader host.environment host.file).2 := by
  unfold settings
  rcases Session.get_of_not_kept (kept_eq_none h) host.file with
    ⟨_, hload, hget⟩ | ⟨_, hload, hget⟩ <;> simpa [hget, environment, reader] using hload.symm

theorem get?_step (host : Host) (action : Action) (name : Text) :
    (host.step action).environment.get? name =
      match host.event? action with
      | none => host.environment.get? name
      | some e => e.update name (host.environment.get? name) := by
  cases action with
  | set other value =>
    by_cases hset : Settable other value
    · have hstep : (host.step (.set other value)).environment =
          host.environment.set other value := by
        rw [step, setChecked_of_settable hset]
        rfl
      rw [hstep, event?, if_pos hset]
      by_cases hname : other = name
      · simp [Event.update, Event.explicit?, hname]
      · simp [Event.update, Event.explicit?, Event.given?, hname,
          Environment.get?_set_of_ne _ _ (Ne.symm hname)]
    · obtain ⟨e, he⟩ := exists_error_of_not_settable hset host.environment
      rw [step, he, event?, if_neg hset]
  | unset other =>
    have hstep : (host.step (.unset other)).environment = host.environment.unset other := rfl
    rw [hstep, event?]
    by_cases hname : other = name
    · simp [Event.update, Event.explicit?, hname]
    · simp [Event.update, Event.explicit?, Event.given?, hname,
        Environment.get?_unset_of_ne _ (Ne.symm hname)]
  | get =>
    cases hcached : host.isCached with
    | true => simp [event?, step_get_of_cached hcached, hcached]
    | false =>
      rw [environment_step_get hcached, Settings.get?_loadFile]
      simp [event?, hcached, Event.update, Event.explicit?, Event.given?]
  | write _ => rfl
  | delete => rfl
  | reset => rfl

theorem get?_step_get {name value : Text} (h : host.environment.get? name = some value) :
    (host.step .get).environment.get? name = some value := by
  cases hcached : host.isCached with
  | true => rw [step_get_of_cached hcached, h]
  | false =>
    rewrite [environment_step_get hcached, Settings.get?_loadFile, h]
    rfl

theorem reader_step (host : Host) (action : Action) : (host.step action).reader = host.reader := by
  cases action with
  | set name value =>
    unfold step
    dsimp only
    split <;> rfl
  | get =>
    cases hcached : host.isCached with
    | true => rw [step_get_of_cached hcached]
    | false =>
      rw [step, reader, reader]
      rcases Session.get_of_not_kept (kept_eq_none hcached) host.file with
        ⟨_, _, hget⟩ | ⟨_, _, hget⟩ <;> rw [hget]
  | _ => rfl

theorem reader_run (host : Host) (actions : List Action) :
    (host.run actions).reader = host.reader := by
  induction actions generalizing host with
  | nil => rfl
  | cons action rest ih => exact (ih (host.step action)).trans (reader_step host action)

theorem get?_run (reader : Reader) (env : Environment) (file : Option Bytes)
    (actions : List Action) (name : Text) :
    ((start reader env file).run actions).environment.get? name =
      value? env ((start reader env file).history actions) name := by
  -- From the end: what the last action comes to is the latest event of the history.
  induction actions using List.reverseRecOn with
  | nil => exact (value?_nil env name).symm
  | append_singleton actions action ih =>
    rw [run_concat, get?_step, history_concat, ih]
    cases ((start reader env file).run actions).event? action with
    | none => simp
    | some e => exact (value?_concat env _ e name).symm

/-- The first file fails and its count is unset, so the second one gives the count; the directory
stays that of the first. -/
example :
    let first := Utf8.encode "DART_JANITOR_WORKERS=0\nDART_JANITOR_CODE_DIR=a\n"
    let second := Utf8.encode "DART_JANITOR_WORKERS=2\nDART_JANITOR_CODE_DIR=b\n"
    let actions := [.get, .write second, .get, .unset Settings.workersName, .get]
    ((start .standard {} (some first)).run actions).settings = .ok
      { codeDir := "a"
        manifestName := "pubspec.yaml"
        workers := some 2
        extraCallbacks := [] } := by
  decide +kernel

/-! ### Which settings are in use -/

/-- Settings were asked for and given, and were not dropped since. -/
def Cached (host : Host) (actions : List Action) : Prop :=
  ∃ before after s, actions = before ++ .get :: after ∧ .reset ∉ after ∧
    (host.run before).settings = .ok s

theorem isCached_step_iff (host : Host) (action : Action) : (host.step action).isCached = true ↔
    (action = .get ∧ ∃ s, host.settings = .ok s) ∨ (action ≠ .reset ∧ host.isCached = true) := by
  cases action with
  | set name value =>
    have hstep : (host.step (.set name value)).isCached = host.isCached := by
      unfold step
      dsimp only
      split <;> rfl
    simp [hstep]
  | unset name => simp [step, isCached, withEnvironment]
  | write content => simp [step, isCached]
  | delete => simp [step, isCached]
  | get =>
    cases hcached : host.isCached with
    | true => simp [step_get_of_cached hcached, hcached]
    | false =>
      rcases Session.get_of_not_kept (kept_eq_none hcached) host.file with
        ⟨s, _, hget⟩ | ⟨e, _, hget⟩
      · simp [step, isCached, settings, hget]
      · simp [step, settings, hget, isCached, kept_eq_none hcached]
  | reset => simp [step, isCached, Session.reset]

theorem cached_concat_iff (host : Host) (actions : List Action) (action : Action) :
    Cached host (actions ++ [action]) ↔
      (action = .get ∧ ∃ s, (host.run actions).settings = .ok s) ∨
      (action ≠ .reset ∧ Cached host actions) := by
  constructor
  · rintro ⟨before, after, s, heq, hreset, hs⟩
    -- The request that was granted is the new action or comes before it.
    rcases List.eq_nil_or_concat' after with rfl | ⟨later, last, rfl⟩
    · obtain ⟨rfl, hlast⟩ := List.append_inj' heq rfl
      exact .inl ⟨List.singleton_inj.mp hlast, s, hs⟩
    · rw [← List.cons_append, ← List.append_assoc] at heq
      obtain ⟨rfl, hlast⟩ := List.append_inj' heq rfl
      rw [List.mem_append, not_or, ← hlast, List.mem_singleton] at hreset
      exact .inr ⟨Ne.symm hreset.2, before, later, s, rfl, hreset.1, hs⟩
  · rintro (⟨rfl, s, hs⟩ | ⟨hreset, before, after, s, rfl, hafter, hs⟩)
    · exact ⟨actions, [], s, rfl, List.not_mem_nil, hs⟩
    · refine ⟨before, after ++ [action], s, by simp, ?_, hs⟩
      rw [List.mem_append, not_or, List.mem_singleton]
      exact ⟨hafter, Ne.symm hreset⟩

theorem isCached_run_iff (reader : Reader) (env : Environment) (file : Option Bytes)
    (actions : List Action) :
    ((start reader env file).run actions).isCached = true ↔ Cached (start reader env file) actions := by
  induction actions using List.reverseRecOn with
  | nil => simp [Cached, run, start, isCached]
  | append_singleton actions action ih =>
    rw [run_concat, isCached_step_iff, cached_concat_iff, ih]

/-- Settings are in use exactly from a request that is granted until they are dropped, and the file
is loaded exactly at the requests that find none in use. At every point the variables, and with them
the settings that are read from them, have the values that the history gives them; a load never
replaces a value. -/
theorem settings_in_a_run (reader : Reader) (env : Environment) (file : Option Bytes)
    (actions : List Action) :
    let host := (start reader env file).run actions
    let values := value? env ((start reader env file).history actions)
    (host.isCached = true ↔ Cached (start reader env file) actions) ∧
    (host.isCached = true →
      host.step .get = host ∧ host.settings = Settings.read host.environment) ∧
    (host.isCached = false →
      (host.step .get).environment = (Settings.loadFile reader host.environment host.file).1 ∧
      host.settings = (Settings.load reader host.environment host.file).2) ∧
    (∀ name, host.environment.get? name = values name) ∧
    (∀ name value, host.environment.get? name = some value →
      (host.step .get).environment.get? name = some value) ∧
    Reports host.environment values := by
  intro host values
  have hvalues : ∀ name, host.environment.get? name = values name := get?_run reader env file actions
  refine ⟨isCached_run_iff reader env file actions, ?_, ?_, hvalues, ?_,
    Settings.reports_of_get? hvalues⟩
  · intro hcached
    exact ⟨step_get_of_cached hcached, settings_of_cached hcached⟩
  · intro hcached
    have hreader : host.reader = reader := reader_run (start reader env file) actions
    rw [← hreader]
    exact ⟨environment_step_get hcached, settings_of_not_cached hcached⟩
  · intro name value hvalue
    exact get?_step_get hvalue

end Deadwood.Host
