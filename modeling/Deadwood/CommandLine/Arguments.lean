import Deadwood.Decimal.Reading

/-!
The arguments of the command line. Options may stand before and after the path, their values after an
equals sign, as the next argument or, for short options, in the same argument; the last of several
equal options counts. Two dashes end the options.
-/
namespace Deadwood.CommandLine

structure Audit where
  path : Option Text := none
  asJson : Bool := false
  output : Option Text := none
  workers : Option Int := none
  verbose : Bool := false
  deriving DecidableEq, Repr

inductive Command where
  | audit (request : Audit)
  | version
  deriving DecidableEq, Repr

structure Options where
  asJson : Bool := false
  output : Option Text := none
  workers : Option Text := none
  verbose : Bool := false

inductive OptionName where
  | asJson
  | output
  | workers
  | verbose
  deriving DecidableEq

namespace OptionName

def takesValue (o : OptionName) : Bool :=
  o == .output || o == .workers

def ofLong? (name : Text) : Option OptionName :=
  match name.toString? with
  | some "--json" => some .asJson
  | some "--output" => some .output
  | some "--workers" => some .workers
  | some "--verbose" => some .verbose
  | _ => none

def ofShort? (c : CodePoint) : Option OptionName :=
  if c == 'o' then some .output
  else if c == 'w' then some .workers
  else if c == 'v' then some .verbose
  else none

end OptionName

def Options.set (o : Options) : OptionName → Text → Options
  | .asJson, _ => { o with asJson := true }
  | .output, v => { o with output := some v }
  | .workers, v => { o with workers := some v }
  | .verbose, _ => { o with verbose := true }

def dash : CodePoint := '-'

def isOption (arg : Text) : Bool :=
  arg.head? == some dash && 1 < arg.length

def endOfOptions : Text := "--"

def longOption? (arg : Text) (rest : List Text) (o : Options) : Option (Options × Nat) :=
  let (name, value) := arg.breakAt '='
  let hasValue := arg.any (· == '=')
  (OptionName.ofLong? name).bind fun option =>
    if option.takesValue then
      if hasValue then some (o.set option value, 0)
      else rest.head?.map fun next => (o.set option next, 1)
    else if hasValue then none
    else some (o.set option [], 0)

/-- Options by their letters. One that takes a value takes the rest of the argument, or the next
argument if there is none. -/
def shortOptions? (rest : List Text) (o : Options) : Text → Option (Options × Nat)
  | [] => some (o, 0)
  | c :: letters =>
    (OptionName.ofShort? c).bind fun option =>
      if option.takesValue then
        if letters.isEmpty then rest.head?.map fun next => (o.set option next, 1)
        else some (o.set option letters, 0)
      else shortOptions? rest (o.set option []) letters

def readOptions (o : Options) (others args : List Text) : Option (Options × List Text) :=
  match args with
  | [] => some (o, others)
  | arg :: rest =>
    if arg == endOfOptions then some (o, others ++ rest)
    else if isOption arg then
      let read := if endOfOptions.isPrefixOf arg then longOption? arg rest o
        else shortOptions? rest o (arg.drop 1)
      match read with
      | some (o, n) => readOptions o others (rest.drop n)
      | none => none
    else readOptions o (others ++ [arg]) rest
termination_by args.length
decreasing_by
  all_goals simp only [List.length_drop, List.length_cons]; omega

def readCount? : Option Text → Option (Option Int)
  | none => some none
  | some raw => ((Text.integer? 10 raw).filter (1 ≤ ·)).map some

def readAudit? (args : List Text) : Option Audit :=
  (readOptions {} [] args).bind fun (o, others) =>
    (readCount? o.workers).bind fun workers =>
      if 1 < others.length then none
      else some
        { path := others.head?
          asJson := o.asJson
          output := o.output
          workers
          verbose := o.verbose }

def read? (args : List Text) : Option Command :=
  let args := match args with
    | first :: rest => if first == endOfOptions then rest else args
    | [] => []
  match args with
  | [] => none
  | name :: rest =>
    if name == Text.ofString "audit" then (readAudit? rest).map .audit
    else if name == Text.ofString "version" then
      let rest := if rest.head? == some endOfOptions then rest.drop 1 else rest
      if rest.isEmpty then some .version else none
    else none

theorem one_le_of_readCount? {raw : Option Text} {n : Int} (h : readCount? raw = some (some n)) :
    1 ≤ n := by
  cases raw with
  | none => cases h
  | some raw =>
    obtain ⟨m, hm, hmn⟩ := Option.map_eq_some_iff.mp h
    cases hmn
    simpa using (Option.filter_eq_some_iff.mp hm).2

theorem one_le_of_readAudit? {args : List Text} {request : Audit}
    (h : readAudit? args = some request) : ∀ n, request.workers = some n → 1 ≤ n := by
  obtain ⟨⟨o, others⟩, _, hread⟩ := Option.bind_eq_some_iff.mp h
  obtain ⟨workers, hworkers, hread⟩ := Option.bind_eq_some_iff.mp hread
  split at hread
  · cases hread
  · cases hread
    rintro n rfl
    exact one_le_of_readCount? hworkers

theorem exists_readAudit? {args : List Text} {request : Audit}
    (h : read? args = some (.audit request)) : ∃ rest, readAudit? rest = some request := by
  unfold read? at h
  extract_lets given at h
  clear_value given
  cases given with
  | nil => cases h
  | cons name rest =>
    dsimp only at h
    split at h
    · obtain ⟨request', hrequest, heq⟩ := Option.map_eq_some_iff.mp h
      cases heq
      exact ⟨rest, hrequest⟩
    · split at h
      · -- the other command
        split at h <;> split at h <;> cases h
      · cases h

/-- A reader of arguments. A number of workers that it lets pass is positive. -/
structure Reader where
  read? : List Text → Option Command
  one_le_workers : ∀ args request, read? args = some (.audit request) →
    ∀ n, request.workers = some n → 1 ≤ n

def Reader.standard : Reader where
  read? := CommandLine.read?
  one_le_workers := by
    intro args request h
    obtain ⟨rest, hrest⟩ := exists_readAudit? h
    exact one_le_of_readAudit? hrest

end Deadwood.CommandLine
