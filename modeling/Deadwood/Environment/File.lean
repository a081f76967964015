import Deadwood.Environment.Basic
import Deadwood.Text.Blank

/-!
Files of environment variables. A line gives a name and, after an equals sign, a value, which may be
quoted and may then span lines. A line that cannot be read is skipped. Values may refer to other
variables.
-/
namespace Deadwood.Environment.File

def isGap (c : CodePoint) : Bool :=
  c.isBlank && !c.isNewline

structure Binding where
  name : Text
  value : Option Text
  deriving DecidableEq, Repr

def dropExport (t : Text) : Text :=
  match (Text.ofString "export").isPrefixOf? t with
  | some rest => if rest.head?.any isGap then rest.dropWhile isGap else t
  | none => t

def isNamePart (c : CodePoint) : Bool :=
  !(c == '=' || c == '#' || c.isBlank)

def name (t : Text) : Except Text (Option Text × Text) :=
  match t with
  | [] => .error t
  | c :: rest =>
    if c == '#' then .ok (none, t)
    else if c == '\'' then
      let quoted := rest.takeWhile fun c : CodePoint => c != '\''
      if quoted.isEmpty || quoted.length == rest.length then .error t
      else .ok (some quoted, rest.drop (quoted.length + 1))
    else
      let run := t.takeWhile isNamePart
      if run.isEmpty then .error t else .ok (some run, t.drop run.length)

/-- The place of the quote that closes a value. A quote after a backslash closes it only if there is
no other after it. -/
def closingQuote? (quote : CodePoint) (place : Nat) (escaped : Option Nat) : Text → Option Nat
  | [] => escaped
  | c :: rest =>
    if c == quote then some place
    else
      match rest with
      | [] => escaped
      | d :: rest' =>
        if c == '\\' && d == quote then closingQuote? quote (place + 2) (some (place + 1)) rest'
        else closingQuote? quote (place + 1) escaped (d :: rest')

def escaped? (quote c : CodePoint) : Option CodePoint :=
  if c == '\\' || c == '\'' then some c
  else if quote == '\'' then none
  else
    match c.toChar? with
    | some '"' => some '"'
    | some 'a' => some 0x07
    | some 'b' => some 0x08
    | some 'f' => some 0x0C
    | some 'n' => some 0x0A
    | some 'r' => some 0x0D
    | some 't' => some 0x09
    | some 'v' => some 0x0B
    | _ => none

def unescape (quote : CodePoint) : Text → Text
  | [] => []
  | [c] => [c]
  | c :: d :: rest =>
    if c == '\\' then
      match escaped? quote d with
      | some plain => plain :: unescape quote rest
      | none => c :: unescape quote (d :: rest)
    else c :: unescape quote (d :: rest)

def dropComment (t : Text) : Text :=
  match t with
  | [] => []
  | c :: rest =>
    if c.isBlank && (t.dropWhile CodePoint.isBlank).head? == some '#' then []
    else c :: dropComment rest

def value (t : Text) : Except Text (Text × Text) :=
  match t with
  | [] => .ok ([], t)
  | c :: rest =>
    if c.isQuote then
      match closingQuote? c 0 none rest with
      | some n => .ok (unescape c (rest.take n), rest.drop (n + 1))
      | none => .error t
    else
      let line := t.takeWhile (!·.isNewline)
      .ok (Text.stripRight (dropComment line), t.drop line.length)

def skipComment (t : Text) : Text :=
  let rest := t.dropWhile isGap
  if rest.head? == some '#' then rest.dropWhile (!·.isNewline) else t

def endLine (t : Text) : Except Text Text :=
  match t.dropWhile isGap with
  | [] => .ok []
  | c :: rest =>
    if c == '\r' && rest.head? == some '\n' then .ok (rest.drop 1)
    else if c.isNewline then .ok rest
    else .error t

def binding (t : Text) : Except Text (Option Binding × Text) := do
  let (name, t) ← name (dropExport t)
  let t := t.dropWhile isGap
  let (value, t) ← match t with
    | c :: rest =>
      if c == '=' then do
        let (value, t) ← value (rest.dropWhile isGap)
        pure (some value, t)
      else pure (none, t)
    | [] => pure (none, t)
  let t ← endLine (skipComment t)
  return (name.map fun name => ⟨name, value⟩, t)

def skipLine (t : Text) : Text :=
  (t.dropWhile (!·.isNewline)).drop 1

/-- The bindings of a text; every round takes a character at least. -/
def bindingsFrom : Nat → Text → List Binding
  | 0, _ => []
  | fuel + 1, t =>
    let t := t.dropWhile CodePoint.isBlank
    if t.isEmpty then []
    else
      match binding t with
      | .ok (some b, rest) => b :: bindingsFrom fuel rest
      | .ok (none, rest) => bindingsFrom fuel rest
      | .error rest => bindingsFrom fuel (skipLine rest)

def bindings (t : Text) : List Binding :=
  let t := if t.head?.any (·.val == 0xFEFF) then t.drop 1 else t
  bindingsFrom t.length t

def reference? (t : Text) : Option (Text × Text × Nat) :=
  match (Text.ofString "$\x7b").isPrefixOf? t with
  | none => none
  | some rest =>
    let name := rest.takeWhile fun c : CodePoint => c != '\x7d' && c != ':'
    let after := rest.drop name.length
    match (Text.ofString "\x7d").isPrefixOf? after, (Text.ofString ":-").isPrefixOf? after with
    | some _, _ => some (name, [], name.length + 3)
    | none, some rest =>
      let usual := rest.takeWhile fun c : CodePoint => c != '\x7d'
      if usual.length < rest.length then some (name, usual, name.length + usual.length + 5) else none
    | none, none => none

/-- Replaces references by values. `skip` characters belong to a reference already replaced. -/
def expandFrom (lookup : Text → Option Text) (skip : Nat) : Text → Text
  | [] => []
  | c :: t =>
    match skip with
    | k + 1 => expandFrom lookup k t
    | 0 =>
      match reference? (c :: t) with
      | some (name, usual, n) => (lookup name).getD usual ++ expandFrom lookup (n - 1) t
      | none => c :: expandFrom lookup 0 t

/-- The values so far with that of one more line. References are replaced by the environment first,
then by earlier lines, where a name without a value counts as empty. -/
def define (env : Environment) (known : List (Text × Option Text)) (b : Binding) :
    List (Text × Option Text) :=
  let lookup (name : Text) : Option Text :=
    env.get? name <|> (known.lookup name).map (·.getD [])
  let value := b.value.map (expandFrom lookup 0)
  if (known.lookup b.name).isSome then
    known.map fun (name, old) => if name == b.name then (name, value) else (name, old)
  else known ++ [(b.name, value)]

def resolve (env : Environment) (bindings : List Binding) : List (Text × Option Text) :=
  bindings.foldl (define env) []

theorem nodup_define {known : List (Text × Option Text)} (h : (known.map (·.1)).Nodup)
    (env : Environment) (b : Binding) : ((define env known b).map (·.1)).Nodup := by
  unfold define
  dsimp only
  split
  · have hnames : ∀ value : Option Text, (known.map fun (name, old) =>
        if name == b.name then (name, value) else (name, old)).map (·.1) = known.map (·.1) := by
      intro value
      rw [List.map_map]
      apply List.map_congr_left
      intro entry _
      dsimp only [Function.comp]
      split <;> rfl
    rw [hnames]
    exact h
  · next hnew =>
    rw [List.map_append, List.nodup_append]
    refine ⟨h, by simp, ?_⟩
    intro name hname other hother
    obtain ⟨entry, hentry, rfl⟩ := List.mem_map.mp hname
    rw [List.map_singleton, List.mem_singleton] at hother
    rw [Option.not_isSome_iff_eq_none, List.lookup_eq_none_iff] at hnew
    have hne : b.name ≠ entry.1 := by simpa using hnew entry hentry
    exact fun heq => hne (heq.trans hother).symm

theorem nodup_resolve (env : Environment) (bindings : List Binding) :
    ((resolve env bindings).map (·.1)).Nodup := by
  have hfold : ∀ known : List (Text × Option Text), (known.map (·.1)).Nodup →
      ((bindings.foldl (define env) known).map (·.1)).Nodup := by
    induction bindings with
    | nil => exact fun known h => h
    | cons b bindings ih => exact fun known h => ih _ (nodup_define h env b)
  exact hfold [] List.nodup_nil

def references : Text → List Text
  | [] => []
  | c :: t => ((reference? (c :: t)).map (·.1)).toList ++ references t

def mentioned (text : Text) : List Text :=
  (bindings text).flatMap fun b => b.name :: references (b.value.getD [])

def apply (env : Environment) : List (Text × Option Text) → Environment × Option Error
  | [] => (env, none)
  | (name, value) :: rest =>
    match value with
    | none => apply env rest
    | some value =>
      if (env.get? name).isSome then apply env rest
      else
        match env.setChecked name value with
        | .ok env => apply env rest
        | .error e => (env, some e)

/-- A reader of files of variables. The values may depend on variables that are set already; no name
has two. -/
structure Reader where
  values : Environment → Text → List (Text × Option Text)
  nodup : ∀ env text, ((values env text).map (·.1)).Nodup

def Reader.standard : Reader where
  values := fun env text => resolve env (bindings text)
  nodup := fun env text => nodup_resolve env (bindings text)

def load (reader : Reader) (env : Environment) (text : Text) : Environment × Option Error :=
  apply env (reader.values env text)

end Deadwood.Environment.File
