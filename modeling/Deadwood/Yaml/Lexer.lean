import Deadwood.Yaml.Lexeme

/-!
From the text of a document to its tokens. Two things need memory. Indentation opens and closes
block collections. And what was read may turn out to be a key when a colon follows: until then it
is remembered, and the token that announces the key is put in front of it afterwards.
-/
namespace Deadwood.Yaml

/-- The place of something that may be a key. It must be one if it starts a line of a block
mapping. -/
structure PossibleKey where
  token : Nat
  required : Bool
  index : Nat
  line : Nat
  column : Nat

structure Lexer where
  cursor : Cursor
  tokens : List Token := []
  flow : Nat := 0
  indent : Int := -1
  outerIndents : List Int := []
  keyAllowed : Bool := true
  possibleKeys : List (Nat × PossibleKey) := []

namespace Lexer

def emit (token : Token) (s : Lexer) : Lexer :=
  { s with tokens := s.tokens ++ [token] }

def insertAt (n : Nat) (tokens : List Token) (s : Lexer) : Lexer :=
  { s with tokens := s.tokens.take n ++ tokens ++ s.tokens.drop n }

def inFlow (s : Lexer) : Bool :=
  0 < s.flow

/-- After blanks, comments and line ends. In blocks a key may start after a line end. -/
def skipBlanks : Nat → Lexer → Lexer
  | 0, s => s
  | fuel + 1, s =>
    let p := s.cursor.skipComment
    match p.lineBreak? with
    | none => { s with cursor := p }
    | some (_, q) => skipBlanks fuel { s with cursor := q, keyAllowed := s.keyAllowed || !s.inFlow }

def longestKey : Nat := 1024

/-- Gives up possible keys that are on an earlier line or too long ago. -/
def dropStaleKeys (s : Lexer) : Except Error Lexer := do
  let isStale (k : PossibleKey) : Bool :=
    k.line != s.cursor.line || longestKey < s.cursor.index - k.index
  require (s.possibleKeys.all fun (_, k) => !(isStale k && k.required))
  return { s with possibleKeys := s.possibleKeys.filter fun (_, k) => !isStale k }

def dropKey (s : Lexer) : Except Error Lexer := do
  require (s.possibleKeys.all fun (depth, k) => !(depth == s.flow && k.required))
  return { s with possibleKeys := s.possibleKeys.filter fun (depth, _) => depth != s.flow }

def saveKey (s : Lexer) : Except Error Lexer := do
  if s.keyAllowed then
    let required := !s.inFlow && s.indent == s.cursor.column
    let s ← s.dropKey
    let key : PossibleKey :=
      ⟨s.tokens.length, required, s.cursor.index, s.cursor.line, s.cursor.column⟩
    return { s with possibleKeys := (s.flow, key) :: s.possibleKeys }
  else return s

def closeBlocks (column : Int) (s : Lexer) : Lexer :=
  if s.inFlow then s else go s.outerIndents s
where
  go (outer : List Int) (s : Lexer) : Lexer :=
    if s.indent ≤ column then s
    else
      match outer with
      | [] => s
      | indent :: rest => go rest ({ s with indent, outerIndents := rest }.emit .blockEnd)

def openBlock (column : Int) (s : Lexer) : Bool × Lexer :=
  if s.indent < column then
    (true, { s with indent := column, outerIndents := s.indent :: s.outerIndents })
  else (false, s)

def openBlockHere (token : Token) (s : Lexer) : Except Error Lexer :=
  if s.inFlow then .ok s
  else if !s.keyAllowed then .error .malformed
  else
    let (opened, s) := s.openBlock s.cursor.column
    .ok (if opened then s.emit token else s)

def sign (n : Nat) (token : Token) (s : Lexer) : Lexer :=
  { s.emit token with cursor := s.cursor.advance n }

def streamEnd (s : Lexer) : Except Error Lexer := do
  let s ← (s.closeBlocks (-1)).dropKey
  return { s with keyAllowed := false, possibleKeys := [] }.emit .streamEnd

def documentMark (token : Token) (s : Lexer) : Except Error Lexer := do
  let s ← (s.closeBlocks (-1)).dropKey
  return { s with keyAllowed := false }.sign 3 token

def directiveLine (s : Lexer) : Except Error Lexer := do
  let s ← (s.closeBlocks (-1)).dropKey
  let (d, p) ← directive s.cursor
  return { s with keyAllowed := false, cursor := p }.emit (.directive d)

def flowStart (token : Token) (s : Lexer) : Except Error Lexer := do
  let s ← s.saveKey
  return { s with flow := s.flow + 1, keyAllowed := true }.sign 1 token

def flowEnd (token : Token) (s : Lexer) : Except Error Lexer := do
  let s ← s.dropKey
  return { s with flow := s.flow - 1, keyAllowed := false }.sign 1 token

def flowEntry (s : Lexer) : Except Error Lexer := do
  let s ← { s with keyAllowed := true }.dropKey
  return s.sign 1 .flowEntry

def blockEntry (s : Lexer) : Except Error Lexer := do
  let s ← s.openBlockHere .blockSequenceStart
  let s ← { s with keyAllowed := true }.dropKey
  return s.sign 1 .blockEntry

def announcedKey (s : Lexer) : Except Error Lexer := do
  let s ← s.openBlockHere .blockMappingStart
  let s ← { s with keyAllowed := !s.inFlow }.dropKey
  return s.sign 1 .key

/-- A colon. If something before it may be a key, it is one, and may open a block mapping. -/
def value (s : Lexer) : Except Error Lexer :=
  match s.possibleKeys.lookup s.flow with
  | some key =>
    let s := { s with
      possibleKeys := s.possibleKeys.filter fun (depth, _) => depth != s.flow
      keyAllowed := false }
    let (opened, s) := if s.inFlow then (false, s) else s.openBlock key.column
    let announced := if opened then [.blockMappingStart, .key] else [.key]
    .ok ((s.insertAt key.token announced).sign 1 .value)
  | none => do
    let s ← s.openBlockHere .blockMappingStart
    let s ← { s with keyAllowed := !s.inFlow }.dropKey
    return s.sign 1 .value

def keyable (read : Cursor → Except Error (Token × Cursor)) (s : Lexer) : Except Error Lexer := do
  let s ← s.saveKey
  let (token, p) ← read s.cursor
  return { s with keyAllowed := false, cursor := p }.emit token

def named (token : Text → Token) (p : Cursor) : Except Error (Token × Cursor) :=
  (anchorName p).map fun (name, q) => (token name, q)

def tagged (p : Cursor) : Except Error (Token × Cursor) :=
  (tagParts p).map fun ((handle, suffix), q) => (.tag handle suffix, q)

def quoted (isDouble : Bool) (p : Cursor) : Except Error (Token × Cursor) :=
  (quotedScalar isDouble p).map fun (text, q) => (.scalar text false, q)

def block (isFolded : Bool) (s : Lexer) : Except Error Lexer := do
  let s ← { s with keyAllowed := true }.dropKey
  let (text, p) ← blockScalar isFolded s.indent s.cursor
  return { s with cursor := p }.emit (.scalar text false)

def plain (s : Lexer) : Except Error Lexer := do
  let s ← s.saveKey
  let scalar := plainScalar s.inFlow (s.indent + 1) (s.cursor.rest.length + 1) s.cursor
  return { s with keyAllowed := scalar.brokeLine, cursor := scalar.cursor }.emit
    (.scalar scalar.text true)

def startsPlain (s : Lexer) (c : CodePoint) : Bool :=
  let follows := !endsWord (s.cursor.peek 1)
  !(isIndent c || isBreak c || isOneOf "-?:,[]\x7b\x7d#&*!|>'\"%@\x60" c) ||
    (follows && (c == '-' || (!s.inFlow && isOneOf "?:" c)))

def fetch (s : Lexer) : Except Error Lexer := do
  let s := s.skipBlanks (s.cursor.rest.length + 1)
  let s ← s.dropStaleKeys
  let s := s.closeBlocks s.cursor.column
  match s.cursor.rest.head? with
  | none => s.streamEnd
  | some c =>
    let first := s.cursor.column == 0
    let alone := endsWord (s.cursor.peek 1)
    if c == '%' && first then s.directiveLine
    else if first && s.cursor.isMark "---" then s.documentMark .documentStart
    else if first && s.cursor.isMark "..." then s.documentMark .documentEnd
    else if c == '[' then s.flowStart .flowSequenceStart
    else if c == '\x7b' then s.flowStart .flowMappingStart
    else if c == ']' then s.flowEnd .flowSequenceEnd
    else if c == '\x7d' then s.flowEnd .flowMappingEnd
    else if c == ',' then s.flowEntry
    else if c == '-' && alone then s.blockEntry
    else if c == '?' && (s.inFlow || alone) then s.announcedKey
    else if c == ':' && (s.inFlow || alone) then s.value
    else if c == '*' then s.keyable (named .alias)
    else if c == '&' then s.keyable (named .anchor)
    else if c == '!' then s.keyable tagged
    else if c == '|' && !s.inFlow then s.block false
    else if c == '>' && !s.inFlow then s.block true
    else if c == '\'' then s.keyable (quoted false)
    else if c == '"' then s.keyable (quoted true)
    else if s.startsPlain c then s.plain
    else .error .malformed

/-- Tokens up to the end of the text or to the first error. Each takes a character at least. -/
def run : Nat → Lexer → Lexer × Option Error
  | 0, s => (s, some .malformed)
  | fuel + 1, s =>
    match s.fetch with
    | .error e => (s, some e)
    | .ok s => if s.tokens.getLast? == some .streamEnd then (s, none) else run fuel s

end Lexer

def isAllowed (c : CodePoint) : Bool :=
  let n := c.val
  n == 0x09 || n == 0x0A || n == 0x0D || (0x20 ≤ n && n ≤ 0x7E) || n == 0x85 ||
    (0xA0 ≤ n && n ≤ 0xD7FF) || (0xE000 ≤ n && n ≤ 0xFFFD) || 0x10000 ≤ n

def tokens (source : Text) : List Token × Option Error :=
  if !source.all isAllowed then ([], some .malformed)
  else
    let start : Cursor := { rest := source }
    let start := if source.head?.any (·.val == 0xFEFF) then start.next else start
    let (s, error) := Lexer.run (source.length + 2) { cursor := start }
    (s.tokens, error)

end Deadwood.Yaml
