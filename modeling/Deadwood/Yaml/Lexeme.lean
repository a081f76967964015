import Deadwood.Text.Utf8
import Deadwood.Yaml.Cursor
import Deadwood.Yaml.Error
import Deadwood.Yaml.Token

/-!
The tokens that take more than a sign: scalars in their five styles, tags, anchors and directives.
Each reader starts at a place and gives what it read and the place after it.
-/
namespace Deadwood.Yaml

def isOneOf (signs : String) (c : CodePoint) : Bool :=
  signs.toList.any fun s => c == CodePoint.ofChar s

def isNameSign (c : CodePoint) : Bool :=
  c.isLetter || c.isDigit || isOneOf "-_" c

def require (holds : Bool) : Except Error Unit :=
  if holds then .ok () else .error .malformed

/-! ### Plain scalars -/

def plainLength (inFlow : Bool) : Text → Nat
  | [] => 0
  | c :: rest =>
    let endsKey := c == ':' &&
      (endsWord rest.head? || (inFlow && rest.head?.any (isOneOf ",[]\x7b\x7d")))
    if isIndent c || isBreak c || endsKey || (inFlow && isOneOf ",?[]\x7b\x7d" c) then 0
    else 1 + plainLength inFlow rest

def plainBreaks : Nat → Cursor → Option Text × Cursor
  | 0, p => (some [], p)
  | fuel + 1, p =>
    if p.rest.head?.any isSpace then plainBreaks fuel p.next
    else
      match p.lineBreak? with
      | none => (some [], p)
      | some (c, q) =>
        if q.isDocumentMark then (none, q)
        else
          match plainBreaks fuel q with
          | (some breaks, r) => (some (c :: breaks), r)
          | (none, r) => (none, r)

/-- One line end becomes a space; of several the first is dropped. -/
def foldBreaks (first : CodePoint) (others : Text) : Text :=
  (if first != '\n' then [first] else if others.isEmpty then [' '] else []) ++ others

structure PlainGap where
  text : Text
  brokeLine : Bool
  cursor : Cursor

def plainGap (p : Cursor) : PlainGap :=
  let (blanks, p) := p.takeWhile isSpace
  match p.lineBreak? with
  | none => ⟨blanks, false, p⟩
  | some (c, p) =>
    if p.isDocumentMark then ⟨[], true, p⟩
    else
      match plainBreaks p.rest.length p with
      | (some breaks, p) => ⟨foldBreaks c breaks, true, p⟩
      | (none, p) => ⟨[], true, p⟩

def plainScalar (inFlow : Bool) (indent : Int) : Nat → Cursor → PlainGap
  | 0, p => ⟨[], false, p⟩
  | fuel + 1, p =>
    let run := p.rest.take (plainLength inFlow p.rest)
    let gap := plainGap (p.advance run.length)
    let next := gap.cursor
    if gap.text.isEmpty || next.rest.head? == some '#' || (!inFlow && (next.column : Int) < indent) ||
        plainLength inFlow next.rest == 0 then
      ⟨run, gap.brokeLine, next⟩
    else
      let more := plainScalar inFlow indent fuel next
      ⟨run ++ gap.text ++ more.text, more.brokeLine, more.cursor⟩

/-! ### Quoted scalars -/

def quotedBreaks : Nat → Cursor → Except Error (Text × Cursor)
  | 0, p => .ok ([], p)
  | fuel + 1, p =>
    if p.isDocumentMark then .error .malformed
    else
      let p := p.dropWhile isIndent
      match p.lineBreak? with
      | none => .ok ([], p)
      | some (c, q) => (quotedBreaks fuel q).map fun (breaks, r) => (c :: breaks, r)

def escapedChar? (c : CodePoint) : Option CodePoint :=
  (c.toChar?).bind fun c =>
    match c with
    | '0' => some '\x00'
    | 'a' => some '\x07'
    | 'b' => some '\x08'
    | 't' | '\t' => some '\t'
    | 'n' => some '\n'
    | 'v' => some '\x0B'
    | 'f' => some '\x0C'
    | 'r' => some '\r'
    | 'e' => some '\x1B'
    | ' ' => some ' '
    | '"' => some '"'
    | '\\' => some '\\'
    | '/' => some '/'
    | 'N' => some '\u0085'
    | '_' => some '\u00A0'
    | 'L' => some '\u2028'
    | 'P' => some '\u2029'
    | _ => none

def escapedDigits? (c : CodePoint) : Option Nat :=
  if c == 'x' then some 2 else if c == 'u' then some 4 else if c == 'U' then some 8 else none

def quotedEscape (p : Cursor) : Except Error (Text × Cursor) :=
  match p.rest with
  | [] => .error .malformed
  | c :: rest =>
    match escapedChar? c with
    | some plain => .ok ([plain], p.next)
    | none =>
      match escapedDigits? c with
      | some n =>
        let digits := rest.take n
        match Text.hexNumber? digits with
        | some code =>
          if digits.length < n then .error .malformed
          else if h : code < 0x110000 then .ok ([⟨code, h⟩], p.advance (n + 1))
          else .error .codePoint
        | none => .error .malformed
      | none =>
        match p.lineBreak? with
        | some (_, q) => quotedBreaks (q.rest.length + 1) q
        | none => .error .malformed

def quotedRun (isDouble : Bool) : Nat → Cursor → Except Error (Text × Cursor)
  | 0, p => .ok ([], p)
  | fuel + 1, p =>
    match p.rest with
    | [] => .ok ([], p)
    | c :: rest =>
      let continued (taken : Text) (q : Cursor) : Except Error (Text × Cursor) :=
        (quotedRun isDouble fuel q).map fun (more, r) => (taken ++ more, r)
      if isIndent c || isBreak c then .ok ([], p)
      else if c == '\'' && !isDouble then
        if rest.head? == some '\'' then continued ['\''] (p.advance 2) else .ok ([], p)
      else if c == '"' && isDouble then .ok ([], p)
      else if c == '\\' && isDouble then
        match quotedEscape p.next with
        | .ok (decoded, q) => continued decoded q
        | .error e => .error e
      else continued [c] p.next

def quotedGap (p : Cursor) : Except Error (Text × Cursor) :=
  let (blanks, p) := p.takeWhile isIndent
  if p.rest.isEmpty then .error .malformed
  else
    match p.lineBreak? with
    | none => .ok (blanks, p)
    | some (c, q) => (quotedBreaks (q.rest.length + 1) q).map fun (breaks, r) => (foldBreaks c breaks, r)

def quotedRest (isDouble : Bool) : Nat → Cursor → Except Error (Text × Cursor)
  | 0, _ => .error .malformed
  | fuel + 1, p =>
    if p.rest.head? == some (if isDouble then '"' else '\'') then .ok ([], p.next)
    else do
      let (gap, p) ← quotedGap p
      let (run, p) ← quotedRun isDouble p.rest.length p
      let (more, p) ← quotedRest isDouble fuel p
      return (gap ++ run ++ more, p)

def quotedScalar (isDouble : Bool) (p : Cursor) : Except Error (Text × Cursor) := do
  let (run, p) ← quotedRun isDouble p.rest.length p.next
  let (more, p) ← quotedRest isDouble (p.rest.length + 1) p
  return (run ++ more, p)

/-! ### Block scalars -/

inductive Chomping where
  | clip
  | strip
  | keep
  deriving DecidableEq, Repr

def chomping? (c : CodePoint) : Option Chomping :=
  if c == '+' then some .keep else if c == '-' then some .strip else none

def increment? (p : Cursor) : Except Error (Option Nat × Cursor) :=
  match p.rest.head? with
  | some c =>
    if c == '0' then .error .malformed
    else if c.isDigit then .ok (some (c.val - '0'.toNat), p.next) else .ok (none, p)
  | none => .ok (none, p)

def blockHeader (p : Cursor) : Except Error (Chomping × Option Nat × Cursor) := do
  match p.rest.head?.bind chomping? with
  | some chomping =>
    let (increment, p) ← increment? p.next
    return (chomping, increment, p)
  | none =>
    let (increment, q) ← increment? p
    match increment.bind fun _ => q.rest.head?.bind chomping? with
    | some chomping => return (chomping, increment, q.next)
    | none => return (.clip, increment, q)

def afterLine (p : Cursor) : Except Error Cursor :=
  let p := p.skipComment
  if endsLine p.rest.head? then .ok ((p.lineBreak?.map (·.2)).getD p) else .error .malformed

def blockStart : Nat → Cursor → Text × Nat × Cursor
  | 0, p => ([], 0, p)
  | fuel + 1, p =>
    if p.rest.head?.any isSpace then
      let (breaks, widest, q) := blockStart fuel p.next
      (breaks, max p.next.column widest, q)
    else
      match p.lineBreak? with
      | none => ([], 0, p)
      | some (c, q) =>
        let (breaks, widest, r) := blockStart fuel q
        (c :: breaks, widest, r)

def skipIndent (indent : Nat) : Nat → Cursor → Cursor
  | 0, p => p
  | fuel + 1, p =>
    if p.column < indent && p.rest.head?.any isSpace then skipIndent indent fuel p.next else p

def blockBreaks (indent : Nat) : Nat → Cursor → Text × Cursor
  | 0, p => ([], p)
  | fuel + 1, p =>
    let p := skipIndent indent indent p
    match p.lineBreak? with
    | none => ([], p)
    | some (c, q) =>
      let (breaks, r) := blockBreaks indent fuel q
      (c :: breaks, r)

def blockLines (isFolded : Bool) (chomping : Chomping) (indent : Nat) :
    Nat → Text → Cursor → Text × Cursor
  | 0, _, p => ([], p)
  | fuel + 1, breaks, p =>
    let startsText := !p.rest.head?.any isIndent
    let (line, q) := p.takeWhile (!isBreak ·)
    let lineEnd : Text := (q.lineBreak?.map (·.1)).toList
    let q := (q.lineBreak?.map (·.2)).getD q
    let (breaks', q) := blockBreaks indent (q.rest.length + 1) q
    if q.column == indent && !q.rest.isEmpty then
      let folds := isFolded && lineEnd == Text.ofString "\n" && startsText && !q.rest.head?.any isIndent
      let joint : Text := if folds then if breaks'.isEmpty then [' '] else [] else lineEnd
      let (more, r) := blockLines isFolded chomping indent fuel breaks' q
      (breaks ++ line ++ joint ++ more, r)
    else
      let last : Text := if chomping == .strip then [] else lineEnd
      let kept : Text := if chomping == .keep then breaks' else []
      (breaks ++ line ++ last ++ kept, q)

def blockScalar (isFolded : Bool) (outer : Int) (p : Cursor) : Except Error (Text × Cursor) := do
  let (chomping, increment, p) ← blockHeader p.next
  require (endsField p.rest.head?)
  let p ← afterLine p
  let least := max 1 (outer + 1).toNat
  let (breaks, indent, p) := match increment with
    | none =>
      let (breaks, widest, q) := blockStart (p.rest.length + 1) p
      (breaks, max least widest, q)
    | some n =>
      let indent := least + n - 1
      let (breaks, q) := blockBreaks indent (p.rest.length + 1) p
      (breaks, indent, q)
  if p.column == indent && !p.rest.isEmpty then
    return blockLines isFolded chomping indent (p.rest.length + 1) breaks p
  else return (if chomping == .keep then breaks else [], p)

/-! ### Anchors, tags and directives -/

def anchorName (p : Cursor) : Except Error (Text × Cursor) := do
  let (name, p) := p.next.takeWhile isNameSign
  require (!name.isEmpty && (endsWord p.rest.head? || p.rest.head?.any (isOneOf "?:,]\x7d%@\x60")))
  return (name, p)

def primaryHandle : Text := "!"

def tagHandle (p : Cursor) : Except Error (Text × Cursor) := do
  require (p.rest.head? == some '!')
  if p.peek 1 == some ' ' then return (primaryHandle, p.next)
  else
    let (name, q) := p.next.takeWhile isNameSign
    require (q.rest.head? == some '!')
    return (primaryHandle ++ name ++ primaryHandle, q.next)

def isUriSign (c : CodePoint) : Bool :=
  c.isLetter || c.isDigit || isOneOf "-;/?:@&=+$,_.!~*'()[]" c

def uriBytes : Nat → Cursor → Except Error (Bytes × Cursor)
  | 0, p => .ok ([], p)
  | fuel + 1, p =>
    if p.rest.head? == some '%' then do
      let digits := (p.rest.drop 1).take 2
      require (digits.length == 2)
      match Text.hexNumber? digits with
      | none => .error .malformed
      | some n =>
        let (more, q) ← uriBytes fuel (p.advance 3)
        return (n.toUInt8 :: more, q)
    else .ok ([], p)

def tagUri : Nat → Cursor → Except Error (Text × Cursor)
  | 0, p => .ok ([], p)
  | fuel + 1, p =>
    if p.rest.head? == some '%' then do
      let (bytes, q) ← uriBytes p.rest.length p
      match Utf8.decode? bytes with
      | none => .error .malformed
      | some decoded =>
        let (more, r) ← tagUri fuel q
        return (decoded ++ more, r)
    else if p.rest.head?.any isUriSign then do
      let (run, q) := p.takeWhile isUriSign
      let (more, r) ← tagUri fuel q
      return (run ++ more, r)
    else .ok ([], p)

def nonemptyUri (p : Cursor) : Except Error (Text × Cursor) := do
  let (uri, q) ← tagUri (p.rest.length + 1) p
  require (q.index != p.index)
  return (uri, q)

def tagParts (p : Cursor) : Except Error ((Option Text × Text) × Cursor) := do
  let (parts, q) ←
    if p.peek 1 == some '<' then do
      let (uri, q) ← nonemptyUri (p.advance 2)
      require (q.rest.head? == some '>')
      pure ((none, uri), q.next)
    else if endsWord (p.peek 1) then pure ((none, primaryHandle), p.next)
    else
      let word := (p.rest.drop 1).takeWhile fun c => !isSpace c && !isBreak c
      if word.any (· == '!') then do
        let (handle, q) ← tagHandle p
        let (suffix, q) ← nonemptyUri q
        pure ((some handle, suffix), q)
      else do
        let (suffix, q) ← nonemptyUri p.next
        pure ((some primaryHandle, suffix), q)
  require (endsField q.rest.head?)
  return (parts, q)

def directiveNumber (p : Cursor) : Except Error (Nat × Cursor) := do
  let (digits, p) := p.takeWhile CodePoint.isDigit
  require (!digits.isEmpty)
  return (digits.foldl (fun n c => 10 * n + (c.val - '0'.toNat)) 0, p)

def directiveBody (name : Text) (p : Cursor) : Except Error (Directive × Cursor) :=
  if name == Text.ofString "YAML" then do
    let (major, p) ← directiveNumber (p.dropWhile isSpace)
    require (p.rest.head? == some '.')
    let (_, p) ← directiveNumber p.next
    require (endsField p.rest.head?)
    return (.version major, p)
  else if name == Text.ofString "TAG" then do
    let (handle, p) ← tagHandle (p.dropWhile isSpace)
    require (p.rest.head? == some ' ')
    let (expansion, p) ← nonemptyUri (p.dropWhile isSpace)
    require (endsField p.rest.head?)
    return (.handle handle expansion, p)
  else return (.unknown, p.dropWhile (!isBreak ·))

def directive (p : Cursor) : Except Error (Directive × Cursor) := do
  let (name, p) := p.next.takeWhile isNameSign
  require (!name.isEmpty && endsField p.rest.head?)
  let (d, p) ← directiveBody name p
  let p ← afterLine p
  return (d, p)

end Deadwood.Yaml
