import Linework.Toolkit.Yaml.Scalar

/-!
# The tokens of a text

A text is cut from the front. A scalar is known to be a key only when its colon is met, so the
token that announces the key is put in front of it then. Blocks begin and end with the column of
their lines, and inside brackets columns do not count.
-/

namespace Linework.Yaml

namespace Scan

/-- The greatest length of a key that is not announced. -/
def keyLimit : Nat := 1024

/-- Forgets the possible keys that are too far back by now. -/
def forgetOldKeys : Scan Unit := do
  let s ← get
  let (fresh, old) := s.keys.partition fun key =>
    key.2.line = s.line && s.index - key.2.index ≤ keyLimit
  if old.any fun key => key.2.required then refuse
  set { s with keys := fresh }

/-- The possible key at the present depth. -/
def keyHere? : Scan (Option KeyPlace) := do
  let s ← get
  return (s.keys.find? fun key => key.1 = s.flow).map (·.2)

def dropKeyHere : Scan Unit :=
  modify fun s => { s with keys := s.keys.filter fun key => key.1 != s.flow }

/-- Gives up the possible key at the present depth. -/
def abandonKey : Scan Unit := do
  if (← keyHere?).any KeyPlace.required then refuse
  dropKeyHere

/-- Remembers that a key may begin here. -/
def rememberKey : Scan Unit := do
  if (← get).keyAllowed then
    abandonKey
    modify fun s =>
      let key : KeyPlace :=
        { tokens := s.tokens.size, required := s.flow = 0 && s.indent = (s.column : Int),
          index := s.index, line := s.line, column := s.column }
      { s with keys := s.keys ++ [(s.flow, key)] }

def allowKey (allowed : Bool) : Scan Unit := modify fun s => { s with keyAllowed := allowed }

/-- Puts a token in front of those from a position on. -/
def emitAt (position : Nat) (token : Token) : Scan Unit :=
  modify fun s =>
    { s with
      tokens := (s.tokens.extract 0 position).push token ++
        s.tokens.extract position s.tokens.size }

/-- Ends the blocks that are deeper than a column. -/
def closeBlocks (column : Int) : Scan Unit :=
  modify fun s =>
    if s.flow != 0 then s
    else
      let around := (s.indent :: s.indents)
      let deeper := around.takeWhile fun indent => column < indent
      let left := around.dropWhile fun indent => column < indent
      { s with
        indent := left.headD (-1)
        indents := left.tail
        tokens := s.tokens ++ (deeper.map fun _ => Token.blockEnd).toArray }

/-- Begins a block at a column; the answer tells whether it is deeper than the one around it. -/
def openBlock (column : Nat) : Scan Bool := do
  let s ← get
  if s.indent < (column : Int) then
    set { s with indent := (column : Int), indents := s.indent :: s.indents }
    return true
  else return false

/-- Blanks, comments and line breaks in front of a token: how many characters, and whether there
is a break among them. -/
def margin (inComment : Bool) : Text → Nat × Bool
  | [] => (0, false)
  | c :: rest =>
    if isBreak c then ((margin false rest).1 + 1, true)
    else if inComment || c == ' ' then
      let more := margin inComment rest
      (more.1 + 1, more.2)
    else if c == '#' then
      let more := margin true rest
      (more.1 + 1, more.2)
    else (0, false)

def skipMargin : Scan Unit := do
  if (← get).index = 0 && (← peek 0) = '\ufeff' then skip 1
  let s ← get
  let (count, broken) := margin false s.rest
  skip count
  if broken && s.flow = 0 then allowKey true

/-! ## Directives and documents -/

def digits : Scan Nat := do
  let run ← takeWhile CodePoint.isDigit
  if run = [] then refuse
  return Text.numeral 10 run

/-- Bytes that are written by their codes. -/
def percentBytes : (fuel : Nat) → Scan (List UInt8)
  | 0 => return []
  | fuel + 1 => do
    if (← peek 0) != '%' then return []
    let code := (← get).rest.drop 1 |>.take 2
    if code.length < 2 || !code.all Text.isHexDigit then refuse
    skip 3
    return UInt8.ofNat (Text.numeral 16 code) :: (← percentBytes fuel)

/-- The characters of addresses. -/
def isAddressChar (c : CodePoint) : Bool :=
  isNameChar c || (Text.lit ";/?:@&=+$,.!~*'()[]").contains c

def addressPieces : (fuel : Nat) → Scan Text
  | 0 => return []
  | fuel + 1 => do
    let run ← takeWhile isAddressChar
    if (← peek 0) = '%' then
      match Encoding.utf8.decode (← percentBytes (← turns)) with
      | .ok decoded => return run ++ decoded ++ (← addressPieces fuel)
      | .error _ => refuse
    else return run

/-- An address, which is not empty. -/
def address : Scan Text := do
  let before := (← get).index
  let t ← addressPieces (← turns)
  if (← get).index = before then refuse
  return t

/-- A handle: an exclamation mark, alone or around a name. -/
def handle : Scan Text := do
  if (← peek 0) != '!' then refuse
  skip 1
  if (← peek 0) = ' ' then return ['!']
  let name ← takeWhile isNameChar
  if (← peek 0) != '!' then refuse
  skip 1
  return ('!' : CodePoint) :: name ++ (['!'] : Text)

def versionDirective : Scan Directive := do
  dropWhile (fun c : CodePoint => c == ' ')
  let major ← digits
  if (← peek 0) != '.' then refuse
  skip 1
  let _ ← digits
  if !isWordEnd (← peek 0) then refuse
  return .version major

def tagDirective : Scan Directive := do
  dropWhile (fun c : CodePoint => c == ' ')
  let name ← handle
  if (← peek 0) != ' ' then refuse
  dropWhile (fun c : CodePoint => c == ' ')
  let start ← address
  if !isWordEnd (← peek 0) then refuse
  return .tag name start

def directive : Scan Unit := do
  closeBlocks (-1)
  abandonKey
  allowKey false
  skip 1
  let name ← takeWhile isNameChar
  if name = [] || !isWordEnd (← peek 0) then refuse
  let found ←
    if name = Text.lit "YAML" then versionDirective
    else if name = Text.lit "TAG" then tagDirective
    else do
      dropWhile fun c => !isLineEnd c
      pure .other
  restOfLine
  emit (.directive found)

def boundary (token : Token) : Scan Unit := do
  closeBlocks (-1)
  abandonKey
  allowKey false
  skip 3
  emit token

def textEnd : Scan Unit := do
  closeBlocks (-1)
  abandonKey
  modify fun s => { s with keyAllowed := false, keys := [], done := true }
  emit .streamEnd

/-! ## Collections -/

def flowStart (token : Token) : Scan Unit := do
  rememberKey
  modify fun s => { s with flow := s.flow + 1, keyAllowed := true }
  skip 1
  emit token

def flowEnd (token : Token) : Scan Unit := do
  abandonKey
  modify fun s => { s with flow := s.flow - 1, keyAllowed := false }
  skip 1
  emit token

def flowEntry : Scan Unit := do
  allowKey true
  abandonKey
  skip 1
  emit .flowEntry

/-- Begins the block of an indicator that stands where a key could. -/
def openAt (token : Token) : Scan Unit := do
  let s ← get
  if s.flow = 0 then
    if !s.keyAllowed then refuse
    if ← openBlock s.column then emit token

def entry : Scan Unit := do
  openAt .sequenceStart
  allowKey true
  abandonKey
  skip 1
  emit .entry

def key : Scan Unit := do
  openAt .mappingStart
  allowKey ((← get).flow = 0)
  abandonKey
  skip 1
  emit .key

def value : Scan Unit := do
  match ← keyHere? with
  | some place =>
    dropKeyHere
    emitAt place.tokens .key
    if (← get).flow = 0 then
      if ← openBlock place.column then emitAt place.tokens .mappingStart
    allowKey false
  | none =>
    openAt .mappingStart
    allowKey ((← get).flow = 0)
    abandonKey
  skip 1
  emit .value

/-! ## Nodes -/

/-- The name behind an indicator. -/
def name : Scan Text := do
  skip 1
  let t ← takeWhile isNameChar
  let c ← peek 0
  if t = [] || !(isGap c || (Text.lit "?:,]\x7d%@`").contains c) then refuse
  return t

/-- Whether a tag begins with a handle around a name. -/
def hasHandle (t : Text) : Bool := (t.takeWhile fun c => !isWordEnd c).contains '!'

def tag : Scan Token := do
  let c ← peek 1
  let (found, suffix) ←
    if c = '<' then do
      skip 2
      let t ← address
      if (← peek 0) != '>' then refuse
      skip 1
      pure (none, t)
    else if isGap c then do
      skip 1
      pure (none, ['!'])
    else if hasHandle ((← get).rest.drop 1) then do
      let found ← handle
      pure (some found, ← address)
    else do
      skip 1
      pure (some (['!'] : Text), ← address)
  if !isWordEnd (← peek 0) then refuse
  return .tag found suffix

/-- A node or a property of one, which may be a key. -/
def node (read : Scan Token) : Scan Unit := do
  rememberKey
  allowKey false
  emit (← read)

def blockScalar (fold : Bool) : Scan Unit := do
  allowKey true
  abandonKey
  emit (← block fold)

/-- Whether a plain scalar may begin here. -/
def startsPlain : Scan Bool := do
  let c ← peek 0
  let inFlow := (← get).flow != 0
  if !isGap c && !(Text.lit "-?:,[]\x7b\x7d#&*!|>'\"%@`").contains c then return true
  return !isGap (← peek 1) && (c = '-' || (!inFlow && (c = '?' || c = ':')))

/-- Reads the next token, and those that its place implies. -/
def token : Scan Unit := do
  skipMargin
  forgetOldKeys
  closeBlocks (← get).column
  let s ← get
  let inFlow := s.flow != 0
  let alone := isGap (← peek 1)
  let c ← peek 0
  if c = endMark then textEnd
  else if c = '%' && s.column = 0 then directive
  else if c = '-' && s.column = 0 && (← atBoundary) then boundary .documentStart
  else if c = '.' && s.column = 0 && (← atBoundary) then boundary .documentEnd
  else if c = '[' then flowStart .flowSequenceStart
  else if c = '\x7b' then flowStart .flowMappingStart
  else if c = ']' then flowEnd .flowSequenceEnd
  else if c = '\x7d' then flowEnd .flowMappingEnd
  else if c = ',' then flowEntry
  else if c = '-' && alone then entry
  else if c = '?' && (inFlow || alone) then key
  else if c = ':' && (inFlow || alone) then value
  else if c = '*' then node (do return .alias (← name))
  else if c = '&' then node (do return .anchor (← name))
  else if c = '!' then node tag
  else if c = '|' && !inFlow then blockScalar false
  else if c = '>' && !inFlow then blockScalar true
  else if c = '\'' || c = '"' then node quoted
  else if ← startsPlain then node plain
  else refuse

/-- Reads tokens up to the end of the text. -/
def tokens : (fuel : Nat) → Scan (List Token)
  | 0 => refuse
  | fuel + 1 => do
    token
    let s ← get
    if s.done then return s.tokens.toList else tokens fuel

end Scan

/-- The characters that a text may hold. -/
def isAllowed (c : CodePoint) : Bool :=
  Text.inRanges c.toNat
    [(0x09, 0x0A), (0x0D, 0x0D), (0x20, 0x7E), (0x85, 0x85), (0xA0, 0xD7FF), (0xE000, 0xFFFD),
      (0x10000, 0x10FFFF)]

/-- The tokens of a text. Each turn reads a character, but for the one at the end. -/
def tokensOf (t : Text) : Except Fault (List Token) := do
  if !t.all isAllowed then throw .malformed
  (Scan.tokens (t.length + 1)).run' { rest := t }

end Linework.Yaml
