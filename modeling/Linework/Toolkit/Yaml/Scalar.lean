import Linework.Toolkit.Yaml.Scan
import Linework.Text.Encoding
import Linework.Text.Numeral

/-!
# Scalars of YAML

The texts of scalars: plain, between quotes, and as blocks of lines. A single line break in the
middle of a scalar is read as a blank, except in a literal block; blank lines are kept. The fuel
of the loops is the length of the text, since each turn reads a character.
-/

namespace Linework.Yaml

namespace Scan

/-- The fuel of a loop that reads a character in each turn. -/
def turns : Scan Nat := do return (← get).rest.length + 1

/-- What a folded line break and the breaks after it are read as. -/
def folded (first breaks : Text) : Text :=
  if first ≠ (['\n'] : Text) then first ++ breaks else if breaks = [] then [' '] else breaks

/-! ## Between quotes -/

/-- The characters that are written by a letter behind a backslash. -/
def escaped? : CodePoint → Option CodePoint
  | '0' => some ('\x00' : CodePoint)
  | 'a' => some ('\x07' : CodePoint)
  | 'b' => some ('\x08' : CodePoint)
  | 't' | '\t' => some ('\t' : CodePoint)
  | 'n' => some ('\n' : CodePoint)
  | 'v' => some ('\x0b' : CodePoint)
  | 'f' => some ('\x0c' : CodePoint)
  | 'r' => some ('\r' : CodePoint)
  | 'e' => some ('\x1b' : CodePoint)
  | ' ' => some (' ' : CodePoint)
  | '"' => some ('"' : CodePoint)
  | '\\' => some ('\\' : CodePoint)
  | '/' => some ('/' : CodePoint)
  | 'N' => some ('\x85' : CodePoint)
  | '_' => some ('\u00a0' : CodePoint)
  | 'L' => some ('\u2028' : CodePoint)
  | 'P' => some ('\u2029' : CodePoint)
  | _ => none

/-- The number of digits behind a letter that announces a code. -/
def codeWidth? : CodePoint → Option Nat
  | 'x' => some 2
  | 'u' => some 4
  | 'U' => some 8
  | _ => none

/-- Blank lines inside quotes. -/
def quotedBreaks : (fuel : Nat) → Scan Text
  | 0 => return []
  | fuel + 1 => do
    if ← atBoundary then refuse
    dropWhile isBlank
    if isBreak (← peek 0) then return (← lineBreak) ++ (← quotedBreaks fuel) else return []

/-- A character behind a backslash. -/
def escape : Scan Text := do
  let c ← peek 0
  match escaped? c, codeWidth? c with
  | some written, _ =>
    skip 1
    return [written]
  | none, some width =>
    skip 1
    let digits := (← get).rest.take width
    if digits.length < width || !digits.all Text.isHexDigit then refuse
    let code := Text.numeral 16 digits
    if 0x10FFFF < code then throw .noCharacter
    skip width
    return [CodePoint.ofNat code]
  | none, none =>
    if !isBreak c then refuse
    let _ ← lineBreak
    quotedBreaks (← turns)

/-- A stretch without blanks, up to the closing quote. -/
def quotedWord (double : Bool) : (fuel : Nat) → Scan Text
  | 0 => return []
  | fuel + 1 => do
    let run ← takeWhile fun c => !isGap c && c != '\'' && c != '"' && c != '\\'
    let c ← peek 0
    if !double && c = '\'' && (← peek 1) = '\'' then
      skip 2
      return run ++ ('\'' : CodePoint) :: (← quotedWord double fuel)
    else if (double && c = '\'') || (!double && (c = '"' || c = '\\')) then
      skip 1
      return run ++ c :: (← quotedWord double fuel)
    else if double && c = '\\' then
      skip 1
      return run ++ (← escape) ++ (← quotedWord double fuel)
    else return run

/-- A stretch of blanks and line breaks. -/
def quotedGap : Scan Text := do
  let blanks ← takeWhile isBlank
  let c ← peek 0
  if c = endMark then refuse
  if !isBreak c then return blanks
  let first ← lineBreak
  return folded first (← quotedBreaks (← turns))

/-- The stretches up to the closing quote. -/
def quotedBody (quote : CodePoint) : (fuel : Nat) → Scan Text
  | 0 => refuse
  | fuel + 1 => do
    let word ← quotedWord (quote == '"') (← turns)
    if (← peek 0) = quote then return word
    return word ++ (← quotedGap) ++ (← quotedBody quote fuel)

def quoted : Scan Token := do
  let quote ← peek 0
  skip 1
  let content ← quotedBody quote (← turns)
  skip 1
  return .scalar content false

/-! ## Plain -/

/-- Whether a colon in front of a character ends a plain scalar. -/
def endsKey (inFlow : Bool) (c : CodePoint) : Bool :=
  isGap c || (inFlow && ([',', '[', ']', '{', '}'] : Text).contains c)

/-- The characters of a plain scalar up to a blank. -/
def plainRun (inFlow : Bool) : Text → Text
  | [] => []
  | c :: rest =>
    if isGap c || (c == ':' && endsKey inFlow (rest.headD endMark)) ||
      (inFlow && ([',', '?', '[', ']', '{', '}'] : Text).contains c) then []
    else c :: plainRun inFlow rest

/-- Blank lines and the blanks in front of the next line; `none` at the boundary of a document. -/
def plainBreaks : (fuel : Nat) → Scan (Option Text)
  | 0 => return none
  | fuel + 1 => do
    if ← atBoundary then return none
    dropWhile (fun c : CodePoint => c == ' ')
    if !isBreak (← peek 0) then return some []
    let first ← lineBreak
    return (← plainBreaks fuel).map (first ++ ·)

/-- What stands between two words of a plain scalar, and whether a new line has begun. -/
def plainGap : Scan (Text × Bool) := do
  let blanks ← takeWhile (fun c : CodePoint => c == ' ')
  if !isBreak (← peek 0) then return (blanks, false)
  let first ← lineBreak
  match ← plainBreaks (← turns) with
  | none => return ([], true)
  | some breaks => return (folded first breaks, true)

/-- The words of a plain scalar, with `gap` in front of them. After a scalar that ends with its
line a key may follow. -/
def plainWords (gap : Text) : (fuel : Nat) → Scan Text
  | 0 => return []
  | fuel + 1 => do
    let s ← get
    let word := plainRun (s.flow != 0) s.rest
    if (← peek 0) = '#' || word = [] then return []
    skip word.length
    let (between, newLine) ← plainGap
    modify fun s => { s with keyAllowed := newLine }
    let s ← get
    let outside : Bool := s.flow = 0 && (s.column : Int) < s.indent + 1
    if between = [] || (← peek 0) = '#' || outside then return gap ++ word
    return gap ++ word ++ (← plainWords between fuel)

def plain : Scan Token := do return .scalar (← plainWords [] (← turns)) true

/-! ## Blocks -/

/-- What becomes of the line breaks at the end of a block. -/
inductive Chomp where
  | strip
  | clip
  | keep
  deriving DecidableEq, Repr

def chomp? : CodePoint → Option Chomp
  | '+' => some .keep
  | '-' => some .strip
  | _ => none

/-- A digit that tells the indentation of a block. -/
def depth? : Scan (Option Nat) := do
  let c ← peek 0
  if !c.isDigit then return none
  if c = '0' then refuse
  skip 1
  return some (Text.digitValue c)

def chomping? : Scan (Option Chomp) := do
  let found := chomp? (← peek 0)
  if found.isSome then skip 1
  return found

/-- The head of a block: the two indicators stand in either order. -/
def blockHead : Scan (Chomp × Option Nat) := do
  let early ← chomping?
  let depth ← depth?
  let late ← if early.isNone && depth.isSome then chomping? else pure none
  if !isWordEnd (← peek 0) then refuse
  restOfLine
  return ((early.or late).getD .clip, depth)

/-- The blank lines in front of a block without a given indentation, and the deepest column they
reach. -/
def blockLead (deepest : Nat) : (fuel : Nat) → Scan (Text × Nat)
  | 0 => return ([], deepest)
  | fuel + 1 => do
    let c ← peek 0
    if isBreak c then
      let first ← lineBreak
      let (breaks, deepest) ← blockLead deepest fuel
      return (first ++ breaks, deepest)
    else if c = ' ' then
      skip 1
      blockLead (max deepest (← get).column) fuel
    else return ([], deepest)

/-- Skips blanks up to a column. -/
def indentTo (column : Nat) : Scan Unit := do
  let s ← get
  skip (s.rest.take (column - s.column) |>.takeWhile (fun c : CodePoint => c == ' ')).length

/-- The blank lines inside a block. -/
def blockBreaks (column : Nat) : (fuel : Nat) → Scan Text
  | 0 => return []
  | fuel + 1 => do
    indentTo column
    if isBreak (← peek 0) then return (← lineBreak) ++ (← blockBreaks column fuel) else return []

/-- Whether a line of the block begins here. -/
def onBlockLine (column : Nat) : Scan Bool := do
  return (← get).column = column && (← peek 0) != endMark

/-- The lines of a block behind blank lines `breaks`: the text, the break after the last line and
the blank lines after it. -/
def blockLines (fold : Bool) (column : Nat) (breaks : Text) : (fuel : Nat) → Scan (Text × Text × Text)
  | 0 => return ([], [], breaks)
  | fuel + 1 => do
    if !(← onBlockLine column) then return ([], [], breaks)
    let flush := !isBlank (← peek 0)
    let line ← takeWhile fun c => !isLineEnd c
    let last ← lineBreak
    let later ← blockBreaks column (← turns)
    if !(← onBlockLine column) then return (breaks ++ line, last, later)
    let joint : Text :=
      if fold && last = (['\n'] : Text) && flush && !isBlank (← peek 0) then
        if later = [] then [' '] else []
      else last
    let (more, ending) ← blockLines fold column later fuel
    return (breaks ++ line ++ joint ++ more, ending)

def block (fold : Bool) : Scan Token := do
  skip 1
  let (chomp, depth) ← blockHead
  let least := max 1 ((← get).indent + 1).toNat
  let (breaks, column) ← match depth with
    | some depth =>
      let column := least + depth - 1
      pure (← blockBreaks column (← turns), column)
    | none =>
      let (breaks, deepest) ← blockLead 0 (← turns)
      pure (breaks, max least deepest)
  let (content, last, later) ← blockLines fold column breaks (← turns)
  match chomp with
  | .strip => return .scalar content false
  | .clip => return .scalar (content ++ last) false
  | .keep => return .scalar (content ++ last ++ later) false

end Scan

end Linework.Yaml
