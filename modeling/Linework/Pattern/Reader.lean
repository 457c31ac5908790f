import Linework.Pattern.Width
import Linework.Text.Identifier
import Linework.Text.Numeral

/-!
# Reading patterns

From a written pattern to its expression. Alternatives are read from sequences and sequences
from items; a group reads alternatives again. The fuel of these three is the length of the
pattern, since each descent and each item has read a token.
-/

namespace Linework.Pattern

open Read

/-- An item of a sequence, with what a repetition sign after it has to know. -/
inductive Item where
  | anchor (e : Expr)
  | repeated (e : Expr)
  | other (e : Expr)

namespace Item

def expr : Item → Expr
  | anchor e | repeated e | other e => e

end Item

/-- How the characters around a place are read: the flags in force, and whether blanks are
skipped. -/
structure Mode where
  flags : PatternFlags
  verbose : Bool

/-- The characters that are written by a letter. -/
def controlLetter? : CodePoint → Option Nat
  | 'a' => some 7
  | 'b' => some 8
  | 'f' => some 12
  | 'n' => some 10
  | 'r' => some 13
  | 't' => some 9
  | 'v' => some 11
  | '\\' => some 92
  | _ => none

/-- The classes that are written by a letter. -/
def classLetter? : CodePoint → Option SetItem
  | 'd' => some (.kind .digit)
  | 'D' => some (.unlike .digit)
  | 's' => some (.kind .blank)
  | 'S' => some (.unlike .blank)
  | 'w' => some (.kind .word)
  | 'W' => some (.unlike .word)
  | _ => none

/-- The anchors that are written by a letter. -/
def anchorLetter? (flags : PatternFlags) : CodePoint → Option Anchor
  | 'A' => some .textStart
  | 'b' => some (.wordEdge flags.alphabet)
  | 'B' => some (.notWordEdge flags.alphabet)
  | 'Z' => some .textEnd
  | _ => none

/-- The set of one item under some flags. -/
def setOf (flags : PatternFlags) (items : List SetItem) (negated : Bool) : Expr :=
  .set { items, negated, alphabet := flags.alphabet, ignoresCase := flags.ignoreCase }

/-- An escape by a fixed number of hexadecimal digits; `none` past the last code point. -/
def hexEscape (c : CodePoint) (digits : Nat) : Read (Option Nat × Text) := do
  let code ← takeWhile Text.isHexDigit digits
  let escape : Text := '\\' :: c :: code
  if code.length ≠ digits then fail (.incompleteEscape escape) escape.length
  let n := Text.numeral 16 code
  return (if n < 0x110000 then some n else none, escape)

/-- A character by its name; no names are known. -/
def namedEscape : Read Nat := do
  if !(← accept '{') then fail .missingBrace
  let name ← nameUntil '}' (Text.lit "character name")
  fail (.unknownCharacter name) (name.length + 4)

/-- The escapes by code that both places know; none for any other letter. -/
def codeEscape? (c : CodePoint) : Read (Option Nat) := do
  let digits? : Option Nat :=
    if c = 'x' then some 2 else if c = 'u' then some 4 else if c = 'U' then some 8 else none
  match digits? with
  | some digits =>
    match ← hexEscape c digits with
    | (some n, _) => return some n
    | (none, escape) => fail (.badEscape escape) escape.length
  | none => if c = 'N' then return some (← namedEscape) else return none

/-- A character that stands for itself after a backslash; letters do not. -/
def plainEscape (c : CodePoint) : Read Nat := do
  if c.isAlpha then fail (.badEscape ['\\', c]) 2
  return c.toNat

/-- An escape inside brackets. -/
def setEscape (c : CodePoint) : Read SetItem := do
  match controlLetter? c, classLetter? c with
  | some n, _ => return .code n
  | none, some item => return item
  | none, none =>
    match ← codeEscape? c with
    | some n => return .code n
    | none =>
      if Text.isOctalDigit c then
        let digits := c :: (← takeWhile Text.isOctalDigit 2)
        if 0o377 < Text.numeral 8 digits then fail (.largeOctal ('\\' :: digits)) (digits.length + 1)
        return .code (Text.numeral 8 digits)
      else if c.isDigit then fail (.badEscape ['\\', c]) 2
      else return .code (← plainEscape c)

/-- Whether a group has been closed. -/
def isClosed (s : Reading) (index : Nat) : Bool := (s.groups[index - 1]?).any (·.isSome)

/-- A lookbehind may refer only to groups that were closed before it. -/
def checkLookbehind (index : Nat) : Read Unit := do
  let s ← get
  match s.lookbehind with
  | none => return
  | some bound =>
    if !isClosed s index then fail .openGroup
    if bound ≤ index then fail .sameLookbehind

/-- A reference to what a group matched. -/
def backref (flags : PatternFlags) (index : Nat) : Expr :=
  .backref index flags.alphabet flags.ignoreCase

/-- An escape that starts with a digit other than zero: an octal code of three digits, or else a
reference to a group. -/
def digitEscape (flags : PatternFlags) (c : CodePoint) : Read Expr := do
  let second ← takeWhile CodePoint.isDigit 1
  let third ←
    if second.all Text.isOctalDigit && Text.isOctalDigit c && second ≠ [] then takeWhile Text.isOctalDigit 1
    else pure []
  let digits := c :: second ++ third
  if third ≠ [] then
    if 0o377 < Text.numeral 8 digits then fail (.largeOctal ('\\' :: digits)) (digits.length + 1)
    return setOf flags [.code (Text.numeral 8 digits)] false
  let index := Text.numeral 10 digits
  let s ← get
  if s.groups.length < index then fail (.invalidReference index) digits.length
  if !isClosed s index then fail .openGroup (digits.length + 1)
  checkLookbehind index
  return backref flags index

/-- An escape outside brackets. -/
def escape (flags : PatternFlags) (c : CodePoint) : Read Item := do
  match anchorLetter? flags c, classLetter? c, controlLetter? c with
  | some a, _, _ => return .anchor (.anchor a)
  | none, some item, _ => return .other (setOf flags [item] false)
  | none, none, some n => return .other (setOf flags [.code n] false)
  | none, none, none =>
    match ← codeEscape? c with
    | some n => return .other (setOf flags [.code n] false)
    | none =>
      if c = '0' then
        let digits := c :: (← takeWhile Text.isOctalDigit 2)
        return .other (setOf flags [.code (Text.numeral 8 digits)] false)
      else if c.isDigit then return .other (← digitEscape flags c)
      else return .other (setOf flags [.code (← plainEscape c)] false)

/-- One member of a set, from its first token. -/
def setMember : PatternToken → Read SetItem
  | .escape c => setEscape c
  | .plain c => return .code c.toNat
  | .dangling => return .code 92

/-- The members of a set up to the closing bracket; `here` is where the set began. A bracket in
front of all members is one of them. -/
def setMembers (here : Nat) : (fuel : Nat) → List SetItem → Read (List SetItem)
  | 0, items => return items
  | fuel + 1, items => do
    let unterminated {α : Type} : Read α := do throw ⟨.unterminatedSet, some here⟩
    match ← next? with
    | none => unterminated
    | some this =>
      if this = .plain ']' && items ≠ [] then return items
      let low ← setMember this
      if !(← accept '-') then setMembers here fuel (items ++ [low])
      else match ← next? with
        | none => unterminated
        | some (.plain ']') => return items ++ [low, .code '-'.toNat]
        | some that =>
          let high ← setMember that
          let badRange {α : Type} : Read α :=
            fail (.badRange this.text that.text) (this.text.length + 1 + that.text.length)
          match low, high with
          | .code a, .code b =>
            if b < a then badRange
            setMembers here fuel (items ++ [.range a b])
          | _, _ => badRange

/-- A set, after its opening bracket. -/
def bracketSet (flags : PatternFlags) : Read Expr := do
  let here := (← pos) - 1
  let negated ← accept '^'
  let items ← setMembers here ((← left) + 1) []
  return setOf flags items negated

/-- The greatest bound of a repetition, and more. -/
def repeatLimit : Nat := 4294967295

/-- The bounds that a repetition sign gives; none if a brace is only a brace. -/
def repeatBounds? (sign : CodePoint) : Read (Option (Nat × Option Nat)) := do
  if sign = '?' then return some (0, some 1)
  if sign = '*' then return some (0, none)
  if sign = '+' then return some (1, none)
  if (← peek?) = some (.plain '}') then return none
  let saved ← get
  let low ← takeWhile CodePoint.isDigit (← left)
  let high ← if ← accept ',' then takeWhile CodePoint.isDigit (← left) else pure low
  if !(← accept '}') then
    set saved
    return none
  let least := Text.numeral 10 low
  if repeatLimit ≤ least then throw ⟨.hugeRepeat, none⟩
  if high = [] then return some (least, none)
  let most := Text.numeral 10 high
  if repeatLimit ≤ most then throw ⟨.hugeRepeat, none⟩
  if most < least then throw ⟨.repeatOrder, some saved.pos⟩
  return some (least, some most)

/-- What a sign behind a repetition makes of it. -/
def greed : Read Greed := do
  if ← accept '?' then return .fewest
  if ← accept '+' then return .hold
  return .most

/-- A repetition sign after some items, the last of them first. -/
def repetition (flags : PatternFlags) (sign : CodePoint) (items : List Item) : Read (List Item) := do
  let here := (← pos) - 1
  match ← repeatBounds? sign with
  | none => return .other (setOf flags [.code sign.toNat] false) :: items
  | some (least, most) =>
    match items with
    | [] | .anchor _ :: _ => throw ⟨.nothingToRepeat, some here⟩
    | .repeated _ :: _ => throw ⟨.multipleRepeat, some here⟩
    | .other body :: earlier =>
      return .repeated (.rep least most (← greed) body) :: earlier

/-- The switches a letter stands for. -/
structure FlagChange where
  flags : PatternFlags := {}
  unicode : Bool := false
  /-- A switch that only the whole pattern may have. -/
  global : Bool := false

namespace FlagChange

def ofLetter? : CodePoint → Option FlagChange
  | 'i' => some { flags := { ignoreCase := true } }
  | 'm' => some { flags := { multiline := true } }
  | 's' => some { flags := { dotAll := true } }
  | 'x' => some { flags := { verbose := true } }
  | 'a' => some { flags := { ascii := true } }
  | 'u' => some { unicode := true }
  | 't' => some { global := true }
  | _ => none

def add (a b : FlagChange) : FlagChange :=
  { flags :=
      { ignoreCase := a.flags.ignoreCase || b.flags.ignoreCase
        multiline := a.flags.multiline || b.flags.multiline
        dotAll := a.flags.dotAll || b.flags.dotAll
        verbose := a.flags.verbose || b.flags.verbose
        ascii := a.flags.ascii || b.flags.ascii }
    unicode := a.unicode || b.unicode
    global := a.global || b.global }

/-- The flags inside a group that turns some on and some off. -/
def apply (on off : FlagChange) (flags : PatternFlags) : PatternFlags :=
  { ignoreCase := (flags.ignoreCase || on.flags.ignoreCase) && !off.flags.ignoreCase
    multiline := (flags.multiline || on.flags.multiline) && !off.flags.multiline
    dotAll := (flags.dotAll || on.flags.dotAll) && !off.flags.dotAll
    verbose := (flags.verbose || on.flags.verbose) && !off.flags.verbose
    ascii := (flags.ascii && !on.unicode) || on.flags.ascii }

def overlaps (a b : FlagChange) : Bool :=
  a.flags.ignoreCase && b.flags.ignoreCase || a.flags.multiline && b.flags.multiline ||
    a.flags.dotAll && b.flags.dotAll || a.flags.verbose && b.flags.verbose

end FlagChange

/-- Whether a token may be a flag letter. -/
def isFlag : PatternToken → Bool
  | .plain c => c = 'L' || (FlagChange.ofLetter? c).isSome
  | _ => false

/-- Refuses a token that is no flag. -/
def refuseFlag {α : Type} (token : PatternToken) (otherwise : PatternCause) : Read α :=
  let letter : Bool := match token with
    | .plain c => Text.isLetter c
    | _ => false
  fail (if letter then .unknownFlag else otherwise) token.text.length

/-- Letters that turn switches on, from the first to the mark after the last. -/
def flagsOn : (fuel : Nat) → PatternToken → FlagChange → Read (FlagChange × CodePoint)
  | 0, _, on => return (on, ')')
  | fuel + 1, token, on => do
    match token with
    | .plain c =>
      if c = 'L' then fail .localeFlag
      let on := on.add ((FlagChange.ofLetter? c).getD {})
      if on.unicode && on.flags.ascii then fail .mixedFlags
      match ← next? with
      | none => fail .flagsEnd
      | some token =>
        match token with
        | .plain ')' => return (on, ')')
        | .plain '-' => return (on, '-')
        | .plain ':' => return (on, ':')
        | _ => if isFlag token then flagsOn fuel token on else refuseFlag token .flagsEnd
    | _ => return (on, ')')

/-- Letters that turn switches off, up to the colon. -/
def flagsOff : (fuel : Nat) → PatternToken → FlagChange → Read FlagChange
  | 0, _, off => return off
  | fuel + 1, token, off => do
    match token with
    | .plain c =>
      if c = 'L' || c = 'a' || c = 'u' then fail .alphabetFlagOff
      let off := off.add ((FlagChange.ofLetter? c).getD {})
      match ← next? with
      | none => fail .flagsColon
      | some token =>
        if token = .plain ':' then return off
        else if isFlag token then flagsOff fuel token off else refuseFlag token .flagsColon
    | _ => return off

/-- The switches of a group from their first token. Without a colon they are switches of the
whole pattern: they are set at once and `none` is returned. -/
def groupFlags (token : PatternToken) : Read (Option (FlagChange × FlagChange)) := do
  let (on, mark) ←
    if token = .plain '-' then pure (({} : FlagChange), ('-' : CodePoint)) else flagsOn ((← left) + 1) token {}
  if mark = ')' then
    modify fun s =>
      { s with
        flags :=
          { on.apply {} s.flags with ascii := s.flags.ascii || on.flags.ascii }
        unicodeAsked := s.unicodeAsked || on.unicode }
    return none
  if on.global then fail .globalFlagOn 1
  let off ←
    if mark = '-' then
      match ← next? with
      | none => fail .noFlag
      | some token =>
        if isFlag token then flagsOff ((← left) + 1) token {} else refuseFlag token .noFlag
    else pure {}
  if off.global then fail .globalFlagOff 1
  if on.overlaps off then fail .flagOnAndOff 1
  return some (on, off)

/-- A group's name, which has to be an identifier. -/
def groupName (mark : CodePoint) : Read Text := do
  let name ← nameUntil mark (Text.lit "group name")
  if !Text.isName name then fail (.badGroupName name) (name.length + 1)
  return name

/-- The group that has a name. -/
def groupNamed? (name : Text) : Read (Option Nat) := do
  return ((← get).names.find? (·.1 == name)).map (·.2)

/-- Opens the next group. -/
def openGroup (name : Option Text) : Read Nat := do
  modify fun s => { s with groups := s.groups ++ [none] }
  let index := (← get).groups.length
  match name with
  | none => return index
  | some name =>
    match ← groupNamed? name with
    | some earlier => fail (.redefinedGroup name index earlier) (name.length + 1)
    | none =>
      modify fun s => { s with names := s.names ++ [(name, index)] }
      return index

def widthOf (e : Expr) : Read Width := do
  let s ← get
  return Width.ofExpr (fun index => ((s.groups[index - 1]?).bind id).getD .zero) e

def closeGroup (index : Nat) (body : Expr) : Read Unit := do
  let width ← widthOf body
  modify fun s => { s with groups := s.groups.set (index - 1) (some width) }

/-- A group number: decimal digits with single underscores between them, blanks and a plus sign
around them. -/
def groupNumber? (name : Text) : Option Nat :=
  let bare := Text.dropEndWhile Text.isBlank (name.dropWhile Text.isBlank)
  let unsigned := if bare.head? = some ('+' : CodePoint) then bare.tail else bare
  let digits := Text.pieces (fun c : CodePoint => c == '_') unsigned
  if digits.all fun piece => piece ≠ [] && piece.all CodePoint.isDigit then
    some (Text.numeral 10 digits.flatten)
  else none

/-- One past the greatest number of a group. -/
def groupLimit : Nat := 1073741823

/-- The group a condition asks for, by name or by number. -/
def conditionGroup : Read Nat := do
  let name ← nameUntil ')' (Text.lit "group name")
  if Text.isName name then
    match ← groupNamed? name with
    | some index => return index
    | none => fail (.unknownGroup name) (name.length + 1)
  else match groupNumber? name with
    | none => fail (.badGroupName name) (name.length + 1)
    | some 0 => fail .badGroupNumber (name.length + 1)
    | some index =>
      if groupLimit ≤ index then fail (.invalidReference index) (name.length + 1)
      modify fun s =>
        if s.conditions.any (·.1 == index) then s
        else { s with conditions := s.conditions ++ [(index, s.pos - name.length - 1)] }
      return index

/-- Skips a comment up to its parenthesis; `start` is where it began. -/
def skipComment (start : Nat) : (fuel : Nat) → Read Unit
  | 0 => return
  | fuel + 1 => do
    match ← peek? with
    | none => throw ⟨.unterminatedComment, some start⟩
    | some _ => if (← next?) = some (.plain ')') then return else skipComment start fuel

/-- Skips up to the end of a line. -/
def skipLine : (fuel : Nat) → Read Unit
  | 0 => return
  | fuel + 1 => do
    match ← next? with
    | none | some (.plain '\n') => return
    | some _ => skipLine fuel

/-- The parenthesis that ends a group. -/
def closeParen (start : Nat) : Read Unit := do
  if !(← accept ')') then throw ⟨.unterminatedGroup, some start⟩

/-- A character that ends a sequence. -/
def endsSequence : Option PatternToken → Bool
  | none | some (.plain '|') | some (.plain ')') => true
  | _ => false

def isVerboseBlank (c : CodePoint) : Bool := c == ' ' || (9 ≤ c.toNat && c.toNat ≤ 13)

/-- What comes after the opening parenthesis of a group. -/
inductive GroupHead where
  | capture (name : Option Text)
  | plain
  | atomic
  | scoped (on off : FlagChange)
  | look (ahead negated : Bool)
  | condition (group : Nat)
  | reference (group : Nat)
  /-- Nothing is to be matched: a comment, or switches of the whole pattern. -/
  | comment
  | switches

/-- Reads the head of a group; `start` is where the group began. -/
def groupHead (start : Nat) : Read GroupHead := do
  if !(← accept '?') then return .capture none
  let next : Read PatternToken := do
    match ← next? with
    | none => fail .unexpectedEnd
    | some token => return token
  let token ← next
  match token with
  | .plain 'P' =>
    if ← accept '<' then return .capture (some (← groupName '>'))
    if ← accept '=' then
      let name ← groupName ')'
      match ← groupNamed? name with
      | none => fail (.unknownGroup name) (name.length + 1)
      | some index =>
        if !isClosed (← get) index then fail .openGroup (name.length + 1)
        checkLookbehind index
        return .reference index
    let other ← next
    fail (.unknownExtension (Text.lit "?P" ++ other.text)) (other.text.length + 2)
  | .plain ':' => return .plain
  | .plain '#' =>
    skipComment start ((← left) + 1)
    return .comment
  | .plain '=' => return .look true false
  | .plain '!' => return .look true true
  | .plain '<' =>
    match ← next with
    | .plain '=' => return .look false false
    | .plain '!' => return .look false true
    | other => fail (.unknownExtension (Text.lit "?<" ++ other.text)) (other.text.length + 2)
  | .plain '(' => return .condition (← conditionGroup)
  | .plain '>' => return .atomic
  | _ =>
    if isFlag token || token = .plain '-' then
      match ← groupFlags token with
      | none => return .switches
      | some (on, off) => return .scoped on off
    else fail (.unknownExtension ('?' :: token.text)) (token.text.length + 1)

mutual

/-- Alternatives; `top` for those of the whole pattern. -/
def alternatives : (fuel : Nat) → Mode → (top : Bool) → Read Expr
  | 0, _, _ => return .empty
  | fuel + 1, mode, top => do
    let first ← sequence fuel mode top []
    if ← accept '|' then
      return .alt first (← branches fuel mode top)
    else return first

/-- The alternatives after the first. -/
def branches : (fuel : Nat) → Mode → (top : Bool) → Read Expr
  | 0, _, _ => return .empty
  | fuel + 1, mode, top => do
    let mode ← if top then do
        let flags := (← get).flags
        pure { flags, verbose := flags.verbose : Mode }
      else pure mode
    let this ← sequence fuel mode false []
    if ← accept '|' then return .alt this (← branches fuel mode top) else return this

/-- A sequence after some items, the last of them first. Switches of the whole pattern are known
only in front of its `first` sequence. -/
def sequence : (fuel : Nat) → Mode → (first : Bool) → List Item → Read Expr
  | 0, _, _, items => return Expr.sequence (items.reverse.map Item.expr)
  | fuel + 1, mode, first, items => do
    let token? ← peek?
    if endsSequence token? then return Expr.sequence (items.reverse.map Item.expr)
    let start ← pos
    match ← next? with
    | none | some .dangling => return Expr.sequence (items.reverse.map Item.expr)
    | some (.escape c) => sequence fuel mode first ((← escape mode.flags c) :: items)
    | some (.plain c) =>
      if mode.verbose && isVerboseBlank c then sequence fuel mode first items
      else if mode.verbose && c = '#' then
        skipLine ((← left) + 1)
        sequence fuel mode first items
      else if c = '[' then
        sequence fuel mode first (.other (← bracketSet mode.flags) :: items)
      else if c = '*' || c = '+' || c = '?' || c = '{' then
        sequence fuel mode first (← repetition mode.flags c items)
      else if c = '.' then
        let outside : List SetItem := if mode.flags.dotAll then [] else [.code 10]
        sequence fuel mode first (.other (.set { items := outside, negated := true }) :: items)
      else if c = '^' then
        let a : Anchor := if mode.flags.multiline then .lineStart else .textStart
        sequence fuel mode first (.anchor (.anchor a) :: items)
      else if c = '$' then
        let a : Anchor := if mode.flags.multiline then .lineEnd else .lastEnd
        sequence fuel mode first (.anchor (.anchor a) :: items)
      else if c = '(' then
        match ← groupHead start with
        | .comment => sequence fuel mode first items
        | .switches =>
          if !first || items.length ≠ 0 then throw ⟨.lateFlags, some start⟩
          let flags := (← get).flags
          sequence fuel { flags, verbose := flags.verbose } first items
        | head => sequence fuel mode first (.other (← groupBody fuel mode start head) :: items)
      else sequence fuel mode first (.other (setOf mode.flags [.code c.toNat] false) :: items)

/-- The rest of a group after its head. -/
def groupBody : (fuel : Nat) → Mode → (start : Nat) → GroupHead → Read Expr
  | 0, _, _, _ => return .empty
  | fuel + 1, mode, start, head => do
    match head with
    | .comment | .switches => return .empty
    | .reference index => return backref mode.flags index
    | .plain =>
      let body ← alternatives fuel mode false
      closeParen start
      return body
    | .atomic =>
      let body ← alternatives fuel mode false
      closeParen start
      return .atomic body
    | .scoped on off =>
      let verbose := (mode.verbose || on.flags.verbose) && !off.flags.verbose
      let body ← alternatives fuel { flags := on.apply off mode.flags, verbose } false
      closeParen start
      return body
    | .capture name =>
      let index ← openGroup name
      let body ← alternatives fuel mode false
      closeParen start
      closeGroup index body
      return .group index body
    | .look isAhead negated =>
      let outer := (← get).lookbehind
      if !isAhead && outer.isNone then
        modify fun s => { s with lookbehind := some (s.groups.length + 1) }
      let body ← alternatives fuel mode false
      if !isAhead && outer.isNone then modify fun s => { s with lookbehind := none }
      closeParen start
      if isAhead then return .ahead negated body
      let width ← widthOf body
      if width.fixed?.isNone then modify fun s => { s with loose := true }
      return .behind negated width.least body
    | .condition index =>
      checkLookbehind index
      let yes ← sequence fuel mode false []
      let no ←
        if ← accept '|' then
          let no ← sequence fuel mode false []
          if (← peek?) = some (.plain '|') then fail .extraBranch
          pure no
        else pure .empty
      closeParen start
      return .cond index yes no

end

/-- Reads a whole pattern. -/
def readAll (source : Text) : Read Pattern := do
  checkNext
  let flags := (← get).flags
  let expr ← alternatives (4 * source.length + 4) { flags, verbose := flags.verbose } true
  let s ← get
  if s.flags.ascii && s.unicodeAsked then throw ⟨.mixedAlphabets, none⟩
  if (← peek?).isSome then fail .unbalanced
  match s.conditions.find? fun condition => s.groups.length < condition.1 with
  | some (index, place) => throw ⟨.invalidReference index, some place⟩
  | none => pure ()
  if s.loose then throw ⟨.looseLookbehind, none⟩
  return { source, flags := s.flags, expr }

/-- The pattern that a text writes under some flags. -/
def ofText (source : Text) (flags : PatternFlags := {}) : Except PatternFault Pattern :=
  match (readAll source).run { rest := PatternToken.ofText source, flags } with
  | .ok pattern _ => .ok pattern
  | .error fault _ => .error fault

end Linework.Pattern
