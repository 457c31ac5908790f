import Linework.Text.Quoted

/-!
# Pattern faults

Why a text is no pattern, and where. The place is missing when the fault is one of the whole
pattern; in a pattern of several lines it is given by line and column too.
-/

namespace Linework

/-- What is wrong with a pattern. -/
inductive PatternCause where
  | danglingEscape
  | incompleteEscape (escape : Text)
  | badEscape (escape : Text)
  | missingBrace
  | unknownCharacter (name : Text)
  | largeOctal (escape : Text)
  | openGroup
  | sameLookbehind
  | invalidReference (group : Nat)
  | unterminatedSet
  | badRange (low high : Text)
  | repeatOrder
  | nothingToRepeat
  | multipleRepeat
  | unexpectedEnd
  | missing (what : Text)
  | unterminatedName (mark : CodePoint)
  | badGroupName (name : Text)
  | unknownGroup (name : Text)
  | badGroupNumber
  | unknownExtension (mark : Text)
  | unterminatedComment
  | unterminatedGroup
  | extraBranch
  | lateFlags
  | unknownFlag
  | localeFlag
  | mixedFlags
  | flagsEnd
  | noFlag
  | flagsColon
  | globalFlagOn
  | globalFlagOff
  | alphabetFlagOff
  | flagOnAndOff
  | redefinedGroup (name : Text) (group earlier : Nat)
  | unbalanced
  | looseLookbehind
  /-- A bound past the greatest number of repetitions. -/
  | hugeRepeat
  /-- The flags ask for both alphabets. -/
  | mixedAlphabets
  deriving DecidableEq, Repr

/-- What is wrong with a pattern, and where. -/
structure PatternFault where
  cause : PatternCause
  pos : Option Nat
  deriving DecidableEq, Repr

namespace PatternCause

open Text

def message : PatternCause → Text
  | danglingEscape => lit "bad escape (end of pattern)"
  | incompleteEscape escape => lit "incomplete escape " ++ escape
  | badEscape escape => lit "bad escape " ++ escape
  | missingBrace => lit "missing \x7b"
  | unknownCharacter name => lit "undefined character name " ++ quoted name
  | largeOctal escape => lit "octal escape value " ++ escape ++ lit " outside of range 0-0o377"
  | openGroup => lit "cannot refer to an open group"
  | sameLookbehind => lit "cannot refer to group defined in the same lookbehind subpattern"
  | invalidReference group => lit "invalid group reference " ++ ofNat 10 group
  | unterminatedSet => lit "unterminated character set"
  | badRange low high => lit "bad character range " ++ low ++ lit "-" ++ high
  | repeatOrder => lit "min repeat greater than max repeat"
  | nothingToRepeat => lit "nothing to repeat"
  | multipleRepeat => lit "multiple repeat"
  | unexpectedEnd => lit "unexpected end of pattern"
  | missing what => lit "missing " ++ what
  | unterminatedName mark => lit "missing " ++ mark :: lit ", unterminated name"
  | badGroupName name => lit "bad character in group name " ++ quoted name
  | unknownGroup name => lit "unknown group name " ++ quoted name
  | badGroupNumber => lit "bad group number"
  | unknownExtension mark => lit "unknown extension " ++ mark
  | unterminatedComment => lit "missing ), unterminated comment"
  | unterminatedGroup => lit "missing ), unterminated subpattern"
  | extraBranch => lit "conditional backref with more than two branches"
  | lateFlags => lit "global flags not at the start of the expression"
  | unknownFlag => lit "unknown flag"
  | localeFlag => lit "bad inline flags: cannot use 'L' flag with a str pattern"
  | mixedFlags => lit "bad inline flags: flags 'a', 'u' and 'L' are incompatible"
  | flagsEnd => lit "missing -, : or )"
  | noFlag => lit "missing flag"
  | flagsColon => lit "missing :"
  | globalFlagOn => lit "bad inline flags: cannot turn on global flag"
  | globalFlagOff => lit "bad inline flags: cannot turn off global flag"
  | alphabetFlagOff => lit "bad inline flags: cannot turn off flags 'a', 'u' and 'L'"
  | flagOnAndOff => lit "bad inline flags: flag turned on and off"
  | redefinedGroup name group earlier =>
    lit "redefinition of group name " ++ quoted name ++ lit " as group " ++ ofNat 10 group ++
      lit "; was group " ++ ofNat 10 earlier
  | unbalanced => lit "unbalanced parenthesis"
  | looseLookbehind => lit "look-behind requires fixed-width pattern"
  | hugeRepeat => lit "the repetition number is too large"
  | mixedAlphabets => lit "ASCII and UNICODE flags are incompatible"

/-- Whether the pattern is misspelt; the other faults are limits of the matcher. -/
def isMisspelling : PatternCause → Bool
  | hugeRepeat | mixedAlphabets => false
  | _ => true

end PatternCause

namespace PatternFault

open Text

/-- The line and the column of a place, both from one. -/
def lineColumn (source : Text) (pos : Nat) : Nat × Nat :=
  let earlier := source.take pos
  ((earlier.filter fun c : CodePoint => c == '\n').length + 1,
    (earlier.reverse.takeWhile fun c : CodePoint => c != '\n').length + 1)

def message (source : Text) (fault : PatternFault) : Text :=
  match fault.pos with
  | none => fault.cause.message
  | some pos =>
    fault.cause.message ++ lit " at position " ++ ofNat 10 pos ++
      (if source.contains '\n' then
        let place := lineColumn source pos
        lit " (line " ++ ofNat 10 place.1 ++ lit ", column " ++ ofNat 10 place.2 ++ lit ")"
      else [])

end PatternFault

end Linework
