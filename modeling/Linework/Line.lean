import Linework.Text.Blank
import Linework.Failure

/-!
# Lines

A content as lines that keep their terminators, so that joining the lines gives the content
back. Which terminator splits a content is the caller's choice; contents to insert are split
at any of the three in use and get one terminator for all.
-/

namespace Linework

/-- The line terminators a file may use. -/
inductive Newline where
  | lf
  | crlf
  | cr
  deriving DecidableEq, Repr

namespace Newline

def text : Newline → Text
  | lf => ['\n']
  | crlf => ['\r', '\n']
  | cr => ['\r']

/-- In the order in which they are offered. -/
def all : List Newline := [lf, crlf, cr]

def ofText? (t : Text) : Option Newline := all.find? fun newline => newline.text = t

theorem text_ne_nil (newline : Newline) : newline.text ≠ [] := by
  cases newline <;> simp [text]

end Newline

namespace Line

theorem length_back_lt_of_cut? {sep content front back : Text} (hsep : sep ≠ [])
    (h : Text.cut? sep content = some (front, back)) : back.length < content.length := by
  have hlen := congrArg List.length (Text.eq_append_of_cut? h)
  have hpos := List.length_pos_iff.2 hsep
  simp only [List.length_append] at hlen
  omega

/-- The lines of a content, each but perhaps the last ending at the first `newline` in it. With
an empty terminator the content is one line. -/
def split (newline content : Text) : List Text :=
  if hsep : newline = [] then (if content = [] then [] else [content])
  else match hcut : Text.cut? newline content with
    | none => if content = [] then [] else [content]
    | some (front, back) =>
      have := length_back_lt_of_cut? hsep hcut
      (front ++ newline) :: split newline back
termination_by content.length

/-- The lines of a content at a terminator that may be any text; an empty one is refused. -/
def split? (newline content : Text) : Except Failure (List Text) :=
  if newline = [] then .error .emptySeparator else .ok (split newline content)

/-- The terminator at the end of a line. -/
def terminator? (line : Text) : Option Text :=
  (([Newline.crlf, .lf, .cr].map Newline.text).find? fun newline => line.endsIn newline)

/-- The terminator of the first terminated line. -/
def detect (lines : List Text) (default : Text) : Text :=
  (lines.findSome? terminator?).getD default

def isTerminator (c : CodePoint) : Bool := c == '\n' || c == '\r'

/-- Whether a line ends in a terminator, of whatever kind. -/
def isTerminated (line : Text) : Bool := line.getLast?.any isTerminator

/-- The pieces of a text between terminators, `\r\n` taken as one. -/
def rows : Text → List Text
  | [] => [[]]
  | '\r' :: '\n' :: rest => [] :: rows rest
  | c :: rest =>
    if isTerminator c then [] :: rows rest
    else match rows rest with
      | [] => [[c]]
      | row :: more => (c :: row) :: more

/-- The rows of a text to insert; a terminator at its end opens no row. -/
def insertedRows (t : Text) : List Text :=
  let all := rows t
  if 1 < all.length ∧ all.getLast? = some [] then all.dropLast else all

/-- Texts to insert as terminated lines. An empty text gives an empty line. -/
def expand (newline : Text) (texts : List Text) : List Text :=
  texts.flatMap fun t => (insertedRows t).map (· ++ newline)

/-- The leading white space of a line, its terminator not counted. -/
def indentation (line : Text) : Text := (Text.dropEndWhile isTerminator line).takeWhile Text.isBlank

/-- Puts `offset` before a line, unless the line is blank. -/
def indentLine (offset line : Text) : Text :=
  if Text.isAllBlank line then line else offset ++ line

/-- Puts `offset` before every line that is not blank. -/
def indent (offset : Text) (lines : List Text) : List Text := lines.map (indentLine offset)

/-- Adds a terminator to a line that has none. -/
def terminate (newline line : Text) : Text := if isTerminated line then line else line ++ newline

theorem flatten_split (newline content : Text) : (split newline content).flatten = content := by
  fun_induction split newline content with
  | case1 => simp_all
  | case2 => simp
  | case3 => simp_all
  | case4 => simp
  | case5 content _ front back hcut _ ih =>
    rw [List.flatten_cons, ih, ← Text.eq_append_of_cut? hcut]

theorem split_nil (newline : Text) : split newline [] = [] := by
  unfold split
  repeat' split
  · rfl
  · rename_i h
    exact absurd rfl h
  · rfl
  · rename_i h
    exact absurd rfl h
  · rename_i hsep _ _ hcut
    exact absurd (length_back_lt_of_cut? hsep hcut) (Nat.not_lt_zero _)

theorem rows_ne_nil (t : Text) : rows t ≠ [] := by
  fun_cases rows t <;> simp_all

theorem length_indent (offset : Text) (lines : List Text) :
    (indent offset lines).length = lines.length := List.length_map _

end Line

end Linework
