import Linework.Pattern.Match

/-!
# Delimiters

What opens and what closes a block. The markers on a line are counted without regard to
strings or comments around them. The two delimiters in use are those of `do … end` and
`{ … }` blocks, and of class and module bodies with all they nest.
-/

namespace Linework

structure Delimiter where
  name : Text
  opening : Pattern
  closing : Pattern
  deriving DecidableEq, Repr

namespace Delimiter

/-- The number of markers on a line that open. -/
def opens (delimiter : Delimiter) (line : Text) : Nat := delimiter.opening.count line

/-- The number of markers on a line that close. -/
def closes (delimiter : Delimiter) (line : Text) : Nat := delimiter.closing.count line

/-- What a line adds to the depth. -/
def net (delimiter : Delimiter) (line : Text) : Int :=
  (delimiter.opens line : Int) - delimiter.closes line

/-- The edge of a word. -/
def edge : Expr := .anchor (.wordEdge .unicode)

/-- Any run of blanks. -/
def blanks : Expr := .rep 0 none .most (.set { items := [.kind .blank] })

/-- The start of the line. -/
def lineStart : Expr := .anchor .textStart

/-- One of several words. -/
def anyWord (words : List String) : Expr := Expr.choice (words.map fun w => Expr.text (Text.lit w))

/-- A word on its own. -/
def wholeWord (w : String) : Expr := Expr.sequence [edge, Expr.text (Text.lit w), edge]

/-- A pattern without flags. -/
def plain (source : String) (expr : Expr) : Pattern :=
  { source := Text.lit source, flags := {}, expr }

def blockClosing : Pattern :=
  plain "\\bend\\b|\\\x7d" (.alt (wholeWord "end") (Expr.char '}'))

/-- `do … end` and `{ … }`. -/
def block : Delimiter where
  name := Text.lit "block"
  opening := plain "\\bdo\\b|\\\x7b" (.alt (wholeWord "do") (Expr.char '{'))
  closing := blockClosing

/-- The head of a class or a module. -/
def classHeader : Pattern :=
  plain "^\\s*(?:class|module)\\b"
    (Expr.sequence [lineStart, blanks, anyWord ["class", "module"], edge])

/-- A definition at the start of a line. -/
def definition : Expr := Expr.sequence [lineStart, blanks, anyWord ["class", "module", "def"], edge]

/-- A statement at the start of a line or behind an assignment. -/
def statement : Expr :=
  Expr.sequence
    [.alt lineStart (Expr.char '='), blanks,
      anyWord ["if", "unless", "case", "while", "until", "begin"], edge]

/-- Class and module bodies, with the definitions, statements and blocks inside. -/
def classBody : Delimiter where
  name := Text.lit "class"
  opening :=
    plain ("^\\s*(?:class|module|def)\\b" ++
        "|(?:^|=)\\s*(?:if|unless|case|while|until|begin)\\b" ++ "|\\bdo\\b|\\\x7b")
      (Expr.choice [definition, statement, wholeWord "do", Expr.char '{'])
  closing := blockClosing

end Delimiter

end Linework
