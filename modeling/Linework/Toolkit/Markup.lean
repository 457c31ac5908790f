import Linework.Toolkit.Markup.Style
import Linework.Toolkit.Markup.Screen

/-!
# Markup

Messages may hold tags in brackets, which set the style of the text behind them until they are
closed. A tag shows nothing itself; a backslash in front of one makes it text. A closing tag needs
a tag to close.
-/

namespace Linework

namespace Markup

inductive Piece where
  | text (t : Text)
  | tag (body : Text)
  deriving DecidableEq, Repr

/-- What a tag may begin with. -/
def opensTag (c : CodePoint) : Bool := ('a' ≤ c && c ≤ 'z') || c == '#' || c == '/' || c == '@'

/-- The body of a tag, read behind its bracket, and the number of characters up to its end. -/
def body? : Text → Option Text
  | [] => none
  | first :: rest =>
    let more := rest.takeWhile fun c : CodePoint => c != ']' && c != '['
    if opensTag first && (rest.drop more.length).head? = some (']' : CodePoint) then some (first :: more) else none

/-- A tag behind backslashes: their number and its body. -/
def escapedTag? (t : Text) : Option (Nat × Text) :=
  let count := (t.takeWhile (fun c : CodePoint => c == '\\')).length
  match t.drop count with
  | '[' :: rest => (body? rest).map fun body => (count, body)
  | _ => none

/-- The pieces of a tag behind backslashes. Two of them show as one, and an odd one shows the tag. -/
def tagPieces (backslashes : Nat) (body : Text) : List Piece :=
  let shown := Piece.text (List.replicate (backslashes / 2) '\\')
  if backslashes % 2 = 1 then [shown, .text (('[' : CodePoint) :: body ++ ([']'] : Text))] else [shown, .tag body]

/-- Adds a character to the text in front of pieces. -/
def consText (c : CodePoint) : List Piece → List Piece
  | .text t :: rest => .text (c :: t) :: rest
  | pieces => .text [c] :: pieces

/-- The pieces of a message; `skip` characters belong to the tag read last. -/
def pieces : (skip : Nat) → Text → List Piece
  | _, [] => []
  | skip + 1, _ :: rest => pieces skip rest
  | 0, c :: rest =>
    match escapedTag? (c :: rest) with
    | some (count, body) => tagPieces count body ++ .text [] :: pieces (count + body.length + 1) rest
    | none => consText c (pieces 0 rest)

/-! ## Showing -/

/-- Takes the last opened tag of a name away. -/
def close? (name : Text) (opened : List Text) : Option (List Text) :=
  if name = [] then (match opened with | [] => none | _ :: rest => some rest)
  else if opened.contains name then some (opened.erase name) else none

/-- The name of a tag, without its parameters. -/
def tagName (body : Text) : Text := body.takeWhile (fun c : CodePoint => c != '=')

/-- A bracket behind a backslash is a bracket. -/
def unescaped : Text → Text
  | [] => []
  | '\\' :: '[' :: rest => '[' :: unescaped rest
  | c :: rest => c :: unescaped rest

/-- The text of pieces, with tags `opened`, the last of them first. -/
def textOf? (opened : List Text) : List Piece → Option Text
  | [] => some []
  | .text t :: rest => (textOf? opened rest).map (unescaped t ++ ·)
  | .tag body :: rest =>
    match tagName body with
    | '/' :: name =>
      let bare := Style.trimmed name
      (close? (if bare = [] then [] else Style.normalName bare) opened).bind fun left => textOf? left rest
    | name => textOf? (Style.normalName name :: opened) rest

/-- What is shown of a message, `none` if a closing tag closes nothing. -/
def shown? (message : Text) : Option Text := (textOf? [] (pieces 0 message)).map Text.onScreen

end Markup

end Linework
