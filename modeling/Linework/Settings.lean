import Linework.Line

/-!
# Settings

What files and edits go by: the terminator of lines, the depth of one indentation, and the
name of the encoding that files are written in.
-/

namespace Linework

structure Settings where
  newline : Newline := .lf
  indentation : Nat := 2
  encoding : Text := Text.lit "utf-8"
  deriving DecidableEq, Repr

namespace Settings

/-- The blanks of one level. -/
def unit (settings : Settings) : Text := List.replicate settings.indentation ' '

end Settings

end Linework
