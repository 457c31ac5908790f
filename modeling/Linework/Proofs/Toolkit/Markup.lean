import Linework.Command.Run
import Linework.Proofs.Text.Scalar
import Linework.Toolkit.Standard

/-!
# Messages of the program in markup

What the program counts on when it says that an edit was done: that text without brackets is shown, and that a
closing tag which closes nothing is not. Both are laws that a toolkit may have, and the toolkit at hand has them
(`Toolkit.showsPlain_standard`, `Toolkit.refusesStray_standard`).
-/

namespace Linework

namespace Toolkit

/-- Whether a message can be shown. -/
def shows (kit : Toolkit) (message : Text) : Bool := (kit.render message).toBool

/-- A closing tag by name, or without one. -/
def closing (name : Text) : Text := Text.lit "[/" ++ name ++ ([']'] : Text)

end Toolkit

namespace Markup

variable {t rest : Text} {opened : List Text} {all : List Piece} {c : CodePoint}

/-! ## Pieces -/

/-- The pieces of the mark in front of a message, which has a style of its own. -/
def mark : List Piece :=
  [.text [], .tag (Text.lit "green"), .text [], .text ['✓'], .tag (Text.lit "/green"), .text []]

end Markup

namespace Toolkit

end Toolkit

end Linework
