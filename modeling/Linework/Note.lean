import Linework.Text.Basic

/-!
# Notes

What operations tell about the work they have done.
-/

namespace Linework

inductive Note where
  | wrote (characters : Nat) (path : Text)
  | removed (path : Text)
  | removedTree (path : Text)
  /-- Targets are kept as they are shown. -/
  | blockTop (target path : Text)
  | blockBottom (target path : Text)
  | classBottom (target path : Text)
  | removedBlock (target : Text) (first last : Nat) (path : Text)
  deriving DecidableEq, Repr

namespace Note

open Text

def message : Note → Text
  | wrote characters path => lit "Wrote " ++ ofNat 10 characters ++ lit " characters to " ++ path
  | removed path => lit "Removed " ++ path
  | removedTree path => lit "Removed " ++ path ++ lit " recursively"
  | blockTop target path => lit "Injected at top of block " ++ target ++ lit " in " ++ path
  | blockBottom target path => lit "Injected at bottom of block " ++ target ++ lit " in " ++ path
  | classBottom target path => lit "Injected at bottom of class " ++ target ++ lit " in " ++ path
  | removedBlock target first last path =>
    lit "Removed block " ++ target ++ lit " (lines " ++ ofNat 10 first ++ lit "-" ++ ofNat 10 last ++
      lit ") from " ++ path

end Note

end Linework
