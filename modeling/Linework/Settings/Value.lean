import Linework.Text.Basic
import Linework.Number.Double

/-!
# Values

What a settings file can hold: scalars, lists and tables. Moments in time and sets are kept
apart from everything else, but not looked into.
-/

namespace Linework

inductive Value where
  | null
  | flag (b : Bool)
  | whole (n : Int)
  | real (d : Double)
  | text (t : Text)
  | bytes (bs : List UInt8)
  | moment
  | collection
  | list (items : List Value)
  | table (pairs : List (Value × Value))
  deriving Inhabited

namespace Value

/-- The value of a text key, the last of its entries. -/
def lookup? (key : Text) (pairs : List (Value × Value)) : Option Value :=
  (pairs.reverse.find? fun pair =>
    match pair.1 with
    | text t => t = key
    | _ => false).map (·.2)

/-- Whether a value may be the key of a table. -/
def isKey : Value → Bool
  | list _ | table _ | collection => false
  | _ => true

end Value

end Linework
