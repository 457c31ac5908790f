import Linework.Toolkit.Yaml.Node
import Linework.Toolkit.Yaml.Number
import Linework.Settings.Value
import Linework.Toolkit.Yaml.Base64

/-!
# Documents of YAML

The value of a text. Tables that are merged into another come before its own pairs, the first of
a list of them last, so that of two pairs with one key the right one counts.
-/

namespace Linework.Yaml

namespace Node

/-- The pairs of a table that is merged in. -/
def mergedPairs : Node → Except Fault (List (Node × Node))
  | mapping _ pairs => .ok pairs
  | loop true => .ok []
  | _ => .error .malformed

/-- What a merge key stands for. -/
def merged : Node → Except Fault (List (Node × Node))
  | mapping _ pairs => .ok pairs
  | sequence _ items => do return (← items.mapM mergedPairs).reverse.flatten
  | loop _ => .ok []
  | scalar .. => .error .malformed

def isMerge : Node → Bool
  | scalar tag _ => tag = .merge
  | _ => false

/-- A key that stands for itself. -/
def plainKey : Node → Node
  | scalar .default content => scalar .text content
  | node => node

/-- The pairs of a table, those that are merged in first. -/
def flatPairs (pairs : List (Node × Node)) : Except Fault (List (Node × Node)) := do
  let (merges, own) := pairs.partition fun pair => pair.1.isMerge
  let before ← merges.mapM fun pair => merged pair.2
  return before.flatten ++ own.map fun pair => (plainKey pair.1, pair.2)

mutual

/-- A node with all merges carried out. -/
def flat : Node → Except Fault Node
  | scalar tag content => .ok (scalar tag content)
  | loop isMapping => .ok (loop isMapping)
  | sequence tag items => do return sequence tag (← flatItems items)
  | mapping tag pairs => do
    let pairs ← flatEach pairs
    if tag = .mapping || tag = .set then return mapping tag (← flatPairs pairs)
    else return mapping tag pairs

def flatItems : List Node → Except Fault (List Node)
  | [] => .ok []
  | node :: rest => do return (← flat node) :: (← flatItems rest)

def flatEach : List (Node × Node) → Except Fault (List (Node × Node))
  | [] => .ok []
  | (key, value) :: rest => do return (← flat key, ← flat value) :: (← flatEach rest)

end

/-- The value of a tagged text. -/
def scalarValue (content : Text) : Tag → Except Fault Value
  | .null => .ok .null
  | .flag => return .flag (← Tag.flagOf content)
  | .whole => return .whole (← Tag.wholeOf content)
  | .real => return .real (← Tag.realOf content)
  | .text => .ok (.text content)
  | .binary =>
    match Base64.decode? content with
    | some bytes => if content.all fun c => c.toNat < 128 then .ok (.bytes bytes) else .error .malformed
    | none => .error .malformed
  | .moment =>
    match Moment.ofText? false content with
    | some m => do
      m.check
      return .moment
    | none => .error .notMoment
  | _ => .error .malformed

mutual

/-- The value of a node without merges. -/
def value : Node → Except Fault Value
  | scalar tag content => scalarValue content tag
  | loop isMapping => .ok (if isMapping then .table [] else .list [])
  | sequence tag items =>
    match tag with
    | .sequence => return .list (← values items)
    | .orderedMap | .pairs => do
      singles items
      return .collection
    | _ => .error .malformed
  | mapping tag pairs =>
    match tag with
    | .mapping => return .table (← valuePairs pairs)
    | .set => do
      let _ ← valuePairs pairs
      return .collection
    | _ => .error .malformed

def values : List Node → Except Fault (List Value)
  | [] => .ok []
  | node :: rest => do return (← value node) :: (← values rest)

def valuePairs : List (Node × Node) → Except Fault (List (Value × Value))
  | [] => .ok []
  | (key, node) :: rest => do
    let key ← value key
    if !key.isKey then throw .malformed
    return (key, ← value node) :: (← valuePairs rest)

/-- Checks entries that are to be tables of one pair. -/
def singles : List Node → Except Fault Unit
  | [] => .ok ()
  | mapping _ [(key, node)] :: rest => do
    let _ ← value key
    let _ ← value node
    singles rest
  | _ => .error .malformed

end

end Node

/-- The value of a text; one without a document holds nothing. -/
def valueOf (t : Text) : Except Fault Value := do
  match ← Node.ofText t with
  | none => return .null
  | some node => (← node.flat).value

end Linework.Yaml
