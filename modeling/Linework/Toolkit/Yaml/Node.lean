import Linework.Toolkit.Yaml.Tokens
import Linework.Toolkit.Yaml.Tag
import Linework.Toolkit.Yaml.Moment

/-!
# Nodes of YAML

The tree that tokens describe. An alias stands for the node its anchor is at, and inside that very
node for a loop. The fuel of the readers is a multiple of the number of tokens: a reader that
calls another either has read a token or calls one that will.
-/

namespace Linework.Yaml

inductive Node where
  | scalar (tag : Tag) (content : Text)
  | sequence (tag : Tag) (items : List Node)
  | mapping (tag : Tag) (pairs : List (Node × Node))
  /-- A node around this place. -/
  | loop (isMapping : Bool)
  deriving Inhabited

namespace Node

/-- A node without a text and without a tag. -/
def empty : Node := scalar .null []

end Node

/-- What plain text stands for. -/
def Tag.ofPlain (t : Text) : Tag :=
  if isFlag t then flag
  else if isReal t then real
  else if isWhole t then whole
  else if t = (['<', '<'] : Text) then merge
  else if isNull t then null
  else if (Moment.ofText? true t).isSome then moment
  else if t = (['='] : Text) then default
  else text

structure TreeReader where
  tokens : List Token
  handles : List (Text × Text) := []
  anchors : List (Text × Node) := []

abbrev ReadTree := StateT TreeReader (Except Fault)

namespace ReadTree

def refuse {α : Type} : ReadTree α := throw .malformed

/-- The next token; past the last one the text has ended. -/
def peek : ReadTree Token := do return (← get).tokens.headD .streamEnd

def drop : ReadTree Unit := modify fun s => { s with tokens := s.tokens.tail }

/-- Drops a token if it is the next one. -/
def accept (token : Token) : ReadTree Bool := do
  if (← peek) = token then
    drop
    return true
  else return false

def expect (token : Token) : ReadTree Unit := do if !(← accept token) then refuse

def bind (name : Option Text) (node : Node) : ReadTree Unit :=
  match name with
  | none => return
  | some name =>
    modify fun s =>
      { s with anchors := (name, node) :: s.anchors.filter fun anchor => anchor.1 ≠ name }

/-- The node of a name. -/
def anchored (name : Text) : ReadTree Node := do
  match (← get).anchors.find? fun anchor => anchor.1 = name with
  | some anchor => return anchor.2
  | none => refuse

/-- The full name of a written tag. -/
def fullName (handle : Option Text) (suffix : Text) : ReadTree Text := do
  match handle with
  | none => return suffix
  | some handle =>
    match (← get).handles.find? fun known => known.1 = handle with
    | some known => return known.2 ++ suffix
    | none => refuse

def anchor? : ReadTree (Option Text) := do
  match ← peek with
  | .anchor name =>
    drop
    return some name
  | _ => return none

def tag? : ReadTree (Option Text) := do
  match ← peek with
  | .tag handle suffix =>
    drop
    return some (← fullName handle suffix)
  | _ => return none

/-- The anchor and the tag of a node, in either order. An anchor is not used twice. -/
def properties : ReadTree (Option Text × Option Text) := do
  let early ← tag?
  let name ← anchor?
  let tag ← if early.isNone && name.isSome then tag? else pure early
  if let some name := name then
    if (← get).anchors.any fun anchor => anchor.1 = name then refuse
  return (name, tag)

/-- A tag that leaves the kind of the node to its form. -/
def isOpen (tag : Option Text) : Bool := tag = none || tag = some (['!'] : Text)

/-- The tag of a scalar. -/
def scalarTag (tag : Option Text) (plain : Bool) (content : Text) : Tag :=
  match tag with
  | none => if plain then Tag.ofPlain content else .text
  | some name => if name = (['!'] : Text) then Tag.ofPlain content else Tag.ofName name

/-- The tag of a collection. -/
def collectionTag (tag : Option Text) (usual : Tag) : Tag :=
  match tag with
  | some name => if name = (['!'] : Text) then usual else Tag.ofName name
  | none => usual

/-- Whether a token is one of those that leave a place empty. -/
def isIn (tokens : List Token) : ReadTree Bool := do return tokens.contains (← peek)

mutual

/-- A node. Where `block` is set it may be a block, and where `flush` is set also a sequence whose
entries stand in the column of the mapping around it. -/
def node (block flush : Bool) : (fuel : Nat) → ReadTree Node
  | 0 => refuse
  | fuel + 1 => do
    match ← peek with
    | .alias name =>
      drop
      anchored name
    | _ =>
      let (name, tag) ← properties
      let next ← peek
      match next with
      | .scalar content plain =>
        drop
        let found := Node.scalar (scalarTag tag plain content) content
        bind name found
        return found
      | _ =>
        if next = .entry && flush then
          sequence name tag (flushEntries fuel)
        else if next = .flowSequenceStart then
          drop
          sequence name tag (flowItems true fuel)
        else if next = .flowMappingStart then
          drop
          mapping name tag (flowPairs true fuel)
        else if next = .sequenceStart && block then
          drop
          sequence name tag (blockEntries fuel)
        else if next = .mappingStart && block then
          drop
          mapping name tag (blockPairs fuel)
        else if name.isSome || tag.isSome then
          let found := Node.scalar (scalarTag tag true []) []
          bind name found
          return found
        else refuse

/-- A sequence, with its name bound while its items are read. -/
def sequence (name tag : Option Text) (items : ReadTree (List Node)) : ReadTree Node := do
  bind name (.loop false)
  let found := Node.sequence (collectionTag tag .sequence) (← items)
  bind name found
  return found

def mapping (name tag : Option Text) (pairs : ReadTree (List (Node × Node))) : ReadTree Node := do
  bind name (.loop true)
  let found := Node.mapping (collectionTag tag .mapping) (← pairs)
  bind name found
  return found

/-- A node, unless a token follows that leaves its place empty. -/
def nodeUnless (ends : List Token) (block flush : Bool) : (fuel : Nat) → ReadTree Node
  | 0 => refuse
  | fuel + 1 => do if ← isIn ends then return Node.empty else node block flush fuel

def blockEntries : (fuel : Nat) → ReadTree (List Node)
  | 0 => refuse
  | fuel + 1 => do
    if ← accept .entry then
      let item ← nodeUnless [.entry, .blockEnd] true false fuel
      return item :: (← blockEntries fuel)
    else
      expect .blockEnd
      return []

def flushEntries : (fuel : Nat) → ReadTree (List Node)
  | 0 => refuse
  | fuel + 1 => do
    if ← accept .entry then
      let item ← nodeUnless [.entry, .key, .value, .blockEnd] true false fuel
      return item :: (← flushEntries fuel)
    else return []

/-- A value behind its sign, or nothing where the sign is missing. -/
def valueUnless (ends : List Token) (block : Bool) : (fuel : Nat) → ReadTree Node
  | 0 => refuse
  | fuel + 1 => do
    if ← accept .value then nodeUnless ends block block fuel else return Node.empty

def blockPairs : (fuel : Nat) → ReadTree (List (Node × Node))
  | 0 => refuse
  | fuel + 1 => do
    if ← accept .key then
      let key ← nodeUnless [.key, .value, .blockEnd] true true fuel
      let value ← valueUnless [.key, .value, .blockEnd] true fuel
      return (key, value) :: (← blockPairs fuel)
    else
      expect .blockEnd
      return []

/-- A pair in brackets or braces, behind the sign of its key. -/
def flowPair (close : Token) : (fuel : Nat) → ReadTree (Node × Node)
  | 0 => refuse
  | fuel + 1 => do
    let key ← nodeUnless [.value, .flowEntry, close] false false fuel
    let value ← valueUnless [.flowEntry, close] false fuel
    return (key, value)

def flowItems (first : Bool) : (fuel : Nat) → ReadTree (List Node)
  | 0 => refuse
  | fuel + 1 => do
    if ← accept .flowSequenceEnd then return []
    if !first then expect .flowEntry
    if ← accept .flowSequenceEnd then return []
    let item ←
      if ← accept .key then do
        let pair ← flowPair .flowSequenceEnd fuel
        pure (Node.mapping .mapping [pair])
      else node false false fuel
    return item :: (← flowItems false fuel)

def flowPairs (first : Bool) : (fuel : Nat) → ReadTree (List (Node × Node))
  | 0 => refuse
  | fuel + 1 => do
    if ← accept .flowMappingEnd then return []
    if !first then expect .flowEntry
    if ← accept .flowMappingEnd then return []
    let pair ←
      if ← accept .key then flowPair .flowMappingEnd fuel
      else do
        let key ← node false false fuel
        pure (key, Node.empty)
    return pair :: (← flowPairs false fuel)

end

/-! ## Documents -/

/-- The handles that every document knows. -/
def usualHandles : List (Text × Text) := [(['!'], ['!']), (['!', '!'], Tag.scheme)]

/-- The directives in front of a document: at most one version, which is the first, and no handle
twice. -/
def directives (versioned : Bool) : List Token → ReadTree Unit
  | .directive d :: rest => do
    drop
    match d with
    | .version major =>
      if versioned || major != 1 then refuse
      directives true rest
    | .tag handle start =>
      if (← get).handles.any fun known => known.1 = handle then refuse
      modify fun s => { s with handles := s.handles ++ [(handle, start)] }
      directives versioned rest
    | .other => directives versioned rest
  | _ => return

def dropEnds : List Token → ReadTree Unit
  | .documentEnd :: rest => do
    drop
    dropEnds rest
  | _ => return

/-- Whether a document is announced by a mark or a directive. -/
def isAnnounced : Token → Bool
  | .directive _ | .documentStart => true
  | _ => false

/-- What follows the mark of a document that has no content. -/
def leavesEmpty : Token → Bool
  | .directive _ | .documentStart | .documentEnd | .streamEnd => true
  | _ => false

def fuelOf (tokens : List Token) : Nat := 4 * tokens.length + 8

/-- The one document of a text, if there is any. -/
def document : ReadTree (Option Node) := do
  let tokens := (← get).tokens
  let first ← peek
  if first = .streamEnd then return none
  let root ←
    if isAnnounced first then do
      directives false tokens
      expect .documentStart
      modify fun s => { s with handles := s.handles ++ usualHandles }
      if leavesEmpty (← peek) then pure Node.empty else node true false (fuelOf tokens)
    else do
      modify fun s => { s with handles := usualHandles }
      node true false (fuelOf tokens)
  dropEnds (← get).tokens
  expect .streamEnd
  return some root

end ReadTree

/-- The node of a text, `none` for a text without a document. -/
def Node.ofText (t : Text) : Except Fault (Option Node) := do
  let tokens ← tokensOf t
  ReadTree.document.run' { tokens }

end Linework.Yaml
