import Linework.Pattern.Basic

/-!
# Matching

A place in a text is kept with the characters on both sides of it. An expression is run from
a place with a continuation that accepts or refuses each place it could end at; the first end
accepted, in the order of preference, is the match. A repetition stops trying once a round has
consumed nothing.
-/

namespace Linework

/-- A place in a text, and what the groups hold so far. -/
structure Cursor where
  pos : Nat
  /-- The characters before the place, the nearest first. -/
  before : List CodePoint
  after : List CodePoint
  groups : List (Nat × Text) := []
  deriving DecidableEq, Repr

namespace Cursor

/-- The start of a text. -/
def start (t : Text) : Cursor := { pos := 0, before := [], after := t }

def forward (cursor : Cursor) (c : CodePoint) (rest : List CodePoint) : Cursor :=
  { cursor with pos := cursor.pos + 1, before := c :: cursor.before, after := rest }

/-- The place `n` characters earlier, unless the text starts after it. -/
def back? : Nat → Cursor → Option Cursor
  | 0, cursor => some cursor
  | n + 1, cursor =>
    match cursor.before with
    | [] => none
    | c :: rest => back? n { cursor with pos := cursor.pos - 1, before := rest, after := c :: cursor.after }

/-- Whether a word starts or ends here. -/
def atWordEdge (alphabet : Alphabet) (cursor : Cursor) : Bool :=
  cursor.before.head?.any alphabet.isWord != cursor.after.head?.any alphabet.isWord

def isEmptyText (cursor : Cursor) : Bool := cursor.before.isEmpty && cursor.after.isEmpty

def group? (cursor : Cursor) (index : Nat) : Option Text :=
  (cursor.groups.find? (·.1 == index)).map (·.2)

end Cursor

namespace Anchor

/-- In a text without characters there is neither an edge of a word nor a place inside one. -/
def holds (cursor : Cursor) : Anchor → Bool
  | textStart => cursor.before.isEmpty
  | lineStart => cursor.before.head?.all (fun c : CodePoint => c == '\n')
  | textEnd => cursor.after.isEmpty
  | lineEnd => cursor.after.head?.all (fun c : CodePoint => c == '\n')
  | lastEnd => cursor.after.isEmpty || cursor.after == (['\n'] : Text)
  | wordEdge alphabet => !cursor.isEmptyText && cursor.atWordEdge alphabet
  | notWordEdge alphabet => !cursor.isEmptyText && !cursor.atWordEdge alphabet

end Anchor

namespace Expr

/-- What is accepted after an expression has matched. -/
abbrev Next := Cursor → Option Cursor

/-- Steps over a given text. -/
def stepOver (same : CodePoint → CodePoint → Bool) : Text → Cursor → Option Cursor
  | [], cursor => some cursor
  | c :: wanted, cursor =>
    match cursor.after with
    | d :: rest => if same c d then stepOver same wanted (cursor.forward d rest) else none
    | [] => none

/-- Runs `body` again and again. `mark` is the place where the last round past `least` began; a
round that ends where it began is the last one. The fuel bounds the number of rounds. -/
def runRep (body : Cursor → Next → Option Cursor) (least : Nat) (most : Option Nat) (lazy : Bool)
    (next : Next) : (fuel count : Nat) → (mark : Option Nat) → Cursor → Option Cursor
  | 0, _, _, cursor => next cursor
  | fuel + 1, count, mark, cursor =>
    if count < least then body cursor (runRep body least most lazy next fuel (count + 1) mark)
    else
      let more (_ : Unit) : Option Cursor :=
        if most.all (count < ·) && mark != some cursor.pos then
          body cursor (runRep body least most lazy next fuel (count + 1) (some cursor.pos))
        else none
      if lazy then (next cursor).or (more ()) else (more ()).or (next cursor)

/-- Enough rounds for any repetition from a place: every round past `least` but the last one
consumes a character. -/
def repFuel (least : Nat) (cursor : Cursor) : Nat := least + cursor.after.length + 2

/-- The first end of a match from `cursor` that `next` accepts. -/
def run : Expr → Cursor → Next → Option Cursor
  | empty, cursor, next => next cursor
  | set s, cursor, next =>
    match cursor.after with
    | c :: rest => if s.has c then next (cursor.forward c rest) else none
    | [] => none
  | seq first second, cursor, next => run first cursor fun mid => run second mid next
  | alt first second, cursor, next =>
    match run first cursor next with
    | some stop => some stop
    | none => run second cursor next
  | rep least most greed body, cursor, next =>
    match greed with
    | .most => runRep (run body) least most false next (repFuel least cursor) 0 none cursor
    | .fewest => runRep (run body) least most true next (repFuel least cursor) 0 none cursor
    | .hold =>
      let held (cursor : Cursor) (next : Next) : Option Cursor := (run body cursor some).bind next
      (runRep held least most false some (repFuel least cursor) 0 none cursor).bind next
  | group index body, cursor, next =>
    run body cursor fun stop =>
      next { stop with groups := (index, cursor.after.take (stop.pos - cursor.pos)) :: stop.groups }
  | backref index alphabet ignoresCase, cursor, next =>
    let same (c d : CodePoint) : Bool :=
      if ignoresCase then alphabet.lower c.toNat == alphabet.lower d.toNat else c == d
    ((cursor.group? index).bind fun held => stepOver same held cursor).bind next
  | ahead negated body, cursor, next =>
    match run body cursor some with
    | some stop => if negated then none else next { cursor with groups := stop.groups }
    | none => if negated then next cursor else none
  | behind negated width body, cursor, next =>
    match (cursor.back? width).bind fun earlier => run body earlier some with
    | some stop => if negated then none else next { cursor with groups := stop.groups }
    | none => if negated then next cursor else none
  | anchor a, cursor, next => if a.holds cursor then next cursor else none
  | atomic body, cursor, next => (run body cursor some).bind next
  | cond index yes no, cursor, next =>
    if (cursor.group? index).isSome then run yes cursor next else run no cursor next

/-- The length of the match at a place; with `solid`, of the first one that is not empty. -/
def matchLength? (e : Expr) (solid : Bool) (cursor : Cursor) : Option Nat :=
  (e.run cursor fun stop => if solid && stop.pos == cursor.pos then none else some stop).map
    fun stop => stop.pos - cursor.pos

/-- Whether an expression matches at the place with `before` behind it or at a later one. -/
def matchesFrom (e : Expr) (pos : Nat) (before : List CodePoint) : List CodePoint → Bool
  | [] => (e.matchLength? false ⟨pos, before, [], []⟩).isSome
  | c :: rest =>
    (e.matchLength? false ⟨pos, before, c :: rest, []⟩).isSome ||
      matchesFrom e (pos + 1) (c :: before) rest

/-- Matches that begin at one place, and the length of the one that consumes something: an empty
match may be followed by one that is not, from the same place. -/
def matchesAt (e : Expr) (cursor : Cursor) : Nat × Nat :=
  match e.matchLength? false cursor with
  | none => (0, 0)
  | some (n + 1) => (1, n + 1)
  | some 0 =>
    match e.matchLength? true cursor with
    | none => (1, 0)
    | some n => (2, n)

/-- Counts matches from left to right without overlap; `skip` characters belong to the match
counted last. -/
def countFrom (e : Expr) : (skip pos : Nat) → (before after : List CodePoint) → Nat
  | 0, pos, before, [] => (e.matchesAt ⟨pos, before, [], []⟩).1
  | _ + 1, _, _, [] => 0
  | skip + 1, pos, before, c :: rest => countFrom e skip (pos + 1) (c :: before) rest
  | 0, pos, before, c :: rest =>
    let found := e.matchesAt ⟨pos, before, c :: rest, []⟩
    found.1 + countFrom e (found.2 - 1) (pos + 1) (c :: before) rest

end Expr

namespace Pattern

/-- Whether a pattern matches somewhere in a text. -/
def matchesIn (pattern : Pattern) (t : Text) : Bool := pattern.expr.matchesFrom 0 [] t

/-- The number of matches in a text. -/
def count (pattern : Pattern) (t : Text) : Nat := pattern.expr.countFrom 0 0 [] t

end Pattern

end Linework
