import Linework.Pattern.Token

/-!
# Widths

The lengths that a match of an expression can have. A lookbehind needs an expression whose
least and greatest length agree.
-/

namespace Linework.Pattern.Width

def zero : Width := ⟨0, some 0⟩

def one : Width := ⟨1, some 1⟩

def add (a b : Width) : Width :=
  ⟨a.least + b.least, a.most.bind fun m => b.most.map (m + ·)⟩

/-- Either of two. -/
def either (a b : Width) : Width :=
  ⟨min a.least b.least, a.most.bind fun m => b.most.map (max m)⟩

/-- Repetitions; what is always empty stays empty however often it is repeated. -/
def times (least : Nat) (most : Option Nat) (a : Width) : Width :=
  ⟨least * a.least,
    if a.most = some 0 then some 0 else most.bind fun n => a.most.map (n * ·)⟩

/-- The widths of an expression, given those of the closed groups. -/
def ofExpr (group : Nat → Width) : Expr → Width
  | .empty | .ahead .. | .behind .. | .anchor _ => zero
  | .set _ => one
  | .seq a b => (ofExpr group a).add (ofExpr group b)
  | .alt a b => (ofExpr group a).either (ofExpr group b)
  | .rep least most _ body => (ofExpr group body).times least most
  | .group _ body => ofExpr group body
  | .backref index .. => group index
  | .atomic body => ofExpr group body
  | .cond _ yes no => (ofExpr group yes).either (ofExpr group no)

/-- The only length there is. -/
def fixed? (w : Width) : Option Nat := if w.most = some w.least then some w.least else none

end Linework.Pattern.Width
