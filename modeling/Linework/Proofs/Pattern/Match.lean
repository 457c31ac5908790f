import Linework.Pattern.Match

/-!
# What makes an expression match

An expression that matches goes on matching when more of its ends are accepted (`run_mono`), and so
does one with more to choose from (`isSome_run_alt`). The matches of a pattern in a text are counted
from the first place where there is one, so some are counted exactly when there are any
(`count_pos_iff`).
-/

namespace Linework

namespace Expr

variable {next next' : Next}

theorem isSome_bind_mono {held : Option Cursor} (h : ∀ stop, (next stop).isSome → (next' stop).isSome) :
    (held.bind next).isSome → (held.bind next').isSome := by
  cases held with
  | none => exact id
  | some stop => exact h stop

theorem runRep_mono {body : Cursor → Next → Option Cursor}
    (hbody : ∀ cursor (one other : Next), (∀ stop, (one stop).isSome → (other stop).isSome) →
      (body cursor one).isSome → (body cursor other).isSome)
    (least : Nat) (most : Option Nat) (lazy : Bool)
    (h : ∀ stop, (next stop).isSome → (next' stop).isSome) (fuel : Nat) :
    ∀ count mark cursor, (runRep body least most lazy next fuel count mark cursor).isSome →
      (runRep body least most lazy next' fuel count mark cursor).isSome := by
  induction fuel with
  | zero => exact fun _ _ cursor => h cursor
  | succ fuel ih =>
    intro count mark cursor
    rw [runRep, runRep]
    split
    · exact hbody cursor _ _ (ih (count + 1) mark)
    · have hmore : (if (most.all (count < ·) && mark != some cursor.pos) = true then
            body cursor (runRep body least most lazy next fuel (count + 1) (some cursor.pos)) else none).isSome →
          (if (most.all (count < ·) && mark != some cursor.pos) = true then
            body cursor (runRep body least most lazy next' fuel (count + 1) (some cursor.pos)) else none).isSome := by
        split
        · exact hbody cursor _ _ (ih (count + 1) (some cursor.pos))
        · exact id
      dsimp only
      split
      · rw [Option.isSome_or, Option.isSome_or, Bool.or_eq_true, Bool.or_eq_true]
        exact Or.imp (h cursor) hmore
      · rw [Option.isSome_or, Option.isSome_or, Bool.or_eq_true, Bool.or_eq_true]
        exact Or.imp hmore (h cursor)

/-- **An expression matches all the more when more ends are accepted.** -/
theorem run_mono (e : Expr) (cursor : Cursor) (next next' : Next)
    (h : ∀ stop, (next stop).isSome → (next' stop).isSome) :
    (e.run cursor next).isSome → (e.run cursor next').isSome := by
  induction e generalizing cursor next next' with
  | empty => exact h cursor
  | set s =>
    rw [run, run]
    split
    · split
      · exact h _
      · exact id
    · exact id
  | seq first second ihfirst ihsecond =>
    exact ihfirst cursor _ _ fun mid => ihsecond mid _ _ h
  | alt first second ihfirst ihsecond =>
    have hfirst := ihfirst cursor next next' h
    have hsecond := ihsecond cursor next next' h
    rw [run, run]
    cases hrun : first.run cursor next with
    | none =>
      cases first.run cursor next' with
      | none => exact hsecond
      | some stop => exact fun _ => rfl
    | some stop =>
      rw [hrun] at hfirst
      obtain ⟨stop', hstop'⟩ := Option.isSome_iff_exists.1 (hfirst rfl)
      rw [hstop']
      exact fun _ => rfl
  | rep least most greed body ih =>
    cases greed with
    | most => exact runRep_mono ih least most false h _ 0 none cursor
    | fewest => exact runRep_mono ih least most true h _ 0 none cursor
    | hold => exact isSome_bind_mono h
  | group index body ih => exact ih cursor _ _ fun stop => h _
  | backref index alphabet ignoresCase => exact isSome_bind_mono h
  | ahead negated body ih =>
    rw [run, run]
    split <;> split
    · exact id
    · exact h _
    · exact h _
    · exact id
  | behind negated width body ih =>
    rw [run, run]
    split <;> split
    · exact id
    · exact h _
    · exact h _
    · exact id
  | anchor a =>
    rw [run, run]
    split
    · exact h cursor
    · exact id
  | atomic body ih => exact isSome_bind_mono h
  | cond index yes no ihyes ihno =>
    rw [run, run]
    split
    · exact ihyes cursor next next' h
    · exact ihno cursor next next' h

theorem isSome_run_alt (first second : Expr) (cursor : Cursor) (next : Next) :
    ((alt first second).run cursor next).isSome ↔
      (first.run cursor next).isSome ∨ (second.run cursor next).isSome := by
  rw [run]
  cases first.run cursor next <;> simp

theorem isSome_matchLength? (e : Expr) (cursor : Cursor) :
    (e.matchLength? false cursor).isSome = (e.run cursor some).isSome := by
  rw [matchLength?, Option.isSome_map]
  rfl

/-- Matching is passed on from place to place. -/
theorem matchesFrom_mono {e e' : Expr}
    (h : ∀ cursor, (e.run cursor some).isSome → (e'.run cursor some).isSome) (pos : Nat)
    (before after : List CodePoint) :
    e.matchesFrom pos before after = true → e'.matchesFrom pos before after = true := by
  induction after generalizing pos before with
  | nil =>
    rw [matchesFrom, matchesFrom, isSome_matchLength?, isSome_matchLength?]
    exact h _
  | cons c rest ih =>
    rw [matchesFrom, matchesFrom, isSome_matchLength?, isSome_matchLength?, Bool.or_eq_true, Bool.or_eq_true]
    exact Or.imp (h _) (ih _ _)

theorem matchesAt_of_eq_none {e : Expr} {cursor : Cursor} (h : e.matchLength? false cursor = none) :
    e.matchesAt cursor = (0, 0) := by
  rw [matchesAt, h]

theorem matchesAt_pos {e : Expr} {cursor : Cursor} (h : (e.matchLength? false cursor).isSome) :
    0 < (e.matchesAt cursor).1 := by
  obtain ⟨length, hlength⟩ := Option.isSome_iff_exists.1 h
  rw [matchesAt, hlength]
  cases length with
  | zero => cases e.matchLength? true cursor <;> simp
  | succ length => simp

/-- Matches are counted exactly when there are any. -/
theorem countFrom_pos_iff (e : Expr) (pos : Nat) (before after : List CodePoint) :
    0 < e.countFrom 0 pos before after ↔ e.matchesFrom pos before after = true := by
  induction after generalizing pos before with
  | nil =>
    rw [countFrom, matchesFrom]
    constructor
    · intro hpos
      cases hlength : e.matchLength? false ⟨pos, before, [], []⟩ with
      | none =>
        rw [matchesAt_of_eq_none hlength] at hpos
        cases hpos
      | some length => rfl
    · exact matchesAt_pos
  | cons c rest ih =>
    rw [countFrom, matchesFrom]
    cases hlength : e.matchLength? false ⟨pos, before, c :: rest, []⟩ with
    | none =>
      rw [matchesAt_of_eq_none hlength, Nat.zero_add]
      exact ih _ _
    | some length =>
      have hsome : (e.matchLength? false ⟨pos, before, c :: rest, []⟩).isSome := by
        rw [hlength]
        rfl
      have hpos := matchesAt_pos hsome
      simp only [Option.isSome_some, Bool.true_or, iff_true]
      omega

end Expr

namespace Pattern

theorem count_pos_iff (pattern : Pattern) (t : Text) : 0 < pattern.count t ↔ pattern.matchesIn t = true :=
  pattern.expr.countFrom_pos_iff 0 [] t

end Pattern

end Linework
