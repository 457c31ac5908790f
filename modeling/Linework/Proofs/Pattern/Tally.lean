import Linework.Pattern.Match

/-!
# Counting matches by their places

Matches are counted from left to right, each from where the last one ended. Where no match starts within
another, that comes to the number of places where one starts (`Expr.countFrom_eq_tally`). Numbers of places
add up over conditions that exclude each other (`tally_or`).
-/

namespace Linework

/-- The number of places in a text where a condition holds. It is told what comes before the place, the
nearest first, and what comes after. -/
def tally (holds : Text → Text → Bool) (before : Text) : Text → Nat
  | [] => (holds before []).toNat
  | c :: rest => (holds before (c :: rest)).toNat + tally holds (c :: before) rest

variable {f g : Text → Text → Bool} {before after : Text}

theorem tally_or (h : ∀ before after, f before after = true → g before after = false) (before after : Text) :
    tally (fun before after => f before after || g before after) before after =
      tally f before after + tally g before after := by
  have hplace : ∀ before after, (f before after || g before after).toNat =
      (f before after).toNat + (g before after).toNat := by
    intro before after
    cases hf : f before after with
    | false => simp
    | true => simp [h before after hf]
  induction after generalizing before with
  | nil => exact hplace before []
  | cons c rest ih =>
    rw [tally, tally, tally, hplace, ih]
    omega

theorem tally_isSome_or {found other : Text → Text → Option Text}
    (h : ∀ before after, (found before after).isSome = true → other before after = none) (before after : Text) :
    tally (fun before after => ((found before after).or (other before after)).isSome) before after =
      tally (fun before after => (found before after).isSome) before after +
        tally (fun before after => (other before after).isSome) before after := by
  simp only [Option.isSome_or]
  exact tally_or (fun before after hfound => by rw [h before after hfound]; rfl) before after

theorem tally_eq_zero (h : ∀ c before after, f (c :: before) after = false) (c : CodePoint) (before after : Text) :
    tally f (c :: before) after = 0 := by
  induction after generalizing c before with
  | nil => simp [tally, h]
  | cons d rest ih => simp [tally, h, ih]

/-- What holds at the start only holds once at most. -/
theorem tally_start (h : ∀ c before after, f (c :: before) after = false) (t : Text) :
    tally f [] t = (f [] t).toNat := by
  cases t with
  | nil => rfl
  | cons c rest => rw [tally, tally_eq_zero h, Nat.add_zero]

theorem tally_head (c : CodePoint) (before after : Text) :
    tally (fun _ after => after.head? == some c) before after = after.count c := by
  induction after generalizing before with
  | nil => rfl
  | cons d rest ih =>
    rw [tally, ih, List.count_cons, Nat.add_comm]
    by_cases hd : d = c <;> simp [hd]

namespace Cursor

/-- The place behind a text that comes next. -/
def past (word : Text) (cursor : Cursor) : Cursor :=
  { cursor with
    pos := cursor.pos + word.length
    before := word.reverse ++ cursor.before
    after := cursor.after.drop word.length }

@[simp] theorem past_nil (cursor : Cursor) : cursor.past [] = cursor := rfl

theorem past_past (front back : Text) (cursor : Cursor) : (cursor.past front).past back = cursor.past (front ++ back) := by
  simp [past, Nat.add_assoc]

theorem forward_eq_past {cursor : Cursor} {c : CodePoint} {rest : List CodePoint} (h : cursor.after = c :: rest) :
    cursor.forward c rest = cursor.past [c] := by
  simp [forward, past, h]

end Cursor

namespace Expr

/-- An expression matches where `found` has a text, and just that text. -/
def Reads (e : Expr) (found : Text → Text → Option Text) : Prop :=
  ∀ cursor, e.run cursor some = (found cursor.before cursor.after).map fun word => cursor.past word

variable {e : Expr} {found : Text → Text → Option Text}

theorem run_alt (first second : Expr) (cursor : Cursor) (next : Next) :
    (alt first second).run cursor next = (first.run cursor next).or (second.run cursor next) := by
  rw [run]
  cases first.run cursor next <;> rfl

theorem Reads.alt {e' : Expr} {found' : Text → Text → Option Text} (h : e.Reads found) (h' : e'.Reads found') :
    (Expr.alt e e').Reads fun before after => (found before after).or (found' before after) := by
  intro cursor
  rw [run_alt, h cursor, h' cursor, Option.map_or]

theorem Reads.matchLength? (h : e.Reads found) (cursor : Cursor) :
    e.matchLength? false cursor = (found cursor.before cursor.after).map List.length := by
  have hrun : e.matchLength? false cursor = (e.run cursor some).map fun stop => stop.pos - cursor.pos := rfl
  rw [hrun, h cursor, Option.map_map]
  congr 1
  funext word
  exact Nat.add_sub_cancel_left ..

/-- No match starts within another. -/
structure Apart (found : Text → Text → Option Text) : Prop where
  solid : ∀ before after, found before after ≠ some []
  apart : ∀ before after word, found before after = some word → ∀ k, 0 < k → k < word.length →
    found ((after.take k).reverse ++ before) (after.drop k) = none

theorem countFrom_skip_eq_tally (h : e.Reads found) (hapart : Apart found) (after : Text) :
    ∀ skip pos before, (∀ k < skip, found ((after.take k).reverse ++ before) (after.drop k) = none) →
      e.countFrom skip pos before after = tally (fun before after => (found before after).isSome) before after := by
  have hmatches : ∀ pos before after, e.matchesAt ⟨pos, before, after, []⟩ =
      ((found before after).isSome.toNat, ((found before after).map List.length).getD 0) := by
    intro pos before after
    rw [matchesAt, h.matchLength?]
    cases hfound : found before after with
    | none => rfl
    | some word =>
      cases word with
      | nil => exact absurd hfound (hapart.solid before after)
      | cons c rest => rfl
  induction after with
  | nil =>
    intro skip pos before hskip
    cases skip with
    | zero => rw [countFrom, hmatches, tally]
    | succ skip =>
      have hnone : found before [] = none := hskip 0 (Nat.succ_pos _)
      rw [countFrom, tally, hnone]
      rfl
  | cons c rest ih =>
    intro skip pos before hskip
    cases skip with
    | zero =>
      rw [countFrom, hmatches, tally]
      dsimp only
      rw [ih]
      intro k hk
      cases hfound : found before (c :: rest) with
      | none => simp [hfound] at hk
      | some word =>
        rw [hfound, Option.map_some, Option.getD_some] at hk
        simpa using hapart.apart before (c :: rest) word hfound (k + 1) (Nat.succ_pos k) (by omega)
    | succ skip =>
      have hnone : found before (c :: rest) = none := hskip 0 (Nat.succ_pos _)
      rw [countFrom, tally, hnone, ih]
      · simp
      · exact fun k hk => by simpa using hskip (k + 1) (Nat.succ_lt_succ hk)

/-- **Matches that are apart are counted by their places.** -/
theorem countFrom_eq_tally (h : e.Reads found) (hapart : Apart found) (t : Text) :
    e.countFrom 0 0 [] t = tally (fun before after => (found before after).isSome) [] t :=
  countFrom_skip_eq_tally h hapart t 0 0 [] fun _ hk => absurd hk (Nat.not_lt_zero _)

end Expr

end Linework
