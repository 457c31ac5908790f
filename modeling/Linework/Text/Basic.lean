import Linework.Text.CodePoint

/-!
# Text

A text is a list of code points. This module holds the list operations the rest
of the library shares: cutting at a separator, searching for a piece, writing a
number in a base, and membership of a character in a sorted table of ranges.
-/

namespace Linework

/-- A text as its code points, in order, surrogates among them. -/
abbrev Text := List CodePoint

namespace Text

/-- The characters of a literal. -/
def lit (s : String) : Text := s.toList.map .scalar

/-- The pieces between separator characters; `n` separators leave `n + 1` pieces. -/
def pieces (sep : CodePoint → Bool) : Text → List Text
  | [] => [[]]
  | c :: rest =>
    if sep c then [] :: pieces sep rest
    else match pieces sep rest with
      | [] => [[c]]
      | piece :: more => (c :: piece) :: more

theorem pieces_ne_nil (sep : CodePoint → Bool) (t : Text) : pieces sep t ≠ [] := by
  cases t with
  | nil => simp [pieces]
  | cons c rest => rw [pieces]; split <;> (try split) <;> simp

/-- A separator-free text is one piece. -/
theorem pieces_of_none {sep : CodePoint → Bool} {t : Text} (h : ∀ c ∈ t, sep c = false) :
    pieces sep t = [t] := by
  induction t with
  | nil => rfl
  | cons c rest ih =>
    rw [pieces, ih fun d hd => h d (List.mem_cons_of_mem c hd)]
    simp [h c List.mem_cons_self]

theorem pieces_append_cons {sep : CodePoint → Bool} {c : CodePoint} (hc : sep c = true) (s t : Text) :
    pieces sep (s ++ c :: t) = pieces sep s ++ pieces sep t := by
  induction s with
  | nil => simp [pieces, hc]
  | cons d rest ih =>
    simp only [List.cons_append, pieces, ih]
    split
    · rfl
    · cases h : pieces sep rest with
      | nil => exact absurd h (pieces_ne_nil sep rest)
      | cons piece more => rfl

/-- Cuts a text around the first occurrence of `sep`. -/
def cut? (sep : Text) : Text → Option (Text × Text)
  | [] => if sep.isEmpty then some ([], []) else none
  | c :: rest =>
    if sep.isPrefixOf (c :: rest) then some ([], (c :: rest).drop sep.length)
    else (cut? sep rest).map fun (front, back) => (c :: front, back)

theorem eq_append_of_cut? {sep t front back : Text} (h : cut? sep t = some (front, back)) :
    t = front ++ sep ++ back := by
  induction t generalizing front with
  | nil =>
    rw [cut?] at h
    split at h
    · rename_i hs
      simp only [Option.some.injEq, Prod.mk.injEq] at h
      simp [← h.1, ← h.2, List.isEmpty_iff.1 hs]
    · cases h
  | cons c rest ih =>
    rw [cut?] at h
    split at h
    · rename_i hs
      simp only [Option.some.injEq, Prod.mk.injEq] at h
      obtain ⟨tail, htail⟩ := List.isPrefixOf_iff_prefix.1 hs
      rw [← h.1, ← h.2, ← htail]
      simp
    · obtain ⟨⟨front', back'⟩, hcut, heq⟩ := Option.map_eq_some_iff.1 h
      simp only [Prod.mk.injEq] at heq
      obtain ⟨rfl, rfl⟩ := heq
      simp [ih hcut]

/-- Whether `piece` occurs in a text. -/
def has (piece t : Text) : Bool := (cut? piece t).isSome

/-- Whether a text ends in `tail`. -/
def endsIn (t tail : Text) : Bool := tail.isSuffixOf t

/-- Drops characters from the end while they satisfy `p`. -/
def dropEndWhile (p : CodePoint → Bool) (t : Text) : Text := (t.reverse.dropWhile p).reverse

/-- Digits of a number in a base up to sixteen, lower case. -/
def ofNat (base n : Nat) : Text := (Nat.toDigits base n).map .scalar

/-- A number in decimal, with a minus sign when negative. -/
def ofInt (n : Int) : Text :=
  if n < 0 then '-' :: ofNat 10 n.natAbs else ofNat 10 n.natAbs

/-- Fills a text with leading zeros up to a width. -/
def zeroFill (width : Nat) (t : Text) : Text := List.replicate (width - t.length) ('0' : CodePoint) ++ t

/-- Membership in a table of inclusive ranges in ascending order. -/
def inRanges (code : Nat) : List (Nat × Nat) → Bool
  | [] => false
  | (low, high) :: rest => low ≤ code && (code ≤ high || inRanges code rest)

/-- A member lies in one of the ranges, whether or not the table is sorted. -/
theorem exists_of_inRanges {code : Nat} {table : List (Nat × Nat)} (h : inRanges code table) :
    ∃ range ∈ table, range.1 ≤ code ∧ code ≤ range.2 := by
  induction table with
  | nil => simp [inRanges] at h
  | cons range rest ih =>
    simp only [inRanges, Bool.and_eq_true, decide_eq_true_eq, Bool.or_eq_true] at h
    rcases h.2 with hle | hrest
    · exact ⟨range, List.mem_cons_self, h.1, hle⟩
    · obtain ⟨found, hmem, hbound⟩ := ih hrest
      exact ⟨found, List.mem_cons_of_mem _ hmem, hbound⟩

/-- Sorts texts by their code points. -/
def sorted (texts : List Text) : List Text :=
  texts.mergeSort fun a b => !decide (b < a)

end Text

end Linework
