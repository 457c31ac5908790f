import Linework.Edit
import Mathlib.Algebra.BigOperators.Group.List.Basic
import Mathlib.Algebra.Ring.Int.Defs
import Mathlib.Data.List.Infix

/-!
# The depth of blocks

A scan goes on as long as the depth stays positive (`closing?_eq_none_iff`), so it goes on through
lines that never close more than they open. Such lines, if they leave the depth as it was, can be put
anywhere into a block: it keeps its start, and its end moves along (`span_insert`).
-/

namespace Linework

theorem exists_of_bind_eq_ok {α β : Type} {e : Except Failure α} {f : α → Except Failure β} {value : β}
    (h : e >>= f = .ok value) : ∃ first, e = .ok first ∧ f first = .ok value := by
  cases e with
  | error failure => cases h
  | ok first => exact ⟨first, rfl, h⟩

namespace Delimiter

/-- What lines add to the depth. -/
def total (delimiter : Delimiter) (lines : List Text) : Int := (lines.map delimiter.net).sum

/-- Lines that at no point have closed more than they opened, and in the end have closed all of it. -/
structure Neutral (delimiter : Delimiter) (lines : List Text) : Prop where
  nonneg : ∀ front, front <+: lines → 0 ≤ delimiter.total front
  settled : delimiter.total lines = 0

variable {delimiter : Delimiter}

instance (delimiter : Delimiter) (lines : List Text) : Decidable (delimiter.Neutral lines) :=
  decidable_of_iff ((∀ front ∈ lines.inits, 0 ≤ delimiter.total front) ∧ delimiter.total lines = 0)
    ⟨fun ⟨hnonneg, hsettled⟩ => ⟨fun front hfront => hnonneg front ((List.mem_inits _ _).2 hfront), hsettled⟩,
      fun h => ⟨fun front hfront => h.nonneg front ((List.mem_inits _ _).1 hfront), h.settled⟩⟩

@[simp] theorem total_nil : delimiter.total [] = 0 := rfl

@[simp] theorem total_cons (line : Text) (rest : List Text) :
    delimiter.total (line :: rest) = delimiter.net line + delimiter.total rest := by
  simp [total]

end Delimiter

namespace Block

open Delimiter

variable {delimiter : Delimiter} {depth : Int} {lines front back run : List Text} {target : Target}
  {start stop offset : Nat}

/-! ## The scan -/

theorem lt_of_closing? (h : closing? delimiter depth lines = some offset) : offset < lines.length := by
  induction lines generalizing depth offset with
  | nil => cases h
  | cons line rest ih =>
    rw [closing?] at h
    split at h
    · cases h
      exact Nat.zero_lt_succ _
    · obtain ⟨less, hless, rfl⟩ := Option.map_eq_some_iff.1 h
      exact Nat.succ_lt_succ (ih hless)

/-- A scan goes on through what follows. -/
theorem closing?_append (delimiter : Delimiter) (depth : Int) (front back : List Text) :
    closing? delimiter depth (front ++ back) =
      (closing? delimiter depth front).or
        ((closing? delimiter (depth + delimiter.total front) back).map (· + front.length)) := by
  induction front generalizing depth with
  | nil => simp [closing?]
  | cons line rest ih =>
    rw [List.cons_append, closing?, closing?]
    split
    · rfl
    · rw [ih, total_cons, ← Int.add_assoc]
      cases closing? delimiter (depth + delimiter.net line) rest <;> simp [Function.comp_def, Nat.add_assoc]

/-- Nothing is closed as long as the depth stays positive. -/
theorem closing?_eq_none_iff :
    closing? delimiter depth lines = none ↔
      ∀ front, front <+: lines → front ≠ [] → 0 < depth + delimiter.total front := by
  induction lines generalizing depth with
  | nil => simp [closing?]
  | cons line rest ih =>
    rw [closing?]
    constructor
    · intro h front hfront hne
      split at h
      · cases h
      · rename_i hpos
        rw [Option.map_eq_none_iff, ih] at h
        obtain rfl | ⟨more, rfl, hmore⟩ := List.prefix_cons_iff.1 hfront
        · exact absurd rfl hne
        · rw [total_cons, ← Int.add_assoc]
          by_cases hnil : more = []
          · rw [hnil, total_nil]
            omega
          · exact h more hmore hnil
    · intro h
      have hfirst := h [line] ⟨rest, rfl⟩ (List.cons_ne_nil _ _)
      rw [total_cons, total_nil] at hfirst
      rw [if_neg (by omega), Option.map_eq_none_iff, ih]
      intro more hmore _
      have hwhole := h (line :: more) (List.cons_prefix_cons.2 ⟨rfl, hmore⟩) (List.cons_ne_nil _ _)
      rwa [total_cons, ← Int.add_assoc] at hwhole

/-- What is not closed before some point is closed in what follows it. -/
theorem closing?_eq_none_of_le (h : closing? delimiter depth (front ++ back) = some offset)
    (hoffset : front.length ≤ offset) : closing? delimiter depth front = none := by
  cases hfront : closing? delimiter depth front with
  | none => rfl
  | some index =>
    have hlt := lt_of_closing? hfront
    rw [closing?_append, hfront, Option.some_or, Option.some.injEq] at h
    omega

/-- Where a line is once `count` lines have been put in front of the line at `place`. -/
def shift (place count index : Nat) : Nat := if index < place then index else index + count

theorem shift_of_lt {place index : Nat} (h : index < place) (count : Nat) : shift place count index = index :=
  if_pos h

theorem shift_of_le {place index : Nat} (h : place ≤ index) (count : Nat) :
    shift place count index = index + count := if_neg (Nat.not_lt.2 h)

/-- Neutral lines are passed wherever the depth is positive. -/
theorem closing?_eq_none_of_neutral (hrun : delimiter.Neutral run) (hdepth : 0 < depth) :
    closing? delimiter depth run = none := by
  refine closing?_eq_none_iff.2 fun part hpart _ => ?_
  have hpart := hrun.nonneg part hpart
  omega

/-- **Neutral lines** put into lines that are scanned change nothing about where the scan ends. -/
theorem closing?_insert_eq (hrun : delimiter.Neutral run) (hfront : front ≠ []) :
    closing? delimiter depth (front ++ run ++ back) =
      (closing? delimiter depth (front ++ back)).map (shift front.length run.length) := by
  rw [List.append_assoc, closing?_append, closing?_append _ _ front back]
  cases hclosing : closing? delimiter depth front with
  | some offset =>
    rw [Option.some_or, Option.some_or, Option.map_some, shift_of_lt (lt_of_closing? hclosing)]
  | none =>
    -- the depth is positive after `front`, so it stays positive throughout the run
    have hdepth := closing?_eq_none_iff.1 hclosing front (List.prefix_refl _) hfront
    rw [Option.none_or, Option.none_or, closing?_append, closing?_eq_none_of_neutral hrun hdepth, Option.none_or,
      hrun.settled, Int.add_zero, Option.map_map, Option.map_map]
    congr 1
    funext offset
    simp only [Function.comp_apply]
    rw [shift_of_le (Nat.le_add_left _ _)]
    omega

/-- **Neutral lines within a block** are passed by its scan, which ends that much later. -/
theorem closing?_insert (hrun : delimiter.Neutral run) (hfront : front ≠ [])
    (hoffset : front.length ≤ offset) (h : closing? delimiter depth (front ++ back) = some offset) :
    closing? delimiter depth (front ++ run ++ back) = some (offset + run.length) := by
  rw [closing?_insert_eq hrun hfront, h, Option.map_some, shift_of_le hoffset]

/-! ## The lines of a block -/

theorem linesFrom?_natCast (lines : List Text) (start : Nat) :
    linesFrom? lines start = if start < lines.length then some (lines.drop start) else none := by
  rw [linesFrom?, if_pos (Int.natCast_nonneg start), Int.toNat_natCast]

theorem matchingEnd_natCast (hstart : start < lines.length) :
    matchingEnd delimiter lines start =
      if delimiter.opens lines[start] = 0 then .error (.noOpener start delimiter.name lines[start])
      else .ok ((closing? delimiter 0 (lines.drop start)).map fun offset : Nat => (start : Int) + offset) := by
  rw [matchingEnd, linesFrom?_natCast, if_pos hstart, List.drop_eq_getElem_cons hstart]
  dsimp only
  -- the offset was cast to an integer within the option
  cases closing? delimiter 0 (lines[start] :: lines.drop (start + 1)) <;> rfl

theorem opens_of_findOpening? (h : findOpening? delimiter target lines = some start) :
    ∃ hstart : start < lines.length, delimiter.opens lines[start] ≠ 0 := by
  obtain ⟨hstart, hline, -⟩ := List.findIdx?_eq_some_iff_getElem.1 h
  rw [Bool.and_eq_true, bne_iff_ne] at hline
  exact ⟨hstart, hline.2⟩

/-- A line that is found is found among those before any later one. -/
theorem findOpening?_of_append (h : findOpening? delimiter target (front ++ back) = some start)
    (hstart : start < front.length) : findOpening? delimiter target front = some start := by
  have htake : front = (front ++ back).take front.length := (List.take_left ..).symm
  rw [findOpening?] at h
  rw [findOpening?, htake, List.findIdx?_take, h]
  simp [hstart]

theorem span_eq (target : Target) (lines : List Text) :
    span target lines = .ok ((findOpening? .block target lines).bind fun start =>
      (closing? .block 0 (lines.drop start)).map fun offset => (start, start + offset)) := by
  unfold span
  cases hfound : findOpening? .block target lines with
  | none => rfl
  | some start =>
    obtain ⟨hstart, hopens⟩ := opens_of_findOpening? hfound
    dsimp only
    rw [matchingEnd_natCast hstart, if_neg hopens, Option.bind_some]
    cases closing? .block 0 (lines.drop start) <;> rfl

theorem span_eq_some_iff :
    span target lines = .ok (some (start, stop)) ↔
      findOpening? .block target lines = some start ∧
        ∃ offset, closing? .block 0 (lines.drop start) = some offset ∧ start + offset = stop := by
  rw [span_eq, Except.ok.injEq, Option.bind_eq_some_iff]
  constructor
  · rintro ⟨found, hfound, hclosing⟩
    obtain ⟨offset, hoffset, hspan⟩ := Option.map_eq_some_iff.1 hclosing
    cases hspan
    exact ⟨hfound, offset, hoffset, rfl⟩
  · rintro ⟨hfound, offset, hoffset, rfl⟩
    exact ⟨start, hfound, by rw [hoffset]; rfl⟩

/-- The lines in front of a line, the line itself and those behind it. -/
theorem exists_eq_append_cons (hstart : start < lines.length) :
    ∃ front opener rest, lines = front ++ opener :: rest ∧ front.length = start ∧ lines[start] = opener :=
  ⟨lines.take start, _, lines.drop (start + 1), by simp, List.length_take_of_le (Nat.le_of_lt hstart), rfl⟩

/-- The block of a line that opens one ends where the scan from that line ends. -/
theorem matchingEnd_append {opener : Text} (hopens : delimiter.opens opener ≠ 0) (front rest : List Text) :
    matchingEnd delimiter (front ++ opener :: rest) front.length =
      .ok (((closing? delimiter 0 (opener :: rest)).map (front.length + ·)).map Nat.cast) := by
  have hstart : front.length < (front ++ opener :: rest).length := by simp
  rw [matchingEnd_natCast hstart, List.drop_left]
  simp only [List.getElem_append_right (Nat.le_refl _), Nat.sub_self, List.getElem_cons_zero, if_neg hopens,
    Option.map_map]
  rfl

/-- Lines put in above a block move it along. -/
theorem matchingEnd_insert_above {opener : Text} (hopens : delimiter.opens opener ≠ 0)
    (run first last rest : List Text) :
    matchingEnd delimiter (first ++ run ++ (last ++ opener :: rest))
        (shift first.length run.length (first ++ last).length : Nat) =
      .ok ((((closing? delimiter 0 (opener :: rest)).map ((first ++ last).length + ·)).map
        (shift first.length run.length)).map Nat.cast) := by
  have hstart : shift first.length run.length (first ++ last).length = (first ++ run ++ last).length := by
    rw [shift_of_le (by simp)]
    simp only [List.length_append]
    omega
  rw [hstart, ← List.append_assoc, matchingEnd_append hopens]
  cases closing? delimiter 0 (opener :: rest) with
  | none => rfl
  | some offset =>
    have hplace : first.length ≤ (first ++ last).length + offset := by
      rw [List.length_append]
      omega
    simp only [Option.map_some]
    rw [shift_of_le hplace]
    simp only [List.length_append]
    congr 3
    omega

/-- Neutral lines put in below the line that opens a block move its end along if they come before it. -/
theorem matchingEnd_insert_below {opener : Text} (hopens : delimiter.opens opener ≠ 0) (hrun : delimiter.Neutral run)
    (above first last : List Text) :
    matchingEnd delimiter (above ++ opener :: first ++ run ++ last)
        (shift (above ++ opener :: first).length run.length above.length : Nat) =
      .ok ((((closing? delimiter 0 (opener :: (first ++ last))).map (above.length + ·)).map
        (shift (above ++ opener :: first).length run.length)).map Nat.cast) := by
  have hsplit : above ++ opener :: first ++ run ++ last = above ++ opener :: (first ++ run ++ last) := by simp
  have hscan : closing? delimiter 0 (opener :: (first ++ run ++ last)) =
      (closing? delimiter 0 (opener :: (first ++ last))).map (shift (opener :: first).length run.length) :=
    closing?_insert_eq hrun (List.cons_ne_nil opener first)
  rw [hsplit, shift_of_lt (by simp), matchingEnd_append hopens, hscan]
  cases closing? delimiter 0 (opener :: (first ++ last)) with
  | none => rfl
  | some offset =>
    simp only [Option.map_some, shift, List.length_append]
    congr 3
    split <;> split <;> omega

/-- **Neutral lines anywhere** leave a block where it is, but for the lines that they move along, and one
that never closes still never closes. -/
theorem matchingEnd_insert (hrun : delimiter.Neutral run) (hstart : start < lines.length)
    (hopens : delimiter.opens lines[start] ≠ 0) {place : Nat} (hplace : place ≤ lines.length) :
    ∃ found : Option Nat,
      matchingEnd delimiter lines start = .ok (found.map Nat.cast) ∧
        matchingEnd delimiter (lines.take place ++ run ++ lines.drop place) (shift place run.length start : Nat) =
          .ok ((found.map (shift place run.length)).map Nat.cast) := by
  obtain ⟨above, opener, rest, hlines, rfl, hopener⟩ := exists_eq_append_cons hstart
  obtain ⟨front, back, hsplit, rfl⟩ : ∃ front back, lines = front ++ back ∧ front.length = place :=
    ⟨lines.take place, lines.drop place, (List.take_append_drop ..).symm, List.length_take_of_le hplace⟩
  rw [hopener] at hopens
  refine ⟨_, hlines ▸ matchingEnd_append hopens above rest, ?_⟩
  have hinserted : lines.take front.length ++ run ++ lines.drop front.length = front ++ run ++ back := by
    rw [hsplit, List.take_left, List.drop_left]
  rw [hinserted]
  rcases List.append_eq_append_iff.1 (hlines.symm.trans hsplit) with ⟨more, rfl, hmore⟩ | ⟨last, rfl, rfl⟩
  · cases more with
    | nil =>
      -- the run comes right above the block
      obtain rfl : back = opener :: rest := by simpa using hmore.symm
      simpa using matchingEnd_insert_above hopens run above [] rest
    | cons line first =>
      obtain ⟨rfl, rfl⟩ := List.cons.inj hmore
      exact matchingEnd_insert_below hopens hrun above first back
  · exact matchingEnd_insert_above hopens run front last rest

/-- A block put in front of the end of one that is within another moves the end of the outer one from three to six. -/
theorem matchingEnd_insert_nested :
    Delimiter.block.Neutral (["c do", "d", "end"].map Text.lit) ∧
      Delimiter.block.opens (Text.lit "a do") ≠ 0 ∧
      matchingEnd .block (["a do", "b \x7b", "\x7d", "end"].map Text.lit) (0 : Nat) = .ok (some 3) ∧
      matchingEnd .block
          ((["a do", "b \x7b", "\x7d", "end"].map Text.lit).take 2 ++ ["c do", "d", "end"].map Text.lit ++
            (["a do", "b \x7b", "\x7d", "end"].map Text.lit).drop 2) (0 : Nat) = .ok (some 6) := by
  have hrun : Delimiter.block.Neutral (["c do", "d", "end"].map Text.lit) := by decide +kernel
  have hopens : Delimiter.block.opens (Text.lit "a do") ≠ 0 := by decide +kernel
  have hstart : 0 < (["a do", "b \x7b", "\x7d", "end"].map Text.lit).length := by decide
  have hend : matchingEnd .block (["a do", "b \x7b", "\x7d", "end"].map Text.lit) (0 : Nat) = .ok (some 3) := by
    decide +kernel
  obtain ⟨found, hfound, hmoved⟩ := matchingEnd_insert hrun hstart hopens (show 2 ≤ 4 by decide)
  obtain rfl : found = some 3 := by
    cases found with
    | none => exact absurd (hfound.symm.trans hend) (by decide)
    | some index =>
      have hindex := Option.some.inj (Except.ok.inj (hfound.symm.trans hend))
      exact congrArg some (Int.ofNat.inj hindex)
  exact ⟨hrun, hopens, hend, hmoved⟩

/-- **Neutral lines within a block** leave its start where it is and move its end along. -/
theorem span_insert (hrun : Delimiter.block.Neutral run)
    (h : span target (front ++ back) = .ok (some (start, stop))) (hstart : start < front.length)
    (hstop : front.length ≤ stop) :
    span target (front ++ run ++ back) = .ok (some (start, stop + run.length)) := by
  obtain ⟨hfound, offset, hclosing, rfl⟩ := span_eq_some_iff.1 h
  refine span_eq_some_iff.2 ⟨?_, offset + run.length, ?_, by omega⟩
  · rw [List.append_assoc]
    exact (List.prefix_append front _).findIdx?_eq_some (findOpening?_of_append hfound hstart)
  · rw [List.drop_append_of_le_length (Nat.le_of_lt hstart)] at hclosing
    rw [List.append_assoc, List.drop_append_of_le_length (Nat.le_of_lt hstart), ← List.append_assoc]
    refine closing?_insert hrun ?_ ?_ hclosing
    · simpa using hstart
    · rw [List.length_drop]
      omega

/-! ## Where edits find their place -/

theorem lt_of_find? {which : Occurrence} {index : Nat} (h : find? which target lines = some index) :
    index < lines.length := by
  cases which with
  | first => exact (List.findIdx?_eq_some_iff_getElem.1 h).1
  | last =>
    obtain ⟨back, hback, rfl⟩ := Option.map_eq_some_iff.1 h
    have hlt := (List.findIdx?_eq_some_iff_getElem.1 hback).1
    rw [List.length_reverse] at hlt
    omega

theorem find?_eq_none_iff {which : Occurrence} :
    find? which target lines = none ↔ ∀ line ∈ lines, target.isIn line = false := by
  cases which with
  | first => exact List.findIdx?_eq_none_iff
  | last =>
    rw [find?, findLast?, Option.map_eq_none_iff, List.findIdx?_eq_none_iff]
    simp only [List.mem_reverse]

/-- What is found is a line that contains the target. -/
theorem exists_of_find? {which : Occurrence} {index : Nat} (h : find? which target lines = some index) :
    ∃ front line back, lines = front ++ line :: back ∧ front.length = index ∧ target.isIn line = true := by
  obtain ⟨front, line, back, hlines, hlength, hline⟩ := exists_eq_append_cons (lt_of_find? h)
  refine ⟨front, line, back, hlines, hlength, ?_⟩
  rw [← hline]
  cases which with
  | first => exact (List.findIdx?_eq_some_iff_getElem.1 h).2.1
  | last =>
    obtain ⟨offset, hoffset, rfl⟩ := Option.map_eq_some_iff.1 h
    have hfound := (List.findIdx?_eq_some_iff_getElem.1 hoffset).2.1
    rwa [List.getElem_reverse] at hfound

/-- The end of a block lies at or after its start, and is one of the lines. -/
theorem bounds_of_matchingEnd {last : Int} (h : matchingEnd delimiter lines start = .ok (some last)) :
    start ≤ last.toNat ∧ last.toNat < lines.length := by
  by_cases hstart : start < lines.length
  · rw [matchingEnd_natCast hstart] at h
    split at h
    · cases h
    · obtain ⟨offset, hoffset, rfl⟩ := Option.map_eq_some_iff.1 (Except.ok.inj h)
      have hlt := lt_of_closing? hoffset
      rw [List.length_drop] at hlt
      omega
  · rw [matchingEnd, linesFrom?_natCast, if_neg hstart] at h
    cases h

theorem bounds_of_span (h : span target lines = .ok (some (start, stop))) :
    start ≤ stop ∧ stop < lines.length := by
  obtain ⟨-, offset, hoffset, rfl⟩ := span_eq_some_iff.1 h
  have hlt := lt_of_closing? hoffset
  rw [List.length_drop] at hlt
  omega

/-- The class of a target starts at the head that it refers to and ends where the body is closed. -/
theorem exists_of_classSpan (h : classSpan target lines = .ok (some (start, stop))) :
    findHeader Delimiter.classHeader target lines = .ok (some start) ∧
      ∃ last : Int, matchingEnd .classBody lines start = .ok (some last) ∧ last.toNat = stop := by
  obtain ⟨header, hheader, h⟩ := exists_of_bind_eq_ok h
  cases header with
  | none => cases h
  | some first =>
    obtain ⟨ended, hended, h⟩ := exists_of_bind_eq_ok h
    cases ended with
    | none => cases h
    | some last =>
      cases h
      exact ⟨hheader, last, hended, rfl⟩

theorem bounds_of_classSpan (h : classSpan target lines = .ok (some (start, stop))) :
    start ≤ stop ∧ stop < lines.length := by
  obtain ⟨-, last, hlast, rfl⟩ := exists_of_classSpan h
  exact bounds_of_matchingEnd hlast

end Block

end Linework
