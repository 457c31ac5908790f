import Linework.Proofs.Block.Depth

/-!
# Nested blocks

Blocks that are nested as brackets are (`Delimiter.Balanced`), and the line that closes a block. Balanced
lines are neutral, and neutral lines are balanced if none of them opens or closes more than one block on
balance (`balanced_iff_neutral`): where the depth is first back at zero, a block within them ends. So the scan
for the end of a block finds the line that closes it, behind a balanced body (`matchingEnd_balanced`).
-/

namespace Linework

namespace Delimiter

variable {delimiter : Delimiter} {lines front back body : List Text} {opener closer line : Text}

/-- Lines that are nested as brackets are. -/
inductive Balanced (delimiter : Delimiter) : List Text → Prop
  | nil : Balanced delimiter []
  | level {line : Text} (hline : delimiter.net line = 0) : Balanced delimiter [line]
  | block {opener closer : Text} {body : List Text} (hopener : delimiter.net opener = 1)
      (hbody : Balanced delimiter body) (hcloser : delimiter.net closer = -1) :
      Balanced delimiter (opener :: body ++ [closer])
  | append {front back : List Text} (hfront : Balanced delimiter front) (hback : Balanced delimiter back) :
      Balanced delimiter (front ++ back)

/-- No line opens more than one block on balance, and none closes more than one. -/
def Single (delimiter : Delimiter) (lines : List Text) : Prop :=
  ∀ line ∈ lines, -1 ≤ delimiter.net line ∧ delimiter.net line ≤ 1

instance (delimiter : Delimiter) (lines : List Text) : Decidable (delimiter.Single lines) :=
  inferInstanceAs (Decidable (∀ line ∈ lines, -1 ≤ delimiter.net line ∧ delimiter.net line ≤ 1))

@[simp] theorem total_append (front back : List Text) :
    delimiter.total (front ++ back) = delimiter.total front + delimiter.total back := by
  simp [total]

theorem neutral_nil : delimiter.Neutral [] where
  nonneg front hfront := by
    rw [List.prefix_nil.1 hfront]
    exact Int.le_refl 0
  settled := rfl

theorem Neutral.append (hfront : delimiter.Neutral front) (hback : delimiter.Neutral back) :
    delimiter.Neutral (front ++ back) where
  nonneg part hpart := by
    rcases List.prefix_or_prefix_of_prefix hpart (List.prefix_append front back) with hshort | ⟨more, rfl⟩
    · exact hfront.nonneg part hshort
    · have hmore := hback.nonneg more ((List.prefix_append_right_inj front).1 hpart)
      rw [total_append, hfront.settled]
      omega
  settled := by
    rw [total_append, hfront.settled, hback.settled]
    rfl

/-- What is neutral behind neutral lines. -/
theorem Neutral.of_append (h : delimiter.Neutral (front ++ back)) (hfront : delimiter.total front = 0) :
    delimiter.Neutral back where
  nonneg part hpart := by
    have hnonneg := h.nonneg (front ++ part) ((List.prefix_append_right_inj front).2 hpart)
    rw [total_append] at hnonneg
    omega
  settled := by
    have hsettled := h.settled
    rw [total_append] at hsettled
    omega

theorem Neutral.block (hopener : delimiter.net opener = 1) (hbody : delimiter.Neutral body)
    (hcloser : delimiter.net closer = -1) : delimiter.Neutral (opener :: body ++ [closer]) where
  nonneg part hpart := by
    rcases List.prefix_concat_iff.1 hpart with rfl | hpart
    · simp only [total_append, total_cons, total_nil, hbody.settled]
      omega
    · rcases List.prefix_cons_iff.1 hpart with rfl | ⟨more, rfl, hmore⟩
      · exact Int.le_refl 0
      · have hnonneg := hbody.nonneg more hmore
        rw [total_cons]
        omega
  settled := by
    simp only [total_append, total_cons, total_nil, hbody.settled]
    omega

theorem Balanced.neutral (h : delimiter.Balanced lines) : delimiter.Neutral lines := by
  induction h with
  | nil => exact neutral_nil
  | @level line hline =>
    refine ⟨fun part hpart => ?_, by simpa using hline⟩
    rcases List.prefix_cons_iff.1 hpart with rfl | ⟨more, rfl, hmore⟩
    · exact Int.le_refl 0
    · rw [List.prefix_nil.1 hmore, total_cons, total_nil]
      omega
  | block hopener _ hcloser ih => exact ih.block hopener hcloser
  | append _ _ ihfront ihback => exact ihfront.append ihback

end Delimiter

namespace Block

open Delimiter

variable {delimiter : Delimiter} {depth : Int} {lines rest : List Text} {opener : Text} {start stop offset : Nat}

/-- A scan ends at the first line after which the depth is not positive. -/
theorem closing?_eq_some_iff :
    closing? delimiter depth lines = some offset ↔
      ∃ front line back, lines = front ++ line :: back ∧ front.length = offset ∧
        closing? delimiter depth front = none ∧ depth + delimiter.total front + delimiter.net line ≤ 0 := by
  constructor
  · intro h
    have hlt := lt_of_closing? h
    have hsplit : lines = lines.take offset ++ lines[offset] :: lines.drop (offset + 1) := by simp
    have hlength : (lines.take offset).length = offset := List.length_take_of_le (Nat.le_of_lt hlt)
    rw [hsplit] at h
    have hnone := closing?_eq_none_of_le h (Nat.le_of_eq hlength)
    refine ⟨_, _, _, hsplit, hlength, hnone, ?_⟩
    rw [closing?_append, hnone, Option.none_or, closing?] at h
    split at h
    · assumption
    · obtain ⟨found, hfound, heq⟩ := Option.map_eq_some_iff.1 h
      obtain ⟨less, -, rfl⟩ := Option.map_eq_some_iff.1 hfound
      omega
  · rintro ⟨front, line, back, rfl, rfl, hnone, hdepth⟩
    rw [closing?_append, hnone, Option.none_or, closing?, if_pos hdepth, Option.map_some, Nat.zero_add]

/-- **The end of a block** closes one block more than it opens, behind a neutral body. -/
theorem exists_body_of_closing? (hsingle : delimiter.Single lines)
    (h : closing? delimiter 1 lines = some offset) :
    ∃ body closer back, lines = body ++ closer :: back ∧ body.length = offset ∧ delimiter.Neutral body ∧
      delimiter.net closer = -1 := by
  obtain ⟨body, closer, back, rfl, hlength, hnone, hdepth⟩ := closing?_eq_some_iff.1 h
  have hcloser := hsingle closer (by simp)
  have hnonneg : ∀ part, part <+: body → 0 ≤ delimiter.total part := by
    intro part hpart
    by_cases hnil : part = []
    · rw [hnil]
      exact Int.le_refl 0
    · have hpositive := closing?_eq_none_iff.1 hnone part hpart hnil
      omega
  have hbody := hnonneg body (List.prefix_refl body)
  exact ⟨body, closer, back, rfl, hlength, ⟨hnonneg, by omega⟩, by omega⟩

/-- The scan of a block with a neutral body ends behind it. -/
theorem closing?_of_neutral {body back : List Text} {closer : Text} (hopener : delimiter.net opener = 1)
    (hbody : delimiter.Neutral body) (hcloser : delimiter.net closer = -1) :
    closing? delimiter 0 (opener :: body ++ closer :: back) = some (body.length + 1) := by
  refine closing?_eq_some_iff.2 ⟨opener :: body, closer, back, rfl, rfl, ?_, ?_⟩
  · rw [closing?, if_neg (by omega), hopener, closing?_eq_none_of_neutral hbody (by omega), Option.map_none]
  · rw [total_cons, hopener, hbody.settled]
    omega

end Block

namespace Delimiter

open Block

variable {delimiter : Delimiter} {lines rest : List Text} {opener : Text}

/-- Neutral lines that open a block close it, and are neutral behind it. -/
theorem Neutral.exists_block (h : delimiter.Neutral (opener :: rest)) (hopener : delimiter.net opener = 1)
    (hsingle : delimiter.Single rest) :
    ∃ body closer back, rest = body ++ closer :: back ∧ delimiter.Neutral body ∧ delimiter.net closer = -1 ∧
      delimiter.Neutral back := by
  have hsettled := h.settled
  rw [total_cons, hopener] at hsettled
  cases hclosing : closing? delimiter 1 rest with
  | none =>
    -- a block that never closes leaves the depth positive
    by_cases hnil : rest = []
    · rw [hnil, total_nil] at hsettled
      omega
    · have hpositive := closing?_eq_none_iff.1 hclosing rest (List.prefix_refl rest) hnil
      omega
  | some offset =>
    obtain ⟨body, closer, back, rfl, -, hbody, hcloser⟩ := exists_body_of_closing? hsingle hclosing
    have hblock := Neutral.block hopener hbody hcloser
    have hsplit : opener :: (body ++ closer :: back) = opener :: body ++ [closer] ++ back := by simp
    rw [hsplit] at h
    exact ⟨body, closer, back, rfl, hbody, hcloser, h.of_append hblock.settled⟩

theorem Neutral.balanced (h : delimiter.Neutral lines) (hsingle : delimiter.Single lines) :
    delimiter.Balanced lines := by
  induction hlength : lines.length using Nat.strongRecOn generalizing lines with
  | ind length ih =>
    subst hlength
    cases lines with
    | nil => exact .nil
    | cons line rest =>
      have hline := hsingle line List.mem_cons_self
      have hrest : delimiter.Single rest := fun other hother => hsingle other (List.mem_cons_of_mem _ hother)
      have hnonneg := h.nonneg [line] (by simp)
      rw [total_cons, total_nil] at hnonneg
      by_cases hlevel : delimiter.net line = 0
      · have hsplit : line :: rest = [line] ++ rest := rfl
        have hneutral : delimiter.Neutral rest := (hsplit ▸ h).of_append (by simpa using hlevel)
        exact .append (.level hlevel) (ih rest.length (by simp) hneutral hrest rfl)
      · have hopener : delimiter.net line = 1 := by omega
        obtain ⟨body, closer, back, rfl, hbody, hcloser, hback⟩ := h.exists_block hopener hrest
        have hsplit : line :: (body ++ closer :: back) = (line :: body ++ [closer]) ++ back := by simp
        rw [hsplit]
        refine .append (.block hopener (ih body.length ?_ hbody ?_ rfl) hcloser) (ih back.length ?_ hback ?_ rfl)
        · simp only [List.length_cons, List.length_append]
          omega
        · exact fun other hother => hrest other (by simp [hother])
        · simp only [List.length_cons, List.length_append]
          omega
        · exact fun other hother => hrest other (by simp [hother])

/-- **Balanced lines** are those that never close more than they opened, and in the end have closed all. -/
theorem balanced_iff_neutral (hsingle : delimiter.Single lines) :
    delimiter.Balanced lines ↔ delimiter.Neutral lines :=
  ⟨Balanced.neutral, fun h => h.balanced hsingle⟩

end Delimiter

namespace Block

open Delimiter

variable {delimiter : Delimiter} {lines : List Text} {start stop : Nat}

/-- The block opened at one line is closed at another: what lies between them is balanced. -/
structure ClosedAt (delimiter : Delimiter) (lines : List Text) (start stop : Nat) : Prop where
  later : start < stop
  body : delimiter.Balanced ((lines.drop (start + 1)).take (stop - (start + 1)))
  closer : ∃ line, lines[stop]? = some line ∧ delimiter.net line = -1

theorem closedAt_append_iff {front rest : List Text} {opener : Text} :
    ClosedAt delimiter (front ++ opener :: rest) front.length stop ↔
      ∃ body closer back, rest = body ++ closer :: back ∧ front.length + 1 + body.length = stop ∧
        delimiter.Balanced body ∧ delimiter.net closer = -1 := by
  have hrest : (front ++ opener :: rest).drop (front.length + 1) = rest := by
    rw [List.append_cons, List.drop_left' (by simp)]
  have hget : ∀ count, (front ++ opener :: rest)[front.length + 1 + count]? = rest[count]? := by
    intro count
    rw [← List.getElem?_drop, hrest]
  constructor
  · rintro ⟨hlater, hbody, closer, hcloser, hnet⟩
    obtain ⟨count, rfl⟩ := Nat.exists_eq_add_of_le hlater
    rw [hrest, Nat.add_sub_cancel_left] at hbody
    rw [hget] at hcloser
    obtain ⟨hcount, rfl⟩ := List.getElem?_eq_some_iff.1 hcloser
    refine ⟨rest.take count, rest[count], rest.drop (count + 1), by simp, ?_, hbody, hnet⟩
    rw [List.length_take_of_le (Nat.le_of_lt hcount)]
  · rintro ⟨body, closer, back, rfl, rfl, hbody, hnet⟩
    refine ⟨by omega, ?_, closer, ?_, hnet⟩
    · rw [hrest, Nat.add_sub_cancel_left, List.take_left]
      exact hbody
    · rw [hget, List.getElem?_append_right (Nat.le_refl _), Nat.sub_self, List.getElem?_cons_zero]

/-- The scan from a line that opens one block ends where the block is closed. -/
theorem map_closing?_eq_some_iff {front rest : List Text} {opener : Text} (hsingle : delimiter.Single rest)
    (hopener : delimiter.net opener = 1) :
    (closing? delimiter 0 (opener :: rest)).map (front.length + ·) = some stop ↔
      ClosedAt delimiter (front ++ opener :: rest) front.length stop := by
  rw [closedAt_append_iff, Option.map_eq_some_iff]
  constructor
  · rintro ⟨offset, h, rfl⟩
    rw [closing?, if_neg (by omega), hopener, Int.zero_add, Option.map_eq_some_iff] at h
    obtain ⟨less, hless, rfl⟩ := h
    obtain ⟨body, closer, back, rfl, rfl, hbody, hcloser⟩ := exists_body_of_closing? hsingle hless
    have hinside : delimiter.Single body := fun line hline => hsingle line (List.mem_append_left _ hline)
    exact ⟨body, closer, back, rfl, by omega, hbody.balanced hinside, hcloser⟩
  · rintro ⟨body, closer, back, rfl, rfl, hbody, hcloser⟩
    exact ⟨body.length + 1, closing?_of_neutral hopener hbody.neutral hcloser, by omega⟩

theorem opens_ne_zero_of_net {opener : Text} (hopener : delimiter.net opener = 1) : delimiter.opens opener ≠ 0 := by
  unfold net at hopener
  omega

/-- **Well-nested blocks are those that are found**: a block with a balanced body ends at the line that closes
it, and where no line opens or closes more than one block on balance, the end of a block is found exactly if
there is a line that closes it behind a balanced body. -/
theorem matchingEnd_balanced (delimiter : Delimiter) :
    (∀ (front body back : List Text) (opener closer : Text), delimiter.net opener = 1 →
      delimiter.net closer = -1 → delimiter.Balanced body →
        matchingEnd delimiter (front ++ [opener] ++ body ++ [closer] ++ back) front.length =
          .ok (some (front.length + 1 + body.length : Nat))) ∧
      ∀ (lines : List Text) (start : Nat) (hstart : start < lines.length), delimiter.Single lines →
        delimiter.net lines[start] = 1 →
          ∃ found : Option Nat, matchingEnd delimiter lines start = .ok (found.map Nat.cast) ∧
            (∀ stop, found = some stop → ClosedAt delimiter lines start stop) ∧
            (found = none ↔ ∀ stop, ¬ ClosedAt delimiter lines start stop) := by
  constructor
  · intro front body back opener closer hopener hcloser hbody
    have hsplit : front ++ [opener] ++ body ++ [closer] ++ back = front ++ opener :: (body ++ closer :: back) := by
      simp
    have hclosing : closing? delimiter 0 (opener :: (body ++ closer :: back)) = some (body.length + 1) :=
      closing?_of_neutral hopener hbody.neutral hcloser
    rw [hsplit, matchingEnd_append (opens_ne_zero_of_net hopener), hclosing, Option.map_some, Option.map_some,
      Nat.add_comm body.length, ← Nat.add_assoc]
  · intro lines start hstart hsingle hnet
    obtain ⟨front, opener, rest, hlines, rfl, hopener⟩ := exists_eq_append_cons hstart
    rw [hopener] at hnet
    subst hlines
    have hrest : delimiter.Single rest := fun line hline => hsingle line (by simp [hline])
    have hfound : ∀ stop, (closing? delimiter 0 (opener :: rest)).map (front.length + ·) = some stop ↔
        ClosedAt delimiter (front ++ opener :: rest) front.length stop := fun stop =>
      map_closing?_eq_some_iff hrest hnet
    refine ⟨_, matchingEnd_append (opens_ne_zero_of_net hnet) front rest, fun stop => (hfound stop).1, ?_⟩
    rw [Option.eq_none_iff_forall_ne_some]
    exact forall_congr' fun stop => not_congr (hfound stop)

/-- The lines of a block with a block in it, and one that is never closed. -/
theorem matchingEnd_balanced_nested :
    matchingEnd .block (["a"].map Text.lit ++ [Text.lit "b do"] ++ ["c \x7b", "d", "\x7d"].map Text.lit ++
        [Text.lit "end"] ++ ["end"].map Text.lit) (1 : Nat) = .ok (some (5 : Nat)) ∧
      ∃ found : Option Nat,
        matchingEnd .block (["b do", "c \x7b", "d", "\x7d"].map Text.lit) (0 : Nat) = .ok (found.map Nat.cast) ∧
          (∀ stop, found = some stop → ClosedAt .block (["b do", "c \x7b", "d", "\x7d"].map Text.lit) 0 stop) ∧
          (found = none ↔ ∀ stop, ¬ ClosedAt .block (["b do", "c \x7b", "d", "\x7d"].map Text.lit) 0 stop) := by
  have hopener : Delimiter.block.net (Text.lit "b do") = 1 := by decide +kernel
  have hcloser : Delimiter.block.net (Text.lit "end") = -1 := by decide +kernel
  have hbody : Delimiter.block.Balanced (["c \x7b", "d", "\x7d"].map Text.lit) :=
    have hinside : Delimiter.block.Balanced [Text.lit "d"] := .level (by decide +kernel)
    .block (by decide +kernel) hinside (by decide +kernel)
  exact ⟨(matchingEnd_balanced .block).1 _ _ _ _ _ hopener hcloser hbody,
    (matchingEnd_balanced .block).2 _ 0 (by decide) (by decide +kernel) hopener⟩

end Block

end Linework
