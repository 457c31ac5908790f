import Linework.Proofs.Edit.Splice
import Mathlib.Data.List.GetD

/-!
# Edits within a block

Edits at the top and at the bottom of a block, made one after the other. What an edit adds moves the end
of the block and nothing else (`HasBlock.insert`): the block is found by the same line, it is closed by
the same line, and lines are added at the same depth and with the same terminator. So additions at one
end come to one addition, and additions at both ends do not get in each other's way.
-/

namespace Linework

namespace Line

variable {newline : Newline} {line : Text} {lines : List Text}

theorem Ended.exists_terminator? (h : Ended newline line) : ∃ closing, terminator? line = some closing := by
  obtain ⟨kind, hkind⟩ := exists_terminator?_of_isTerminated h.isTerminated
  exact ⟨kind.text, hkind⟩

/-- The terminator of an ended line is the one that is detected when it comes first. -/
theorem detect_cons {closing : Text} (h : terminator? line = some closing) (rest : List Text) (default : Text) :
    detect (line :: rest) default = closing := by
  rw [detect, List.findSome?_cons, h, Option.getD_some]

/-- There is a line after the first, so the first is ended. -/
theorem exists_closing_of_split (hsplit : split newline.text lines.flatten = lines) (hlong : 1 < lines.length) :
    ∃ line rest closing, lines = line :: rest ∧ Ended newline line ∧ terminator? line = some closing := by
  obtain ⟨line, rest, rfl⟩ := List.exists_cons_of_length_pos (by omega : 0 < lines.length)
  have hrest : rest ≠ [] := by
    rintro rfl
    simp at hlong
  have hfront : [line] ++ rest = split newline.text (line :: rest).flatten := hsplit.symm
  have hended := ended_of_append_eq_split hfront hrest line List.mem_cons_self
  obtain ⟨closing, hclosing⟩ := hended.exists_terminator?
  exact ⟨line, rest, closing, rfl, hended, hclosing⟩

end Line

namespace Edit

open Line

variable {settings : Settings} {target : Target} {above below : List Text → List Text} {start stop : Nat}
  {lines front middle back run : List Text} {newline path : Text} {contents first last : List Text}

/-- The lines that contents come to inside a block, one level deeper than the line at `index`. -/
def added (settings : Settings) (lines : List Text) (index : Nat) (contents : List Text) : List Text :=
  inside settings (detect lines settings.newline.text) lines index contents

theorem added_append (index : Nat) (first last : List Text) :
    added settings lines index (first ++ last) =
      added settings lines index first ++ added settings lines index last := by
  simp [added, inside, indent, expand]

/-- What is added inside some lines is ended as they are, whatever terminator the settings of the edit name. -/
theorem ended_of_mem_added_of_split {kind : Newline} (hsplit : split kind.text lines.flatten = lines)
    (hlong : 1 < lines.length) {index : Nat} (hindex : index < lines.length) (contents : List Text) :
    ∀ line ∈ added settings lines index contents, Ended kind line := by
  have hlines : ∀ other ∈ lines, Ended kind other ∨ Unsplit kind other := by
    intro other hother
    rw [← hsplit] at hother
    exact ended_or_unsplit_of_mem_split hother
  obtain ⟨line, rest, closing, rfl, hended, hclosing⟩ := exists_closing_of_split hsplit hlong
  rw [added, detect_cons hclosing]
  exact @ended_of_mem_inside { settings with newline := kind } _ _ (hended.closing hclosing) hlines _ hindex _

/-- The content after an edit of its lines. -/
def rewritten (settings : Settings) (path : Text) (e : Edit) (content : Text) : Except Failure Text := do
  let splice ← e.splice settings path (split settings.newline.text content)
  return (splice.apply (split settings.newline.text content)).flatten

theorem rewritten_of_splice {e : Edit} {content : Text} {splice : Splice}
    (h : e.splice settings path (split settings.newline.text content) = .ok splice) :
    rewritten settings path e content = .ok (splice.apply (split settings.newline.text content)).flatten := by
  unfold rewritten
  rw [h]
  rfl

/-- The content after edits made one after the other; the first that fails is the last. -/
def rewrittenAll (settings : Settings) (path : Text) : List Edit → Text → Except Failure Text
  | [], content => .ok content
  | e :: rest, content => rewritten settings path e content >>= rewrittenAll settings path rest

theorem rewrittenAll_cons {e : Edit} {rest : List Edit} {content next : Text}
    (h : rewritten settings path e content = .ok next) :
    rewrittenAll settings path (e :: rest) content = rewrittenAll settings path rest next := by
  rw [rewrittenAll, h]
  rfl

theorem rewrittenAll_singleton {e : Edit} {content next : Text} (h : rewritten settings path e content = .ok next) :
    rewrittenAll settings path [e] content = .ok next := rewrittenAll_cons h

/-- The lines of a content, with the block of a target in them from one line to a later one, and the lines
that contents come to at its top and at its bottom. -/
structure HasBlock (settings : Settings) (target : Target) (above below : List Text → List Text)
    (start stop : Nat) (lines : List Text) : Prop where
  split : split settings.newline.text lines.flatten = lines
  span : Block.span target lines = .ok (some (start, stop))
  later : start < stop
  above : added settings lines start = above
  below : added settings lines stop = below

namespace HasBlock

theorem of_span {content : Text}
    (hspan : Block.span target (Line.split settings.newline.text content) = .ok (some (start, stop)))
    (hlater : start < stop) :
    let lines := Line.split settings.newline.text content
    HasBlock settings target (added settings lines start) (added settings lines stop) start stop lines where
  split := by rw [flatten_split]
  span := hspan
  later := hlater
  above := rfl
  below := rfl

theorem exists_closing (h : HasBlock settings target above below start stop lines) :
    ∃ line rest closing, lines = line :: rest ∧ Ended settings.newline line ∧ terminator? line = some closing := by
  have hlt := (Block.bounds_of_span h.span).2
  have hlater := h.later
  exact exists_closing_of_split h.split (by omega)

theorem ended_of_mem_added (h : HasBlock settings target above below start stop lines) {index : Nat}
    (hindex : index < lines.length) (contents : List Text) :
    ∀ line ∈ added settings lines index contents, Ended settings.newline line := by
  have hlt := (Block.bounds_of_span h.span).2
  have hlater := h.later
  exact ended_of_mem_added_of_split h.split (by omega) hindex contents

theorem ended_above (h : HasBlock settings target above below start stop lines) (contents : List Text) :
    ∀ line ∈ above contents, Ended settings.newline line := by
  have hlt := (Block.bounds_of_span h.span).2
  have hlater := h.later
  rw [← h.above]
  exact h.ended_of_mem_added (by omega) contents

theorem ended_below (h : HasBlock settings target above below start stop lines) (contents : List Text) :
    ∀ line ∈ below contents, Ended settings.newline line := by
  rw [← h.below]
  exact h.ended_of_mem_added (Block.bounds_of_span h.span).2 contents

/-- **Neutral lines added within the block** move its end along and leave all else as it was. -/
theorem insert (h : HasBlock settings target above below start stop (front ++ back))
    (hstart : start < front.length) (hstop : front.length ≤ stop) (hrun : Delimiter.block.Neutral run)
    (hended : ∀ line ∈ run, Ended settings.newline line) :
    HasBlock settings target above below start (stop + run.length) (front ++ run ++ back) := by
  have hlt := (Block.bounds_of_span h.span).2
  have hback : back ≠ [] := by
    rintro rfl
    rw [List.append_nil] at hlt
    omega
  -- the first line stays the first, and its terminator is the one that is detected
  have hdetect : detect (front ++ run ++ back) settings.newline.text =
      detect (front ++ back) settings.newline.text := by
    obtain ⟨line, rest, closing, hlines, -, hclosing⟩ := h.exists_closing
    obtain ⟨line', more, rfl⟩ := List.exists_cons_of_length_pos (by omega : 0 < front.length)
    obtain ⟨rfl, -⟩ := List.cons.inj hlines
    rw [List.cons_append, List.cons_append, List.cons_append, detect_cons hclosing, detect_cons hclosing]
  -- the lines that the additions are indented by stay what they are, the last one further down
  have htop : (front ++ run ++ back).getD start [] = (front ++ back).getD start [] := by
    rw [List.append_assoc, List.getD_append _ _ _ _ hstart, List.getD_append _ _ _ _ hstart]
  have hbottom : (front ++ run ++ back).getD (stop + run.length) [] = (front ++ back).getD stop [] := by
    rw [List.getD_append_right _ _ _ _ (by rw [List.length_append]; omega), List.getD_append_right _ _ _ _ hstop,
      List.length_append, Nat.add_sub_add_right]
  refine ⟨split_insert h.split.symm hback hended, Block.span_insert hrun h.span hstart hstop,
    Nat.lt_of_lt_of_le h.later (Nat.le_add_right _ _), ?_, ?_⟩
  · funext contents
    rw [← h.above, added, added, inside, inside, hdetect, htop]
  · funext contents
    rw [← h.below, added, added, inside, inside, hdetect, hbottom]

/-! ## The edits -/

theorem rewritten_of_splice (h : HasBlock settings target above below start stop (front ++ back)) {e : Edit}
    (hsplice : e.splice settings path (front ++ back) = .ok ⟨front.length, 0, run⟩) :
    rewritten settings path e (front ++ back).flatten = .ok (front ++ run ++ back).flatten := by
  rw [rewritten, h.split, hsplice]
  show Except.ok (Splice.apply _ _).flatten = _
  rw [Splice.apply]
  simp

theorem rewritten_top (h : HasBlock settings target above below start stop (front ++ back))
    (hfront : front.length = start + 1) (path : Text) (contents : List Text) :
    rewritten settings path (.insertBlockTop target contents) (front ++ back).flatten =
      .ok (front ++ above contents ++ back).flatten := by
  refine h.rewritten_of_splice ?_
  rw [← h.above, hfront]
  unfold Edit.splice
  dsimp only
  rw [h.span]
  exact if_neg (Nat.ne_of_gt h.later)

theorem rewritten_bottom (h : HasBlock settings target above below start stop (front ++ back))
    (hfront : front.length = stop) (path : Text) (contents : List Text) :
    rewritten settings path (.insertBlockBottom target contents) (front ++ back).flatten =
      .ok (front ++ below contents ++ back).flatten := by
  refine h.rewritten_of_splice ?_
  rw [← h.below, hfront]
  unfold Edit.splice
  dsimp only
  rw [h.span]
  exact if_neg (Nat.ne_of_gt h.later)

/-! ## One edit after another -/

theorem above_append (h : HasBlock settings target above below start stop lines) (first last : List Text) :
    above (first ++ last) = above first ++ above last := by
  rw [← h.above, added_append]

theorem below_append (h : HasBlock settings target above below start stop lines) (first last : List Text) :
    below (first ++ last) = below first ++ below last := by
  rw [← h.below, added_append]

/-- **At the bottom**, what is added first comes first. -/
theorem bottoms (h : HasBlock settings target above below start stop (front ++ back))
    (hfront : front.length = stop) (hfirst : Delimiter.block.Neutral (below first)) (path : Text)
    (last : List Text) :
    rewrittenAll settings path [.insertBlockBottom target first, .insertBlockBottom target last]
        (front ++ back).flatten = .ok (front ++ below (first ++ last) ++ back).flatten := by
  have hlater := h.later
  have hmoved := h.insert (by omega) (by omega) hfirst (h.ended_below first)
  have hlength : (front ++ below first).length = stop + (below first).length := by
    rw [List.length_append, hfront]
  rw [rewrittenAll_cons (h.rewritten_bottom hfront path first),
    rewrittenAll_cons (hmoved.rewritten_bottom hlength path last), h.below_append, ← List.append_assoc]
  rfl

/-- **At the top**, what is added last comes first. -/
theorem tops (h : HasBlock settings target above below start stop (front ++ back))
    (hfront : front.length = start + 1) (hfirst : Delimiter.block.Neutral (above first)) (path : Text)
    (last : List Text) :
    rewrittenAll settings path [.insertBlockTop target first, .insertBlockTop target last]
        (front ++ back).flatten = .ok (front ++ above (last ++ first) ++ back).flatten := by
  have hlater := h.later
  have hmoved := h.insert (by omega) (by omega) hfirst (h.ended_above first)
  rw [List.append_assoc] at hmoved
  rw [rewrittenAll_cons (h.rewritten_top hfront path first), List.append_assoc,
    rewrittenAll_cons (hmoved.rewritten_top hfront path last), h.above_append, List.append_assoc,
    List.append_assoc, List.append_assoc]
  rfl

section Apart

variable (h : HasBlock settings target above below start stop (front ++ middle ++ back))
  (hfront : front.length = start + 1) (hmiddle : front.length + middle.length = stop)
include h hfront hmiddle

/-- **At both ends**, the top before the bottom. -/
theorem top_bottom (hfirst : Delimiter.block.Neutral (above first)) (path : Text) (last : List Text) :
    rewrittenAll settings path [.insertBlockTop target first, .insertBlockBottom target last]
        (front ++ middle ++ back).flatten =
      .ok (front ++ above first ++ middle ++ below last ++ back).flatten := by
  have hlength : (front ++ above first ++ middle).length = stop + (above first).length := by
    simp only [List.length_append]
    omega
  have hlater := h.later
  rw [List.append_assoc] at h
  have hmoved := h.insert (by omega) (by omega) hfirst (h.ended_above first)
  rw [← List.append_assoc] at hmoved
  rw [List.append_assoc, rewrittenAll_cons (h.rewritten_top hfront path first), ← List.append_assoc,
    rewrittenAll_cons (hmoved.rewritten_bottom hlength path last)]
  rfl

/-- **At both ends**, the bottom before the top. -/
theorem bottom_top (hlast : Delimiter.block.Neutral (below last)) (path : Text) (first : List Text) :
    rewrittenAll settings path [.insertBlockBottom target last, .insertBlockTop target first]
        (front ++ middle ++ back).flatten =
      .ok (front ++ above first ++ middle ++ below last ++ back).flatten := by
  have hlength : (front ++ middle).length = stop := by rw [List.length_append, hmiddle]
  have hlater := h.later
  have hmoved := h.insert (by omega) (by omega) hlast (h.ended_below last)
  rw [List.append_assoc, List.append_assoc] at hmoved
  rw [rewrittenAll_cons (h.rewritten_bottom hlength path last), List.append_assoc, List.append_assoc,
    rewrittenAll_cons (hmoved.rewritten_top hfront path first)]
  simp only [List.append_assoc]
  rfl

end Apart

end HasBlock

end Edit

end Linework
