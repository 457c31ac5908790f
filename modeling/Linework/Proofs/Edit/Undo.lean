import Linework.Proofs.Block.Nesting
import Linework.Proofs.Course

/-!
# Insertions that are undone

Lines that are put above every line with a target (`Edit.PutsAbove`) are what a removal of the target finds first,
if they are such a line or a block of the target (`Block.Whole`): the scan from their first line ends at their last
(`Block.span_of_whole`), whatever is below. So the removal takes out what was put in, and restores the content
(`Edit.undone_of_clean`).
-/

namespace Linework

namespace Block

open Delimiter

variable {target : Target} {line : Text} {front back run : List Text}

/-- Lines that are a block of a target: the first contains it and opens a block, and the depth is not positive
after the last, and after no earlier one. -/
structure Whole (target : Target) (run : List Text) : Prop where
  opener : ∃ line ∈ run.head?, target.isIn line = true ∧ Delimiter.block.opens line ≠ 0
  positive : ∀ part, part <+: run → part ≠ [] → part ≠ run → 0 < Delimiter.block.total part
  closed : Delimiter.block.total run ≤ 0

instance (target : Target) (run : List Text) : Decidable (Whole target run) :=
  decidable_of_iff
    ((∃ line ∈ run.head?, target.isIn line = true ∧ Delimiter.block.opens line ≠ 0) ∧
      (∀ part ∈ run.inits, part ≠ [] → part ≠ run → 0 < Delimiter.block.total part) ∧
        Delimiter.block.total run ≤ 0)
    ⟨fun ⟨hopener, hpositive, hclosed⟩ =>
        ⟨hopener, fun part hpart => hpositive part ((List.mem_inits _ _).2 hpart), hclosed⟩,
      fun h => ⟨h.opener, fun part hpart => h.positive part ((List.mem_inits _ _).1 hpart), h.closed⟩⟩

/-- The scan of a block ends at its last line. -/
theorem Whole.closing?_append (h : Whole target run) (back : List Text) :
    closing? .block 0 (run ++ back) = some (run.length - 1) := by
  obtain ⟨line, hline, -⟩ := h.opener
  have hne : run ≠ [] := by
    rintro rfl
    cases hline
  obtain ⟨body, closer, rfl⟩ := (List.eq_nil_or_concat' run).resolve_left hne
  refine closing?_eq_some_iff.2 ⟨body, closer, back, by simp, by simp, ?_, ?_⟩
  · -- what ends before the last line is not the whole block
    refine closing?_eq_none_iff.2 fun part hpart hsome => ?_
    have hshort : part ≠ body ++ [closer] := by
      intro heq
      have hlength := hpart.length_le
      rw [heq, List.length_append, List.length_singleton] at hlength
      omega
    have hpositive := h.positive part (hpart.trans (List.prefix_append _ _)) hsome hshort
    omega
  · have hclosed := h.closed
    rw [total_append, total_cons, total_nil] at hclosed
    omega

theorem findIdx?_append_cons {found : Text → Bool} (hfront : ∀ other ∈ front, found other = false)
    (hline : found line = true) : (front ++ line :: back).findIdx? found = some front.length := by
  rw [List.findIdx?_append, List.findIdx?_eq_none_iff.2 hfront, Option.none_or, List.findIdx?_cons, if_pos hline,
    Option.map_some, Nat.zero_add]

/-- **A block below lines without its target** is the one that is found. -/
theorem span_of_whole (h : Whole target run) (hfront : ∀ line ∈ front, target.isIn line = false)
    (back : List Text) :
    span target (front ++ run ++ back) = .ok (some (front.length, front.length + (run.length - 1))) := by
  obtain ⟨opener, hopener, hline, hopens⟩ := h.opener
  obtain ⟨rest, hrun⟩ := List.head?_eq_some_iff.1 (Option.mem_def.1 hopener)
  refine span_eq_some_iff.2 ⟨?_, run.length - 1, ?_, rfl⟩
  · rw [hrun, List.append_assoc, List.cons_append]
    refine findIdx?_append_cons (fun other hother => ?_) ?_
    · rw [hfront other hother, Bool.false_and]
    · rw [hline, Bool.true_and, bne_iff_ne]
      exact hopens
  · rw [List.append_assoc, List.drop_left]
    exact h.closing?_append back

end Block

namespace Edit

open Line

variable {settings : Settings} {target : Target} {e undo : Edit} {contents front back run lines : List Text}
  {content : Text}

/-- The edits that put contents above every line with a target: at the top, or before the first such line. -/
inductive PutsAbove (target : Target) (contents lines : List Text) : Edit → Prop
  | prepend : PutsAbove target contents lines (.prepend contents)
  | insert (hsome : ∃ line ∈ lines, target.isIn line = true) :
      PutsAbove target contents lines (.insert .first .before target contents)

theorem PutsAbove.creates_eq_false (h : PutsAbove target contents lines e) : e.creates = false := by
  cases h <;> rfl

/-- What is put above the lines with a target has no such line in front of it. -/
theorem PutsAbove.exists_splice (h : PutsAbove target contents lines e) (settings : Settings) :
    ∃ front back, lines = front ++ back ∧ (∀ line ∈ front, target.isIn line = false) ∧
      ∀ path, e.splice settings path lines =
        .ok ⟨front.length, 0, expand (detect lines settings.newline.text) contents⟩ := by
  cases h with
  | prepend => exact ⟨[], lines, rfl, nofun, fun _ => rfl⟩
  | insert hsome =>
    obtain ⟨line, hmem, hline⟩ := hsome
    have hfinds : (Block.findFirst? target lines).isSome :=
      List.findIdx?_isSome.trans (List.any_eq_true.2 ⟨line, hmem, hline⟩)
    obtain ⟨index, hindex⟩ := Option.isSome_iff_exists.1 hfinds
    obtain ⟨hlt, -, hearlier⟩ := List.findIdx?_eq_some_iff_getElem.1 hindex
    have hlength : (lines.take index).length = index := List.length_take_of_le (Nat.le_of_lt hlt)
    refine ⟨lines.take index, lines.drop index, (List.take_append_drop index lines).symm, ?_, fun path => ?_⟩
    · intro other hother
      obtain ⟨place, hplace, rfl⟩ := List.getElem_of_mem hother
      rw [hlength] at hplace
      rw [List.getElem_take]
      simpa using hearlier place hplace
    · unfold splice
      dsimp only
      rw [Block.find?, hindex, hlength]
      rfl

theorem splice_removeBlock (h : Block.Whole target run) (hfront : ∀ line ∈ front, target.isIn line = false)
    (back : List Text) (path : Text) :
    (Edit.removeBlock target).splice settings path (front ++ run ++ back) = .ok ⟨front.length, run.length, []⟩ := by
  have hpos : 0 < run.length := by
    obtain ⟨line, hline, -⟩ := h.opener
    exact List.length_pos_of_mem (List.mem_of_head? hline)
  have hcount : front.length + (run.length - 1) + 1 - front.length = run.length := by omega
  unfold splice
  dsimp only
  rw [Block.span_of_whole h hfront]
  show Except.ok (Splice.mk _ (front.length + (run.length - 1) + 1 - front.length) []) = _
  rw [hcount]

theorem splice_remove {line : Text} (hline : target.isIn line = true)
    (hfront : ∀ other ∈ front, target.isIn other = false) (back : List Text) (path : Text) :
    (Edit.remove target).splice settings path (front ++ [line] ++ back) = .ok ⟨front.length, 1, []⟩ := by
  have hfind : Block.find? .first target (front ++ [line] ++ back) = some front.length := by
    rw [List.append_assoc]
    exact Block.findIdx?_append_cons hfront hline
  unfold splice
  dsimp only
  rw [hfind]
  rfl

/-- An edit of a file that another one undoes: both succeed, and the file is as it was. -/
def Undone (settings : Settings) (content : Text) (e undo : Edit) : Prop :=
  ∃ next, Storage.Yields settings content [e, undo] fun _ => [(.ok (), next), (.ok (), content)]

/-- **What was put above the lines with a target** is taken out again by a removal that finds it there. -/
theorem PutsAbove.undone (hclean : Clean settings.newline content)
    (h : PutsAbove target contents (split settings.newline.text content) e)
    (hrun : expand (detect (split settings.newline.text content) settings.newline.text) contents = run)
    (hcreates : undo.creates = false)
    (hundo : ∀ front back path, (∀ line ∈ front, target.isIn line = false) →
      undo.splice settings path (front ++ run ++ back) = .ok ⟨front.length, run.length, []⟩) :
    Undone settings content e undo := by
  have hregular := hclean.regular_split
  have hflat := flatten_split settings.newline.text content
  obtain ⟨front, back, hlines, hfront, hsplice⟩ := h.exists_splice settings
  rw [hrun] at hsplice
  rw [hlines] at hregular hflat hsplice
  have hput : Splice.apply ⟨front.length, 0, run⟩ (front ++ back) = front ++ run ++ back := by
    simp [Splice.apply]
  have htaken : Splice.apply ⟨front.length, run.length, []⟩ (front ++ run ++ back) = front ++ back := by
    rw [Splice.apply, List.append_assoc front, List.take_left, List.append_nil, ← List.drop_drop, List.drop_left,
      List.drop_left]
  refine ⟨(front ++ run ++ back).flatten, Storage.yields_of_course ?_ fun path => ?_⟩
  · simp [h.creates_eq_false, hcreates]
  · have hnext := regular_of_splice hregular (hsplice path)
    have hfirst := rewritten_of_regular hregular (hsplice path)
    rw [hput] at hnext hfirst
    have hlast := rewritten_of_regular hnext (hundo front back path hfront)
    rw [htaken, hflat] at hlast
    rw [hflat] at hfirst
    rw [course_cons_ok hfirst, course_cons_ok hlast]
    rfl

/-- **A removal undoes an insertion**: a block of a target that was put at the top, or before the first line with
the target, is what a removal of the block takes out, and a single line with the target is what a removal of the
line takes out. The content is what it was before, whatever else in it contains the target or opens blocks. -/
theorem undone_of_clean (hclean : Clean settings.newline content) (target : Target) (contents : List Text) :
    let lines := split settings.newline.text content
    let run := expand (detect lines settings.newline.text) contents
    (Block.Whole target run →
      Undone settings content (.prepend contents) (.removeBlock target) ∧
        ((∃ line ∈ lines, target.isIn line = true) →
          Undone settings content (.insert .first .before target contents) (.removeBlock target))) ∧
      ∀ line, run = [line] → target.isIn line = true →
        Undone settings content (.prepend contents) (.remove target) ∧
          ((∃ line ∈ lines, target.isIn line = true) →
            Undone settings content (.insert .first .before target contents) (.remove target)) := by
  intro lines run
  constructor
  · intro hwhole
    have hundone : ∀ e, PutsAbove target contents lines e → Undone settings content e (.removeBlock target) :=
      fun e habove => habove.undone hclean rfl rfl fun front back path hfront =>
        splice_removeBlock hwhole hfront back path
    exact ⟨hundone _ .prepend, fun hsome => hundone _ (.insert hsome)⟩
  · intro line hrun hline
    have hundone : ∀ e, PutsAbove target contents lines e → Undone settings content e (.remove target) :=
      fun e habove => habove.undone hclean hrun rfl fun front back path hfront =>
        splice_remove hline hfront back path
    exact ⟨hundone _ .prepend, fun hsome => hundone _ (.insert hsome)⟩

/-- A block of a target, and a line with it, put in front of one that opens a block too. -/
theorem undone_of_clean_nested :
    Clean .lf (Text.lit "a\nfoo do\n  foo\nend") ∧
      Block.Whole (.text (Text.lit "foo")) (["foo do\n", "x \x7b\n", "\x7d\n", "end\n"].map Text.lit) ∧
      Undone {} (Text.lit "a\nfoo do\n  foo\nend") (.prepend [Text.lit "foo do\nx \x7b\n\x7d", Text.lit "end"])
        (.removeBlock (.text (Text.lit "foo"))) ∧
      Undone {} (Text.lit "a\nfoo do\n  foo\nend")
        (.insert .first .before (.text (Text.lit "foo")) [Text.lit "foo do\nx \x7b\n\x7d", Text.lit "end"])
        (.removeBlock (.text (Text.lit "foo"))) ∧
      Undone {} (Text.lit "a\nfoo do\n  foo\nend") (.prepend [Text.lit "foo do"])
        (.remove (.text (Text.lit "foo"))) ∧
      ∃ m : Memory, m.Reachable ∧
        (Op.outcome (Storage.read (Text.lit "utf-8") ['f']) m).1 = .ok (Text.lit "a\nfoo do\n  foo\nend") ∧
        Storage.history {} ['f'] m
            [.insert .first .before (.text (Text.lit "foo")) [Text.lit "foo do\nx \x7b\n\x7d", Text.lit "end"],
              .removeBlock (.text (Text.lit "foo"))] =
          [(.ok (), .ok (Text.lit "a\nfoo do\nx \x7b\n\x7d\nend\nfoo do\n  foo\nend")),
            (.ok (), .ok (Text.lit "a\nfoo do\n  foo\nend"))] := by
  have hclean : Clean .lf (Text.lit "a\nfoo do\n  foo\nend") := .inr (.inr (by decide))
  have hsplit : split Newline.lf.text (Text.lit "a\nfoo do\n  foo\nend") =
      ["a\n", "foo do\n", "  foo\n", "end"].map Text.lit := by decide +kernel
  have hwhole : Block.Whole (.text (Text.lit "foo"))
      (["foo do\n", "x \x7b\n", "\x7d\n", "end\n"].map Text.lit) := by decide +kernel
  have hsome : ∃ line ∈ ["a\n", "foo do\n", "  foo\n", "end"].map Text.lit,
      (Target.text (Text.lit "foo")).isIn line = true := by decide +kernel
  have hblock := @undone_of_clean {} _ hclean (.text (Text.lit "foo"))
    [Text.lit "foo do\nx \x7b\n\x7d", Text.lit "end"]
  have hline := @undone_of_clean {} _ hclean (.text (Text.lit "foo")) [Text.lit "foo do"]
  rw [hsplit] at hblock hline
  obtain ⟨htop, hbefore⟩ := hblock.1 hwhole
  exact ⟨hclean, hwhole, htop, hbefore hsome, (hline.2 (Text.lit "foo do\n") rfl (by decide +kernel)).1, _,
    Memory.Reachable.start.move (.act {} (.write ['f'] (Text.lit "a\nfoo do\n  foo\nend"))), rfl,
    by decide +kernel⟩

end Edit

end Linework
