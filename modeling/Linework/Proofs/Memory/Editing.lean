import Linework.Proofs.Edit.Splice
import Linework.Proofs.Memory.Reachable

/-!
# Edits of one file

A file that is edited again and again goes through its content: lines are joined, written, read and
split each time. As long as its content is clean, that comes to the same as splicing a list of
lines that is never joined.
-/

namespace Linework

namespace Edit

/-- The lines after an edit; those before it where it finds no place. -/
def spliced (settings : Settings) (path : Text) (e : Edit) (lines : List Text) : List Text :=
  match e.splice settings path lines with
  | .ok splice => splice.apply lines
  | .error _ => lines

end Edit

namespace Memory

open Op

variable {m : Memory} {settings : Settings} {path : Text} {lines : List Text}

/-- Edits one file time and again. The lines aside are spliced by every edit that succeeds. -/
def editAll (settings : Settings) (path : Text) : List Edit → Memory → List Text → Memory × List Text
  | [], m, lines => (m, lines)
  | e :: rest, m, lines =>
    match Op.outcome (Storage.edit settings settings path e) m with
    | (.ok _, world) => editAll settings path rest world.store (e.spliced settings path lines)
    | (.error _, world) => editAll settings path rest world.store lines

/-- A file holds the lines, each of them ended but perhaps the last. -/
structure HoldsLines (settings : Settings) (path : Text) (m : Memory) (lines : List Text) : Prop where
  sound : m.Sound
  file : ∃ node, m.find? path = some node ∧ node.content = some lines.flatten
  regular : Line.Regular settings.newline lines

theorem HoldsLines.ends_read (h : HoldsLines settings path m lines) (encoding : Text) :
    Ends (Storage.read encoding path) m fun result _ => result = .ok lines.flatten := by
  obtain ⟨node, hnode, hcontent⟩ := h.file
  exact (Memory.ends_read hnode hcontent encoding).mono fun _ _ hends => hends.1

theorem HoldsLines.ends_readLines (h : HoldsLines settings path m lines) :
    Ends (Storage.readLines settings path) m fun result _ => result = .ok lines := by
  refine .map ((h.ends_read settings.encoding).mono fun result after hresult => ?_)
  rw [hresult, Except.map, h.regular.split_flatten]

/-- **One edit** fails and leaves the memory as it was, or leaves the spliced lines in the file. -/
theorem HoldsLines.ends_edit (h : HoldsLines settings path m lines) (e : Edit) :
    Ends (Storage.edit settings settings path e) m fun result after =>
      match result with
      | .ok _ => HoldsLines settings path after (e.spliced settings path lines)
      | .error _ => after = m := by
  obtain ⟨tree, htree, -⟩ := h.sound.exists_tree path
  obtain ⟨node, hnode, hcontent⟩ := h.file
  have hfile : Ends (Storage.edit settings settings path e) m fun result after =>
      match result with
      | .ok _ => ∃ splice, e.splice settings path lines = .ok splice ∧
          ∃ node, after.find? path = some node ∧ node.content = some (splice.apply lines).flatten
      | .error _ => after = m := by
    refine h.sound.ends_edit htree (fun _ _ => rfl) (fun _ _ _ => rfl) (fun _ _ _ => rfl)
      (fun _ _ _ _ _ _ => rfl) (fun _ _ _ _ _ _ _ => rfl) (fun other old splice hother hold hsplice _ => ?_)
      fun splice _ hnone _ _ _ => ?_
    · cases hnode.symm.trans hother
      cases hcontent.symm.trans hold
      rw [h.regular.split_flatten] at hsplice ⊢
      exact ⟨splice, hsplice, find?_overwrite htree (h.sound.not_blocked_of_find? htree hnode) _⟩
    · rw [hnode] at hnone
      cases hnone
  have hcomes : Ends (Storage.edit settings settings path e) m (m.Comes fun _ => False) :=
    h.sound.comes_edit settings settings path e
  refine (hcomes.and hfile).mono fun result after hends => ?_
  cases result with
  | error failure => exact hends.2
  | ok value =>
    obtain ⟨hcomes, splice, hsplice, hwritten⟩ := hends
    have hregular := (Edit.fits_of_splice h.regular hsplice).regular_apply h.regular
    dsimp only
    rw [Edit.spliced, hsplice]
    exact ⟨hcomes.sound h.sound, hwritten, hregular⟩

/-- **Editing a file refines editing a list of lines.** -/
theorem HoldsLines.editAll (h : HoldsLines settings path m lines) (edits : List Edit) :
    HoldsLines settings path (editAll settings path edits m lines).1
      (editAll settings path edits m lines).2 := by
  induction edits generalizing m lines with
  | nil => exact h
  | cons e rest ih =>
    have hedit := (h.ends_edit e).outcome
    rw [Memory.editAll]
    cases hout : Op.outcome (Storage.edit settings settings path e) m with
    | mk result world =>
      rw [hout] at hedit
      cases result with
      | ok value => exact ih hedit
      | error failure =>
        dsimp only at hedit ⊢
        rw [hedit]
        exact ih h

/-- A file with clean content holds the lines that it is split into. -/
theorem Sound.holdsLines (h : m.Sound) {content : Text}
    (hread : (Op.outcome (Storage.read settings.encoding path) m).1 = .ok content)
    (hclean : Line.Clean settings.newline content) :
    HoldsLines settings path m (Line.split settings.newline.text content) := by
  refine ⟨h, ?_, hclean.regular_split⟩
  rw [Line.flatten_split]
  exact exists_file_of_read hread

/-- **Edits of a file are edits of its lines.** Whatever edits are made of a file with clean content,
one after the other, the file is then read as the lines that the splices of the successful ones come
to. Its content is those lines joined, and is clean again. -/
theorem Reachable.readLines_editAll (h : m.Reachable) {content : Text}
    (hread : (Op.outcome (Storage.read settings.encoding path) m).1 = .ok content)
    (hclean : Line.Clean settings.newline content) (edits : List Edit) :
    let last := Memory.editAll settings path edits m (Line.split settings.newline.text content)
    (Op.outcome (Storage.readLines settings path) last.1).1 = .ok last.2 ∧
      (Op.outcome (Storage.read settings.encoding path) last.1).1 = .ok last.2.flatten ∧
      Line.Clean settings.newline last.2.flatten := by
  have hlast := (h.sound.holdsLines hread hclean).editAll edits
  exact ⟨hlast.ends_readLines.outcome, (hlast.ends_read _).outcome, hlast.regular.clean⟩

/-- Something is added to a file whose last line has no terminator. -/
theorem editAll_append_open :
    ∃ m : Memory, m.Reachable ∧
      (Op.outcome (Storage.read (Text.lit "utf-8") (Text.lit "f")) m).1 = .ok (Text.lit "a\nb") ∧
      Line.Clean .lf (Text.lit "a\nb") ∧
      (Op.outcome (Storage.readLines {} (Text.lit "f")) (Memory.editAll {} (Text.lit "f")
          [.append [Text.lit "c"]] m (Line.split ['\n'] (Text.lit "a\nb"))).1).1 =
        .ok (Memory.editAll {} (Text.lit "f") [.append [Text.lit "c"]] m
          (Line.split ['\n'] (Text.lit "a\nb"))).2 :=
  ⟨_, Reachable.start.move (.act {} (.write (Text.lit "f") (Text.lit "a\nb"))), rfl, .inr (.inr rfl),
    (Reachable.readLines_editAll (Reachable.start.move _) rfl (.inr (.inr rfl)) _).1⟩

end Memory

end Linework
