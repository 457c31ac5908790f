import Linework.Proofs.Edit.Missing
import Linework.Proofs.Memory.Reachable

/-!
# Edits that take nothing for granted

An edit looks lines up at the places that it has found, and splits a content at the terminator of its
settings. The strict edit gives up where there is no such line, and where the terminator is empty. It never
does: what is found lies within the lines (`Edit.strictSplice_eq`), so on every storage it is the edit itself
(`Storage.strictEdit_eq`). In a memory an edit then fails for its target or for its path, and for nothing
else (`Memory.Reachable.edit_fails`).
-/

namespace Linework

namespace Line

/-- The line at an index, which has to be there. -/
def lookUp (lines : List Text) (index : Nat) : Except Failure Text :=
  match lines[index]? with
  | some line => return line
  | none => throw .outOfRange

theorem lookUp_of_lt {lines : List Text} {index : Nat} (h : index < lines.length) :
    lookUp lines index = .ok (lines.getD index []) := by
  rw [lookUp, List.getD_eq_getElem?_getD, List.getElem?_eq_getElem h]
  rfl

/-- Settings split at a terminator that is never refused. -/
theorem split?_newline (newline : Newline) (content : Text) :
    split? newline.text content = .ok (split newline.text content) := if_neg newline.text_ne_nil

end Line

namespace Edit

/-- The lines for the inside of a block, where the line that they are indented by has to be there. -/
def strictInside (settings : Settings) (newline : Text) (lines : List Text) (index : Nat)
    (contents : List Text) : Except Failure (List Text) := do
  let line ← Line.lookUp lines index
  return Line.indent (Line.indentation line ++ settings.unit) (Line.expand newline contents)

/-- The splice of an edit, where every line that it goes by or takes out has to be there. -/
def strictSplice (settings : Settings) (path : Text) (edit : Edit) (lines : List Text) :
    Except Failure Splice := do
  let newline := Line.detect lines settings.newline.text
  match edit with
  | prepend contents => return ⟨0, 0, Line.expand newline contents⟩
  | append contents => return appended newline lines (Line.expand newline contents)
  | replace which target contents =>
    match Block.find? which target lines with
    | none => throw (missing target path)
    | some index => return ⟨index, 1, Line.expand newline contents⟩
  | insert which side target contents =>
    match Block.find? which target lines with
    | none => throw (missing target path)
    | some index =>
      match side with
      | .before => return ⟨index, 0, Line.expand newline contents⟩
      | .after =>
        let line ← Line.lookUp lines index
        return ⟨index, 1, Line.terminate newline line :: Line.expand newline contents⟩
  | remove target =>
    match Block.find? .first target lines with
    | none => throw (missing target path)
    | some index =>
      let _ ← Line.lookUp lines index
      return ⟨index, 1, []⟩
  | insertBlockTop target contents =>
    match ← Block.span target lines with
    | none => throw (missing target path)
    | some (start, stop) =>
      if stop = start then throw (missing target path)
      return ⟨start + 1, 0, ← strictInside settings newline lines start contents⟩
  | insertBlockBottom target contents =>
    match ← Block.span target lines with
    | none => throw (missing target path)
    | some (start, stop) =>
      if stop = start then throw (missing target path)
      return ⟨stop, 0, ← strictInside settings newline lines stop contents⟩
  | removeBlock target =>
    match ← Block.span target lines with
    | none => throw (missing target path)
    | some (start, stop) => return ⟨start, stop + 1 - start, []⟩
  | insertClassBottom target contents =>
    match ← Block.classSpan target lines with
    | none => throw (missing target path)
    | some (start, stop) =>
      if stop = start then throw (missing target path)
      return ⟨stop, 0, ← strictInside settings newline lines stop contents⟩

variable {settings : Settings} {path : Text} {edit : Edit} {lines : List Text}

theorem strictInside_of_lt {newline : Text} {index : Nat} (h : index < lines.length) (contents : List Text) :
    strictInside settings newline lines index contents = .ok (inside settings newline lines index contents) := by
  rw [strictInside, Line.lookUp_of_lt h]
  rfl

theorem bind_congr_of_ok {α β : Type} {search : Except Failure α} {f g : α → Except Failure β}
    (h : ∀ found, search = .ok found → f found = g found) : (search >>= f) = (search >>= g) := by
  cases search with
  | error failure => rfl
  | ok found => exact h found rfl

/-- **What an edit finds lies within the lines.** -/
theorem strictSplice_eq (settings : Settings) (path : Text) (edit : Edit) (lines : List Text) :
    strictSplice settings path edit lines = splice settings path edit lines := by
  unfold strictSplice splice
  dsimp only
  cases edit with
  | prepend contents | append contents | replace which target contents | removeBlock target => rfl
  | insert which side target contents =>
    dsimp only
    cases hfind : Block.find? which target lines with
    | none => rfl
    | some index =>
      cases side with
      | before => rfl
      | after =>
        dsimp only
        rw [Line.lookUp_of_lt (Block.lt_of_find? hfind)]
        rfl
  | remove target =>
    dsimp only
    cases hfind : Block.find? .first target lines with
    | none => rfl
    | some index =>
      dsimp only
      rw [Line.lookUp_of_lt (Block.lt_of_find? hfind)]
      rfl
  | insertBlockTop target contents =>
    refine bind_congr_of_ok fun found hfound => ?_
    rcases found with _ | ⟨start, stop⟩
    · rfl
    · obtain ⟨hle, hlt⟩ := Block.bounds_of_span hfound
      dsimp only
      rw [strictInside_of_lt (Nat.lt_of_le_of_lt hle hlt)]
      rfl
  | insertBlockBottom target contents =>
    refine bind_congr_of_ok fun found hfound => ?_
    rcases found with _ | ⟨start, stop⟩
    · rfl
    · dsimp only
      rw [strictInside_of_lt (Block.bounds_of_span hfound).2]
      rfl
  | insertClassBottom target contents =>
    refine bind_congr_of_ok fun found hfound => ?_
    rcases found with _ | ⟨start, stop⟩
    · rfl
    · dsimp only
      rw [strictInside_of_lt (Block.bounds_of_classSpan hfound).2]
      rfl

/-- What an edit may fail for: its target, or the path of the file. -/
inductive Fails (edit : Edit) (path : Text) : Failure → Prop
  | missing {target : Target} (h : edit.target? = some target) : Fails edit path (missing target path)
  | storage {code : Errno} (h : code ∈ [Errno.noEntry, Errno.isDirectory, Errno.notDirectory]) :
    Fails edit path (.ofErrno code path)

end Edit

namespace Storage

variable {σ : Type} [Storage σ]

/-- The lines of a file, where the terminator must not be empty. -/
def strictReadLines (settings : Settings) (path : Text) : Op σ (List Text) := do
  let content ← read settings.encoding path
  MonadExcept.ofExcept (Line.split? settings.newline.text content)

theorem strictReadLines_eq (settings : Settings) (path : Text) :
    (strictReadLines settings path : Op σ (List Text)) = readLines settings path := by
  unfold strictReadLines readLines
  simp only [Line.split?_newline]
  rfl

/-- An edit that gives up where the terminator is empty, and where a line that it goes by is not there. -/
def strictEdit (files lines : Settings) (path : Text) (e : Edit) : Op σ Unit := do
  if e.creates then touch path
  let old ← strictReadLines files path
  let splice ← MonadExcept.ofExcept (e.strictSplice lines path old)
  match e.note? path splice with
  | some n => Op.note n
  | none => pure ()
  write files.encoding path (splice.apply old).flatten

/-- **An edit takes nothing for granted that is not so.** -/
theorem strictEdit_eq (files lines : Settings) (path : Text) (e : Edit) :
    (strictEdit files lines path e : Op σ Unit) = edit files lines path e := by
  have hsplice : e.strictSplice lines path = e.splice lines path := funext (Edit.strictSplice_eq lines path e)
  rw [strictEdit, strictReadLines_eq, hsplice]
  rfl

end Storage

namespace Memory

variable {m : Memory}

/-- **An edit of a file in a memory is made, or fails for its target or its path.** No scan for the end of a
block is refused: what reads as the head of a class opens a class body, and a block is looked for from a line
that opens one. -/
theorem Reachable.edit_fails (h : m.Reachable) (files lines : Settings) (path : Text) (e : Edit) :
    (∀ failure, (Op.outcome (Storage.strictEdit files lines path e) m).1 = .error failure → e.Fails path failure) ∧
      Op.outcome (Storage.strictEdit files lines path e) m = Op.outcome (Storage.edit files lines path e) m ∧
      (∀ line, Delimiter.classHeader.matchesIn line = true → 0 < Delimiter.classBody.opens line) ∧
      ∀ target old start, Block.findOpening? .block target old = some start →
        ∃ hstart : start < old.length, 0 < Delimiter.block.opens old[start] := by
  rw [Storage.strictEdit_eq]
  refine ⟨?_, rfl, fun line => Delimiter.opens_pos_of_classHeader, fun target old start hfound => ?_⟩
  · obtain ⟨tree, htree, -⟩ := h.sound.exists_tree path
    have hends : Op.Ends (Storage.edit files lines path e) m fun result _ =>
        ∀ failure, result = .error failure → e.Fails path failure := by
      refine h.sound.ends_edit htree ?_ ?_ ?_ ?_ ?_ (fun _ _ _ _ _ _ _ => nofun) (fun _ _ _ _ _ _ _ => nofun)
      · rintro - - _ ⟨⟩
        exact .storage (by simp)
      · rintro - - - _ ⟨⟩
        exact .storage (by simp)
      · rintro - - - _ ⟨⟩
        exact .storage (by simp)
      · intro node old failure _ _ hsplice _ hfailure
        cases hfailure
        obtain ⟨target, htarget, rfl⟩ := Edit.missing_of_splice hsplice
        exact .missing htarget
      · intro node old splice _ _ _ _ _ hfailure
        cases hfailure
        exact .storage (by simp)
    exact hends.outcome
  · obtain ⟨hstart, hopens⟩ := Block.opens_of_findOpening? hfound
    exact ⟨hstart, Nat.pos_of_ne_zero hopens⟩

/-- A class that is never closed. -/
theorem edit_fails_unclosed :
    let e : Edit := .insertClassBottom (.text (Text.lit "A")) [Text.lit "x"]
    ∃ m : Memory, m.Reachable ∧
      (Op.outcome (Storage.strictEdit {} {} ['f'] e) m).1 =
        .error (Edit.missing (.text (Text.lit "A")) ['f']) ∧
      e.Fails ['f'] (Edit.missing (.text (Text.lit "A")) ['f']) := by
  intro e
  let m : Memory := (Op.outcome (Move.act {} (.write ['f'] (Text.lit "class A\n  def b\n  end\n"))).run {}).2.store
  have hreachable : m.Reachable := Reachable.start.move _
  have hfails : (Op.outcome (Storage.strictEdit {} {} ['f'] e) m).1 =
      .error (Edit.missing (.text (Text.lit "A")) ['f']) := by decide +kernel
  exact ⟨m, hreachable, hfails, (Reachable.edit_fails hreachable {} {} ['f'] e).1 _ hfails⟩

end Memory

end Linework
