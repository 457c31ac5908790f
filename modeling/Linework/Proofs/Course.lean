import Linework.Proofs.Composition
import Linework.Proofs.Endings

/-!
# The course of edits

What edits of a content come to, one after the other: each leaves what it makes of the content, or fails and
leaves the content as it was (`Edit.course`). Where a file is read as what was last written to it, its history
is that course (`Storage.Keeps.history_eq`), so in memories and on disks (`Storage.yields_of_course`). Only in
the place of the working directory of a memory a file refuses all edits.
-/

namespace Linework

open Op

namespace Edit

/-- What each of some edits of a content comes to, and the content after it. -/
def course (settings : Settings) (path : Text) : Text → List Edit → List (Except Failure Unit × Text)
  | _, [] => []
  | content, e :: rest =>
    match e.rewritten settings path content with
    | .ok next => (.ok (), next) :: course settings path next rest
    | .error failure => (.error failure, content) :: course settings path content rest

variable {settings : Settings} {path content next : Text} {e : Edit} {rest : List Edit} {failure : Failure}

theorem course_cons_ok (h : e.rewritten settings path content = .ok next) :
    course settings path content (e :: rest) = (.ok (), next) :: course settings path next rest := by
  rw [course, h]

theorem course_cons_error (h : e.rewritten settings path content = .error failure) :
    course settings path content (e :: rest) = (.error failure, content) :: course settings path content rest := by
  rw [course, h]

/-- An edit of a content fails as the edit of its lines does. -/
theorem rewritten_eq_error_iff :
    e.rewritten settings path content = .error failure ↔
      e.splice settings path (Line.split settings.newline.text content) = .error failure := by
  unfold rewritten
  cases e.splice settings path (Line.split settings.newline.text content) with
  | error other =>
    show Except.error other = _ ↔ _
    rw [Except.error.injEq, Except.error.injEq]
  | ok splice => exact ⟨nofun, nofun⟩

/-- An edit of a content that is regular lines is one of the lines. -/
theorem rewritten_of_regular {lines : List Text} {splice : Splice} (h : Line.Regular settings.newline lines)
    (hsplice : e.splice settings path lines = .ok splice) :
    rewritten settings path e lines.flatten = .ok (splice.apply lines).flatten := by
  rw [← h.split_flatten] at hsplice
  rw [rewritten_of_splice hsplice, h.split_flatten]

/-- What an edit of regular lines leaves is regular lines. -/
theorem regular_of_splice {lines : List Text} {splice : Splice} (h : Line.Regular settings.newline lines)
    (hsplice : e.splice settings path lines = .ok splice) : Line.Regular settings.newline (splice.apply lines) :=
  (fits_of_splice h hsplice).regular_apply h

end Edit

namespace Storage

section Keeps

variable {σ : Type} [Storage σ] {settings : Settings} {path : Text} {Takes : Text → Prop} {Holds : Text → σ → Prop}
  {content : Text} {s : σ} {e : Edit} {edits : List Edit} {failure : Failure}

theorem Keeps.ends_edit_error (h : Keeps settings path Takes Holds) (hholds : Holds content s)
    (hcreates : e.creates = false) (hfails : e.rewritten settings path content = .error failure) :
    Ends (edit settings settings path e) s fun result after => result = .error failure ∧ Holds content after := by
  rw [edit_eq, hcreates]
  refine ends_rewrite ((h.ends_readLines hholds).mono ?_)
  rintro _ after ⟨rfl, hafter⟩
  dsimp only
  rw [Edit.rewritten_eq_error_iff.1 hfails]
  exact ⟨rfl, hafter⟩

/-- What edits come to, as it is seen when the file is read after each. -/
def shown (records : List (Except Failure Unit × Text)) : List (Except Failure Unit × Except Failure Text) :=
  records.map fun record => (record.1, .ok record.2)

/-- **The history of a file** that is kept is the course of its edits. -/
theorem Keeps.history_eq (h : Keeps settings path Takes Holds) (hholds : Holds content s)
    (hcreates : ∀ e ∈ edits, e.creates = false) (htakes : ∀ e ∈ edits, ∀ t ∈ e.contents, Takes t) :
    history settings path s edits = shown (Edit.course settings path content edits) := by
  induction edits generalizing content s with
  | nil => rfl
  | cons e rest ih =>
    have hfirst := hcreates e List.mem_cons_self
    have hrest : ∀ other ∈ rest, other.creates = false := fun other hother =>
      hcreates other (List.mem_cons_of_mem _ hother)
    have hrest' : ∀ other ∈ rest, ∀ t ∈ other.contents, Takes t := fun other hother =>
      htakes other (List.mem_cons_of_mem _ hother)
    cases hnext : e.rewritten settings path content with
    | ok next =>
      obtain ⟨hresult, hafter⟩ := (h.ends_edit hholds hfirst (htakes e List.mem_cons_self) hnext).outcome
      rw [history, Edit.course_cons_ok hnext, ih hafter hrest hrest', hresult, (h.reads hafter).outcome.1]
      rfl
    | error failure =>
      obtain ⟨hresult, hafter⟩ := (h.ends_edit_error hholds hfirst hnext).outcome
      rw [history, Edit.course_cons_error hnext, ih hafter hrest hrest', hresult, (h.reads hafter).outcome.1]
      rfl

end Keeps

end Storage

namespace Memory

open Storage

variable {m : Memory} {settings : Settings} {path content : Text} {edits : List Edit}

/-- A file in the place of the working directory refuses all edits. -/
theorem Sound.history_refused (h : m.Sound) (hfile : ∃ node, m.find? path = some node ∧ node.content = some content)
    (hfixed : m.isFixed (m.walk path) = true) (hcreates : ∀ e ∈ edits, e.creates = false) :
    ∀ record ∈ history settings path m edits, (∃ failure, record.1 = .error failure) ∧ record.2 = .ok content := by
  obtain ⟨node, hnode, hcontent⟩ := hfile
  induction edits with
  | nil =>
    intro _ hrecord
    cases hrecord
  | cons e rest ih =>
    have hends : Ends (edit settings settings path e) m fun result after =>
        (∃ failure, result = .error failure) ∧ after = m := by
      rw [edit_eq, hcreates e List.mem_cons_self]
      refine h.ends_rewrite hnode hcontent (fun failure _ => ⟨⟨failure, rfl⟩, rfl⟩) (fun _ _ _ => ⟨⟨_, rfl⟩, rfl⟩)
        fun _ _ hfree => ?_
      rw [hfixed] at hfree
      cases hfree
    obtain ⟨hresult, hafter⟩ := hends.outcome
    -- the memory is the one that it was, so the rest is refused in the same way
    have hread := (Memory.ends_read hnode hcontent settings.encoding).outcome.1
    intro record hrecord
    rw [history, hafter] at hrecord
    rcases List.mem_cons.1 hrecord with rfl | hrecord
    · exact ⟨hresult, hread⟩
    · exact ih (fun other hother => hcreates other (List.mem_cons_of_mem _ hother)) record hrecord

end Memory

namespace Storage

/-- Edits of a file with a content come to some records, in whatever storage keeps it and takes what they insert, so
in every reachable memory and on every disk without limits that holds it in UTF-8. What an edit comes to may name
the path. -/
structure Yields (settings : Settings) (content : Text) (edits : List Edit)
    (records : Text → List (Except Failure Unit × Text)) : Prop where
  kept (σ : Type) [Storage σ] (Takes : Text → Prop) (Holds : Text → σ → Prop) (path : Text) (s : σ) :
    Keeps settings path Takes Holds → Holds content s → (∀ e ∈ edits, ∀ t ∈ e.contents, Takes t) →
      history settings path s edits = shown (records path)
  memory (m : Memory) (path : Text) : m.Reachable → (Op.outcome (read settings.encoding path) m).1 = .ok content →
    m.isFixed (m.walk path) = false → history settings path m edits = shown (records path)
  fixed (m : Memory) (path : Text) : m.Reachable → (Op.outcome (read settings.encoding path) m).1 = .ok content →
    m.isFixed (m.walk path) = true → ∀ record ∈ history settings path m edits,
      (∃ failure, record.1 = .error failure) ∧ record.2 = .ok content
  disk (d : Disk) (base route : List Text) : Below base route → (∀ s ∈ route, Path.Name s) →
    NamesUtf8 settings.encoding → d.HoldsContent base route content → (∀ e ∈ edits, e.Scalar) →
      history settings (Path.ofSegments route) d edits = shown (records (Path.ofSegments route))

variable {settings : Settings} {content : Text} {edits : List Edit}
  {records : Text → List (Except Failure Unit × Text)}

/-- **Memories and disks** show the course of the edits of a file. -/
theorem yields_of_course (hcreates : ∀ e ∈ edits, e.creates = false)
    (hcourse : ∀ path, Edit.course settings path content edits = records path) :
    Yields settings content edits records where
  kept σ _ Takes Holds path s hkeeps hholds htakes := by
    rw [← hcourse path]
    exact hkeeps.history_eq hholds hcreates htakes
  memory m path hreachable hread hfree := by
    have hholds : Memory.HoldsContent path content m := ⟨hreachable.sound, Memory.exists_file_of_read hread, hfree⟩
    rw [← hcourse path]
    exact (Memory.keeps settings path).history_eq hholds hcreates fun _ _ _ _ => trivial
  fixed m path hreachable hread hfixed :=
    hreachable.sound.history_refused (Memory.exists_file_of_read hread) hfixed hcreates
  disk d base route hroute hnames hutf8 hholds hscalar := by
    rw [← hcourse (Path.ofSegments route)]
    exact (Disk.keeps hroute hnames hutf8).history_eq hholds hcreates hscalar

end Storage

end Linework
