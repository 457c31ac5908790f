import Linework.Proofs.Memory.Flat

/-!
# A memory behaves as its flat map

One rule for each operation, in terms of the flat map: it fails exactly when the map refuses it, and
otherwise it answers with what the map says and changes the map alone (`Sound.meets_move`).
The rules need that no directory of an open block has been cut off, since paths are keys only then.
-/

namespace Linework

namespace Memory

open Op

/-- A result and the memory after it: an operation fails in a way it must, or nothing refuses it and
it does what it should. -/
def Meets {α : Type} (refuses : Failure → Prop) (acts : α → Flat → Prop) (result : Except Failure α)
    (after : Memory) : Prop :=
  match result with
  | .ok value => acts value after.flat ∧ ∀ failure, ¬ refuses failure
  | .error failure => refuses failure

variable {m : Memory} {path : Text}

theorem ends_map_meets {α β : Type} {op : Op Memory α} {f : α → β} {refuses : Failure → Prop}
    {acts : α → Flat → Prop} {acts' : β → Flat → Prop} (h : Ends op m (Meets refuses acts))
    (hacts : ∀ value flat, acts value flat → acts' (f value) flat) :
    Ends (op >>= fun value => pure (f value)) m (Meets refuses acts') := by
  refine .map (h.mono fun result after hmeets => ?_)
  cases result with
  | ok value => exact ⟨hacts value _ hmeets.1, hmeets.2⟩
  | error failure => exact hmeets

/-- A question about a memory is not refused. -/
theorem ends_question {α : Type} {f : Memory → α} {move : Move} {answer : α → Answer}
    (hacts : m.flat.Acts move (answer (f m)) m.flat) (hnever : ∀ failure, ¬ m.flat.Refuses move failure) :
    Ends ((do return f (← Op.store)) >>= fun value => pure (answer value)) m
      (Meets (m.flat.Refuses move) (m.flat.Acts move)) :=
  .map (.map (ends_store.2 ⟨hacts, hnever⟩))

theorem ends_file_self (path : Text) : Ends (file path) m fun _ after => after = m :=
  ends_file (fun _ => rfl) (fun _ _ _ => rfl) fun _ _ _ _ => rfl

section Operations

variable (h : m.Sound) (hattached : m.Attached)
include h hattached

theorem Sound.meets_file (path : Text) :
    Ends (file path) m (Meets (m.flat.Unreadable path) fun content flat =>
      flat = m.flat ∧ ∃ mode, m.flat.listing (m.flat.key path) = some (.file mode content)) := by
  refine ends_file (fun hnone => ?_) (fun node hnode hcontent => ?_) fun node content hnode hcontent => ?_
  · exact .missing ((h.find?_eq_none_iff hattached).1 hnone)
  · refine .directory ((h.isDirectory_iff hattached hnode).1 ?_)
    rw [Node.isFile, hcontent, Option.isSome_none]
  · have hfile := h.file_eq hattached hnode hcontent
    exact ⟨⟨rfl, _, hfile⟩, fun failure hf => hf.not_isFile ⟨_, _, hfile⟩⟩

theorem Sound.meets_write (path content : Text) :
    Ends (write path content) m (Meets (m.flat.Unwritable path) fun _ flat =>
      flat = m.flat.holding (m.flat.listing.write (m.flat.key path) content)) := by
  have hproper := h.proper hattached
  refine h.ends_write (hattached.tree? path) (fun hblocked => ?_) (fun hopen hor => ?_)
    fun hopen hfree hempty => ?_
  · rw [h.route hattached] at hblocked
    exact .blocked hblocked
  · rw [h.isFixed_iff hattached, h.route hattached] at hor
    rcases hor with (hroot | hhere) | ⟨name, hname⟩
    · exact .root hroot
    · exact .here hhere
    · rcases m.flat.listing.cases_entry (m.flat.key path) with hnone | hfile | hdirectory
      · exact absurd hnone (hproper.tree.closed _ _ hname)
      · exact absurd (hproper.tree.below_eq_none hfile name) hname
      · exact .occupied ⟨hdirectory, name, hname⟩
  · have hfixed : ¬ (m.flat.key path = [] ∨ m.flat.key path = m.flat.dir) := by
      rw [← h.isFixed_iff hattached, hfree]
      nofun
    rw [h.route hattached] at hopen hempty
    refine ⟨h.flat_overwrite hattached hopen, fun failure hf => ?_⟩
    cases hf with
    | blocked hblocked => exact hopen hblocked
    | root hroot => exact hfixed (.inl hroot)
    | here hhere => exact hfixed (.inr hhere)
    | occupied hoccupied =>
      obtain ⟨-, name, hname⟩ := hoccupied
      exact hname (hempty name)

theorem Sound.meets_touch (path : Text) :
    Ends (Storage.touch path) m (Meets (m.flat.Untouchable path) fun _ flat =>
      m.flat.listing.IsFile (m.flat.key path) ∧ flat = m.flat ∨
        m.flat.listing (m.flat.key path) = none ∧
          flat = m.flat.holding (m.flat.listing.write (m.flat.key path) [])) := by
  have hproper := h.proper hattached
  refine h.ends_touch (hattached.tree? path) (fun node hnode hno => ?_) (fun node hnode hyes => ?_)
    (fun hnone hblocked => ?_) fun hnone hopen hfree => ?_
  · exact .directory ((h.isDirectory_iff hattached hnode).1 hno)
  · have hfile := (h.isFile_iff hattached hnode).1 hyes
    refine ⟨.inl ⟨hfile, rfl⟩, fun failure hf => ?_⟩
    cases hf with
    | directory hdirectory => exact hfile.not_isDirectory hdirectory
    | blocked hblocked => exact hproper.tree.not_blocked hfile.ne_none hblocked
  · rw [h.route hattached] at hblocked
    exact .blocked hblocked
  · rw [h.route hattached] at hopen
    have hnone := (h.find?_eq_none_iff hattached).1 hnone
    refine ⟨.inr ⟨hnone, h.flat_overwrite hattached hopen⟩, fun failure hf => ?_⟩
    cases hf with
    | directory hdirectory => exact hdirectory.ne_none hnone
    | blocked hblocked => exact hopen hblocked

theorem Sound.meets_makeDir (path : Text) :
    Ends (makeDir path) m (Meets (m.flat.Unmakable path) fun _ flat =>
      flat = m.flat.holding (m.flat.listing.withDirectories (m.flat.key path))) := by
  refine h.ends_makeDir (hattached.tree? path) (fun hblocked => ?_) (fun hfile => ?_) fun hopen hno => ?_
  · rw [h.route hattached] at hblocked
    exact .blocked hblocked
  · rw [h.route hattached] at hfile
    exact .file hfile
  · rw [h.route hattached] at hopen hno
    refine ⟨h.flat_grow hattached hopen, fun failure hf => ?_⟩
    cases hf with
    | blocked hblocked => exact hopen hblocked
    | file hfile => exact hno hfile

theorem Sound.meets_remove (path : Text) :
    Ends (Storage.remove path) m (Meets (m.flat.Unremovable path) fun _ flat =>
      m.flat.listing.IsFile (m.flat.key path) ∧
        flat = m.flat.holding (m.flat.listing.erase (m.flat.key path))) := by
  have hproper := h.proper hattached
  refine .bind (ends_unlink (fun hnone => ?_) (fun node hnode hor => ?_) fun node name hnode hyes hname => ?_)
  · exact .missing ((h.find?_eq_none_iff hattached).1 hnone)
  · rcases hor with hno | hsegs
    · exact .directory ((h.isDirectory_iff hattached hnode).1 hno)
    · rcases (h.segments_eq_nil_iff hattached).1 hsegs with hroot | hhere
      · exact .directory (hroot ▸ hproper.root)
      · exact .here hhere
  · have hfile := (h.isFile_iff hattached hnode).1 hyes
    refine ends_note.2 ⟨⟨hfile, ?_⟩, fun failure hf => ?_⟩
    · rw [h.flat_unlinked hattached hnode hname, hproper.tree.eraseBelow_of_isFile hfile]
    · cases hf with
      | missing hnone => exact hfile.ne_none hnone
      | directory hdirectory => exact hfile.not_isDirectory hdirectory
      | here hhere =>
        rw [(h.segments_eq_nil_iff hattached).2 (.inr hhere)] at hname
        cases hname

theorem Sound.meets_removeTree (path : Text) :
    Ends (Storage.removeTree path) m (Meets (m.flat.Rooted path) fun _ flat =>
      flat = m.flat.holding (m.flat.listing.eraseBelow (m.flat.key path))) := by
  refine .bind (ends_unlink (fun hnone => ?_) (fun node hnode hor => ?_) fun node name hnode _ hname => ?_)
  · exact .missing ((h.find?_eq_none_iff hattached).1 hnone)
  · have hsegs := hor.resolve_left nofun
    rcases (h.segments_eq_nil_iff hattached).1 hsegs with hroot | hhere
    · exact .root hroot
    · exact .here hhere
  · refine ends_note.2 ⟨h.flat_unlinked hattached hnode hname, fun failure hf => ?_⟩
    have hsegs : (m.walk path).segments ≠ [] := by
      intro hnil
      rw [hnil] at hname
      cases hname
    cases hf with
    | missing hnone =>
      rw [(h.find?_eq_none_iff hattached).2 hnone] at hnode
      cases hnode
    | root hroot => exact hsegs ((h.segments_eq_nil_iff hattached).2 (.inl hroot))
    | here hhere => exact hsegs ((h.segments_eq_nil_iff hattached).2 (.inr hhere))

theorem Sound.meets_enter (path : Text) :
    Ends (Storage.enter path) m (Meets (m.flat.NoDirectory path) fun _ flat =>
      m.flat.listing.IsDirectory (m.flat.key path) ∧
        flat = ⟨m.flat.listing, m.flat.key path, m.flat.dir :: m.flat.saved⟩) := by
  refine ends_enter (fun hnone => ?_) (fun node hnode hyes => ?_) fun node hnode hno => ?_
  · exact .missing ((h.find?_eq_none_iff hattached).1 hnone)
  · exact .file ((h.isFile_iff hattached hnode).1 hyes)
  · have hdirectory := (h.isDirectory_iff hattached hnode).1 hno
    refine ⟨⟨hdirectory, ?_⟩, fun failure hf => ?_⟩
    · rw [flat_key]
      rfl
    · cases hf with
      | missing hnone => exact hdirectory.ne_none hnone
      | file hfile => exact hfile.not_isDirectory hdirectory

theorem Sound.meets_setMode (path : Text) (mode : Int) :
    Ends (Storage.setMode path mode) m (Meets (m.flat.Unfound path) fun _ flat =>
      flat = m.flat.holding (m.flat.listing.setMode (m.flat.key path) (Node.permissions mode))) := by
  refine ends_setMode (fun hnone => ?_) fun node hnode => ?_
  · exact .missing ((h.find?_eq_none_iff hattached).1 hnone)
  · refine ⟨h.flat_setMode hattached mode, fun failure hf => ?_⟩
    cases hf with
    | missing hnone =>
      rw [(h.find?_eq_none_iff hattached).2 hnone] at hnode
      cases hnode

theorem Sound.meets_mode (path : Text) :
    Ends (Storage.mode path) m (Meets (m.flat.Unfound path) fun mode flat =>
      flat = m.flat ∧ ∃ entry, m.flat.listing (m.flat.key path) = some entry ∧ entry.mode = mode) := by
  refine ends_mode (fun hnone => ?_) fun node hnode => ?_
  · exact .missing ((h.find?_eq_none_iff hattached).1 hnone)
  · have hentry : m.flat.listing (m.flat.key path) = some node.entry := by
      rw [h.flat_key_eq hattached, hnode, Option.map_some]
    refine ⟨⟨rfl, node.entry, hentry, ?_⟩, fun failure hf => ?_⟩
    · unfold Node.entry
      cases node.content <;> rfl
    · cases hf with
      | missing hnone =>
        rw [hentry] at hnone
        cases hnone

theorem Sound.meets_entries (path : Text) :
    Ends (Storage.entries path) m (Meets (m.flat.NoDirectory path) fun names flat =>
      flat = m.flat ∧ names.Pairwise (· < ·) ∧
        ∀ name, name ∈ names ↔ m.flat.listing (m.flat.key path ++ [name]) ≠ none) := by
  refine ends_entries (fun hnone => ?_) (fun node hnode hyes => ?_) fun node hnode hno => ?_
  · exact .missing ((h.find?_eq_none_iff hattached).1 hnone)
  · exact .file ((h.isFile_iff hattached hnode).1 hyes)
  · have hdirectory := (h.isDirectory_iff hattached hnode).1 hno
    rw [h.find?_flat hattached] at hnode
    have htidy := ((h.trees none m.root rfl).at? hnode).tidy
    refine ⟨⟨rfl, htidy.pairwise_names, fun name => Node.mem_names_iff hnode⟩, fun failure hf => ?_⟩
    cases hf with
    | missing hnone => exact hdirectory.ne_none hnone
    | file hfile => exact hfile.not_isDirectory hdirectory

theorem Sound.meets_readLines (files : Settings) (path : Text) :
    Ends (Storage.readLines files path) m (Meets (m.flat.Unreadable path) fun lines flat =>
      flat = m.flat ∧ ∃ mode content, m.flat.listing (m.flat.key path) = some (.file mode content) ∧
        lines = Line.split files.newline.text content) := by
  refine ends_map_meets (h.meets_file hattached path) ?_
  rintro content flat ⟨rfl, mode, hfile⟩
  exact ⟨rfl, mode, content, hfile, rfl⟩

theorem Sound.meets_copy (source destination : Text) :
    Ends (Storage.copy source destination) m
      (Meets (fun failure => m.flat.Unreadable source failure ∨
          m.flat.listing.IsFile (m.flat.key source) ∧ m.flat.Unwritable destination failure)
        fun _ flat => ∃ mode content,
          m.flat.listing (m.flat.key source) = some (.file mode content) ∧
          flat = m.flat.holding (m.flat.listing.write (m.flat.key destination) content)) := by
  refine .bind (((h.meets_file hattached source).and (ends_file_self source)).mono ?_)
  rintro result after ⟨hread, rfl⟩
  cases result with
  | error failure => exact .inl hread
  | ok content =>
    obtain ⟨⟨-, mode, hfile⟩, hreadable⟩ := hread
    refine (h.meets_write hattached destination content).mono fun result after hwrite => ?_
    cases result with
    | error failure => exact .inr ⟨⟨mode, content, hfile⟩, hwrite⟩
    | ok value =>
      refine ⟨⟨mode, content, hfile, hwrite.1⟩, ?_⟩
      rintro failure (hf | ⟨-, hf⟩)
      · exact hreadable failure hf
      · exact hwrite.2 failure hf

theorem Sound.meets_edit (rules : Rules) (path : Text) (e : Edit) :
    Ends (Storage.edit rules.edited rules.lines path e) m
      (Meets (m.flat.Uneditable rules path e) fun _ flat =>
        m.flat.Acts (.act rules (.edit path e)) .nothing flat) := by
  have hproper := h.proper hattached
  refine h.ends_edit (hattached.tree? path) (fun hcreates hnone => ?_) (fun node hnode hcontent => ?_)
    (fun hcreates _ hblocked => ?_) (fun node old failure hnode hold hsplice => ?_)
    (fun node old splice hnode hold hsplice hfixed => ?_)
    (fun node old splice hnode hold hsplice hfree => ?_)
    fun splice hcreates hnone hopen _ hsplice => ?_
  · exact .missing hcreates ((h.find?_eq_none_iff hattached).1 hnone)
  · refine .directory ((h.isDirectory_iff hattached hnode).1 ?_)
    rw [Node.isFile, hcontent, Option.isSome_none]
  · rw [h.route hattached] at hblocked
    exact .blocked hcreates hblocked
  · exact .unspliced (h.file_eq hattached hnode hold) hsplice
  · have hfile := h.file_eq hattached hnode hold
    rcases (h.isFixed_iff hattached).1 hfixed with hroot | hhere
    · exact .directory (hroot ▸ hproper.root)
    · exact .here hfile hsplice hhere
  · have hfile := h.file_eq hattached hnode hold
    have hisFile : m.flat.listing.IsFile (m.flat.key path) := ⟨_, _, hfile⟩
    have hopen := hproper.tree.not_blocked hisFile.ne_none
    have hhere : m.flat.key path ≠ m.flat.dir := by
      intro heq
      rw [(h.isFixed_iff hattached).2 (.inr heq)] at hfree
      cases hfree
    refine ⟨?_, fun failure => Flat.not_uneditable_of_spliced hproper.tree hfile hsplice hhere⟩
    rw [h.flat_overwrite hattached hopen]
    exact .edit hfile hsplice
  · rw [h.route hattached] at hopen
    have hnone := (h.find?_eq_none_iff hattached).1 hnone
    refine ⟨?_, fun failure => Flat.not_uneditable_of_created hcreates hnone hopen⟩
    rw [h.flat_overwrite hattached hopen]
    exact .edit_new hcreates hnone hsplice

theorem Sound.hasEntry_iff (path : Text) :
    (m.find? path).isSome = true ↔ m.flat.listing (m.flat.key path) ≠ none := by
  rw [h.flat_key_eq hattached]
  cases m.find? path <;> simp

theorem Sound.isDir_iff (path : Text) :
    (m.find? path).any Node.isDirectory = true ↔ m.flat.listing.IsDirectory (m.flat.key path) := by
  cases hfind : m.find? path with
  | none => simp [Listing.IsDirectory, (h.find?_eq_none_iff hattached).1 hfind]
  | some node =>
    rw [← h.isDirectory_iff hattached hfind]
    simp [Node.isDirectory]

theorem Sound.isExecutable_iff (path : Text) :
    (m.find? path).any Node.isExecutable = true ↔
      ∃ entry, m.flat.listing (m.flat.key path) = some entry ∧ entry.mode / 64 % 2 = 1 := by
  rw [h.flat_key_eq hattached]
  cases m.find? path with
  | none => simp
  | some node => simp [Node.isExecutable, Node.mode_entry]

/-- **One move of a memory** is one of its flat map: it fails in a way the map refuses it, or the map
does not refuse it and it answers and changes what it should. -/
theorem Sound.meets_move (move : Move) :
    Ends move.run m (Meets (m.flat.Refuses move) (m.flat.Acts move)) := by
  cases move with
  | enter path =>
    refine ends_map_meets (h.meets_enter hattached path) ?_
    rintro - flat ⟨hdirectory, rfl⟩
    exact .enter hdirectory
  | leave =>
    refine .map (.get (ends_setStore.2 ⟨?_, fun _ => id⟩))
    have hleave : m.flat.Acts .leave _ _ := .leave
    unfold Memory.left
    cases hsaved : m.saved with
    | nil => simpa [flat, hsaved] using hleave
    | cons place rest => simpa [flat, hsaved] using hleave
  | act rules action =>
    cases action with
    | touch path =>
      refine ends_map_meets (h.meets_touch hattached path) ?_
      rintro - flat (⟨hfile, rfl⟩ | ⟨hnone, rfl⟩)
      · exact .touch_file hfile
      · exact .touch_new hnone
    | read path =>
      refine ends_map_meets (h.meets_file hattached path) ?_
      rintro content flat ⟨rfl, mode, hfile⟩
      exact .read hfile
    | readLines path =>
      refine ends_map_meets (h.meets_readLines hattached rules.files path) ?_
      rintro - flat ⟨rfl, mode, content, hfile, rfl⟩
      exact .readLines hfile
    | write path content =>
      refine ends_map_meets (h.meets_write hattached path content) ?_
      rintro - flat rfl
      exact .write
    | copy source destination =>
      refine ends_map_meets (h.meets_copy hattached source destination) ?_
      rintro - flat ⟨mode, content, hfile, rfl⟩
      exact .copy hfile
    | makeDir path =>
      refine ends_map_meets (h.meets_makeDir hattached path) ?_
      rintro - flat rfl
      exact .makeDir
    | makeParents path =>
      refine ends_map_meets (h.meets_makeDir hattached (Path.parent path)) ?_
      rintro - flat rfl
      exact .makeParents
    | remove path =>
      refine ends_map_meets (h.meets_remove hattached path) ?_
      rintro - flat ⟨hfile, rfl⟩
      exact .remove hfile
    | removeTree path =>
      refine ends_map_meets (h.meets_removeTree hattached path) ?_
      rintro - flat rfl
      exact .removeTree
    | workingDir => exact ends_question .workingDir fun _ => id
    | join tokens => exact ends_pure.2 ⟨.join, fun _ => id⟩
    | expand path base =>
      refine ends_question ?_ fun _ => id
      rw [← flat_expand]
      exact .expand
    | setMode path mode =>
      refine ends_map_meets (h.meets_setMode hattached path mode) ?_
      rintro - flat rfl
      exact .setMode
    | mode path =>
      refine ends_map_meets (h.meets_mode hattached path) ?_
      rintro - flat ⟨rfl, entry, hentry, rfl⟩
      exact .mode hentry
    | entries path =>
      refine ends_map_meets (h.meets_entries hattached path) ?_
      rintro names flat ⟨rfl, hsorted, hnames⟩
      exact .entries hsorted hnames
    | hasEntry path => exact ends_question (.hasEntry (h.hasEntry_iff hattached path)) fun _ => id
    | isDir path => exact ends_question (.isDir (h.isDir_iff hattached path)) fun _ => id
    | isExecutable path =>
      exact ends_question (.isExecutable (h.isExecutable_iff hattached path)) fun _ => id
    | edit path e => exact ends_map_meets (h.meets_edit hattached rules path e) fun _ _ => id

end Operations

/-! ## Reachable memories -/

/-- **A move that succeeds** does to the flat map what its operation says, and answers with what the
map says. -/
theorem Reachable.acts (h : m.Reachable) (hattached : m.Attached) (move : Move) {answer : Answer}
    (hanswer : (Op.outcome move.run m).1 = .ok answer) :
    m.flat.Acts move answer (Op.outcome move.run m).2.store.flat := by
  have hmeets := (h.sound.meets_move hattached move).outcome
  rw [hanswer] at hmeets
  exact hmeets.1

/-- A file in a directory that has been entered, which holds another directory. -/
def furnished : Memory :=
  (Op.outcome (Move.run (.act {} (.write (Text.lit "f") (Text.lit "x"))))
    (Op.outcome (Move.run (.enter (Text.lit "/a")))
      (Op.outcome (Move.run (.act {} (.makeDir (Text.lit "/a/b")))) ({} : Memory)).2.store).2.store).2.store

theorem reachable_furnished : furnished.Reachable :=
  ((Reachable.start.move (.act {} (.makeDir (Text.lit "/a/b")))).move (.enter (Text.lit "/a"))).move
    (.act {} (.write (Text.lit "f") (Text.lit "x")))

/-- A path that climbs out of the directory that was entered is written where it leads. -/
theorem acts_write_climbing :
    furnished.Attached ∧ furnished.saved.length = 1 ∧
      furnished.flat.Acts (.act {} (.write (Text.lit "b/../../c/d") (Text.lit "y"))) .nothing
        (Op.outcome (Move.run (.act {} (.write (Text.lit "b/../../c/d") (Text.lit "y")))) furnished).2.store.flat ∧
      furnished.flat.key (Text.lit "b/../../c/d") = [Text.lit "c", Text.lit "d"] :=
  ⟨by decide, rfl, Reachable.acts reachable_furnished (by decide) _ rfl, by decide⟩

/-- **A move fails exactly when the flat map refuses it**, in the way the map says, and leaves the
whole memory as it was. -/
theorem Reachable.refuses (h : m.Reachable) (hattached : m.Attached) (move : Move) (failure : Failure) :
    ((Op.outcome move.run m).1 = .error failure ↔ m.flat.Refuses move failure) ∧
      ((Op.outcome move.run m).1 = .error failure → (Op.outcome move.run m).2.store = m) := by
  have hmeets := (h.sound.meets_move hattached move).outcome
  refine ⟨⟨fun hfails => ?_, fun hrefuses => ?_⟩, (h.sound.ends_move move).outcome.2 failure⟩
  · rw [hfails] at hmeets
    exact hmeets
  · cases hresult : (Op.outcome move.run m).1 with
    | ok answer =>
      rw [hresult] at hmeets
      exact absurd hrefuses (hmeets.2 failure)
    | error other =>
      rw [hresult] at hmeets
      rw [(h.sound.proper hattached).refuses_unique hmeets hrefuses]

/-- Nothing is written below a file. -/
theorem refuses_write_below_file :
    furnished.Attached ∧ furnished.saved.length = 1 ∧
      (Op.outcome (Move.run (.act {} (.write (Text.lit "f/g") (Text.lit "y")))) furnished).1 =
        .error (.ofErrno Errno.notDirectory (Text.lit "f/g")) ∧
      furnished.flat.Refuses (.act {} (.write (Text.lit "f/g") (Text.lit "y")))
        (.ofErrno Errno.notDirectory (Text.lit "f/g")) ∧
      (Op.outcome (Move.run (.act {} (.write (Text.lit "f/g") (Text.lit "y")))) furnished).2.store = furnished := by
  have hrefused : (Op.outcome (Move.run (.act {} (.write (Text.lit "f/g") (Text.lit "y")))) furnished).1 =
      .error (.ofErrno Errno.notDirectory (Text.lit "f/g")) := rfl
  obtain ⟨hiff, hkept⟩ := Reachable.refuses reachable_furnished (by decide)
    (.act {} (.write (Text.lit "f/g") (Text.lit "y"))) (.ofErrno Errno.notDirectory (Text.lit "f/g"))
  exact ⟨by decide, rfl, hrefused, hiff.1 hrefused, hkept hrefused⟩

end Memory

end Linework
