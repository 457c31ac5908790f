import Linework.Memory
import Linework.Proofs.Listing
import Linework.Proofs.Op
import Mathlib.Data.List.Sort

/-!
# Flat storages

What a storage is to whoever asks it: a flat map from segments to entries, and the segments of its
working directories. Every path is a key of the map, however it is written. `Acts` says what a move
does to the map and answers when it succeeds, `Refuses` when it does not and how it fails; at most
one answer and at most one failure is due (`Acts.unique`, `Proper.refuses_unique`).
-/

namespace Linework

/-- A flat map with a working directory, and the directories to go back to. -/
structure Flat where
  listing : Listing
  dir : List Text
  saved : List (List Text)

/-- The segments that a path has from the root, seen from a directory, with every climb resolved. -/
theorem segments_expandFrom {dir : List Text} (hplain : ∀ segment ∈ dir, Path.Plain segment) (path : Text) :
    Path.segments (Memory.expandFrom (Path.ofSegments dir) path) =
      Path.resolve true ((if Path.isAbsolute path then [] else dir) ++ Path.segments path) := by
  unfold Memory.expandFrom
  split
  · rename_i habs
    rw [Path.segments_normalize, habs, List.nil_append]
  · rw [Path.segments_normalize, Path.isAbsolute_joinTexts_ofSegments, Path.segments_joinTexts,
      List.flatMap_cons, List.flatMap_singleton, Path.segments_ofSegments_of_plain hplain]

namespace Flat

/-- The absolute path of a path, seen from a base or else from the working directory. -/
def expand (flat : Flat) (path : Text) (base : Option Text) : Text :=
  match base with
  | none => Memory.expandFrom (Path.ofSegments flat.dir) path
  | some base => Memory.expandFrom (Memory.expandFrom (Path.ofSegments flat.dir) base) path

/-- The key of a path: the segments of its absolute path. -/
def key (flat : Flat) (path : Text) : List Text := Path.segments (flat.expand path none)

/-- The key of an absolute path is what it is written from. -/
theorem key_ofSegments (flat : Flat) {route : List Text} (hplain : ∀ s ∈ route, Path.Plain s) :
    flat.key (Path.ofSegments route) = route := by
  show Path.segments (Memory.expandFrom _ (Path.ofSegments route)) = route
  rw [Memory.expandFrom, if_pos (Path.isAbsolute_ofSegments route), Path.segments_normalize,
    Path.isAbsolute_ofSegments, Path.segments_ofSegments_of_plain hplain,
    Path.resolve_of_up_notMem (Path.up_notMem_of_plain hplain)]

/-- A flat map that a tree can have, with a working directory in it. -/
structure Proper (flat : Flat) : Prop where
  tree : flat.listing.IsTree
  root : flat.listing.IsDirectory []
  here : flat.listing flat.dir ≠ none
  plain : ∀ segment ∈ flat.dir, Path.Plain segment

namespace Proper

variable {flat : Flat}

/-- A name of the working directory without a segment has the key of the working directory. -/
theorem key_of_segments_eq_nil (h : flat.Proper) {path : Text} (habs : Path.isAbsolute path = false)
    (hsegs : Path.segments path = []) : flat.key path = flat.dir := by
  rw [key, expand, segments_expandFrom h.plain, habs, hsegs, List.append_nil]
  exact Path.resolve_of_up_notMem (Path.up_notMem_of_plain h.plain)

end Proper

/-! ## Success -/

/-- The same storage with another map. -/
def holding (flat : Flat) (listing : Listing) : Flat := { flat with listing }

/-- What a move that succeeds answers, and what it leaves. -/
inductive Acts (flat : Flat) : Move → Answer → Flat → Prop
  | touch_file {rules : Rules} {path : Text} (hfile : flat.listing.IsFile (flat.key path)) :
      Acts flat (.act rules (.touch path)) .nothing flat
  | touch_new {rules : Rules} {path : Text} (hnone : flat.listing (flat.key path) = none) :
      Acts flat (.act rules (.touch path)) .nothing
        (flat.holding (flat.listing.write (flat.key path) []))
  | read {rules : Rules} {path content : Text} {mode : Int}
      (hfile : flat.listing (flat.key path) = some (.file mode content)) :
      Acts flat (.act rules (.read path)) (.text content) flat
  | readLines {rules : Rules} {path content : Text} {mode : Int}
      (hfile : flat.listing (flat.key path) = some (.file mode content)) :
      Acts flat (.act rules (.readLines path))
        (.texts (Line.split rules.files.newline.text content)) flat
  | write {rules : Rules} {path content : Text} :
      Acts flat (.act rules (.write path content)) .nothing
        (flat.holding (flat.listing.write (flat.key path) content))
  | copy {rules : Rules} {source destination content : Text} {mode : Int}
      (hfile : flat.listing (flat.key source) = some (.file mode content)) :
      Acts flat (.act rules (.copy source destination)) .nothing
        (flat.holding (flat.listing.write (flat.key destination) content))
  | makeDir {rules : Rules} {path : Text} :
      Acts flat (.act rules (.makeDir path)) .nothing
        (flat.holding (flat.listing.withDirectories (flat.key path)))
  | makeParents {rules : Rules} {path : Text} :
      Acts flat (.act rules (.makeParents path)) .nothing
        (flat.holding (flat.listing.withDirectories (flat.key (Path.parent path))))
  | remove {rules : Rules} {path : Text} (hfile : flat.listing.IsFile (flat.key path)) :
      Acts flat (.act rules (.remove path)) .nothing
        (flat.holding (flat.listing.erase (flat.key path)))
  | removeTree {rules : Rules} {path : Text} :
      Acts flat (.act rules (.removeTree path)) .nothing
        (flat.holding (flat.listing.eraseBelow (flat.key path)))
  | workingDir {rules : Rules} : Acts flat (.act rules .workingDir) (.text (Path.ofSegments flat.dir)) flat
  | join {rules : Rules} {tokens : List PathToken} :
      Acts flat (.act rules (.join tokens)) (.text (Path.join tokens)) flat
  | expand {rules : Rules} {path : Text} {base : Option Text} :
      Acts flat (.act rules (.expand path base)) (.text (flat.expand path base)) flat
  | setMode {rules : Rules} {path : Text} {mode : Int} :
      Acts flat (.act rules (.setMode path mode)) .nothing
        (flat.holding (flat.listing.setMode (flat.key path) (Node.permissions mode)))
  | mode {rules : Rules} {path : Text} {entry : Entry} (hentry : flat.listing (flat.key path) = some entry) :
      Acts flat (.act rules (.mode path)) (.number entry.mode) flat
  | entries {rules : Rules} {path : Text} {names : List Text} (hsorted : names.Pairwise (· < ·))
      (hnames : ∀ name, name ∈ names ↔ flat.listing (flat.key path ++ [name]) ≠ none) :
      Acts flat (.act rules (.entries path)) (.texts names) flat
  | hasEntry {rules : Rules} {path : Text} {found : Bool}
      (hfound : found = true ↔ flat.listing (flat.key path) ≠ none) :
      Acts flat (.act rules (.hasEntry path)) (.flag found) flat
  | isDir {rules : Rules} {path : Text} {found : Bool}
      (hfound : found = true ↔ flat.listing.IsDirectory (flat.key path)) :
      Acts flat (.act rules (.isDir path)) (.flag found) flat
  | isExecutable {rules : Rules} {path : Text} {found : Bool}
      (hfound : found = true ↔
        ∃ entry, flat.listing (flat.key path) = some entry ∧ entry.mode / 64 % 2 = 1) :
      Acts flat (.act rules (.isExecutable path)) (.flag found) flat
  | edit {rules : Rules} {path old : Text} {mode : Int} {e : Edit} {splice : Splice}
      (hfile : flat.listing (flat.key path) = some (.file mode old))
      (hsplice : e.splice rules.lines path (Line.split rules.edited.newline.text old) = .ok splice) :
      Acts flat (.act rules (.edit path e)) .nothing
        (flat.holding (flat.listing.write (flat.key path)
          (splice.apply (Line.split rules.edited.newline.text old)).flatten))
  | edit_new {rules : Rules} {path : Text} {e : Edit} {splice : Splice} (hcreates : e.creates = true)
      (hnone : flat.listing (flat.key path) = none) (hsplice : e.splice rules.lines path [] = .ok splice) :
      Acts flat (.act rules (.edit path e)) .nothing
        (flat.holding (flat.listing.write (flat.key path) (splice.apply []).flatten))
  | enter {path : Text} (hdirectory : flat.listing.IsDirectory (flat.key path)) :
      Acts flat (.enter path) .nothing ⟨flat.listing, flat.key path, flat.dir :: flat.saved⟩
  | leave : Acts flat .leave .nothing
      ⟨flat.listing, flat.saved.headD flat.dir, flat.saved.tail⟩

/-- **A move that succeeds** has one answer and leaves one map. -/
theorem Acts.unique {flat after after' : Flat} {move : Move} {answer answer' : Answer}
    (hone : flat.Acts move answer after) (hother : flat.Acts move answer' after') :
    answer = answer' ∧ after = after' := by
  have hflag : ∀ {P : Prop} {found found' : Bool}, (found = true ↔ P) → (found' = true ↔ P) →
      Answer.flag found = .flag found' := fun hfound hfound' =>
    congrArg Answer.flag (Bool.eq_iff_iff.2 (hfound.trans hfound'.symm))
  cases hone with
  | touch_file hfile =>
    cases hother with
    | touch_file => exact ⟨rfl, rfl⟩
    | touch_new hnone => exact absurd hnone hfile.ne_none
  | touch_new hnone =>
    cases hother with
    | touch_file hfile => exact absurd hnone hfile.ne_none
    | touch_new => exact ⟨rfl, rfl⟩
  | read hfile =>
    cases hother with
    | read hfile' =>
      cases hfile.symm.trans hfile'
      exact ⟨rfl, rfl⟩
  | readLines hfile =>
    cases hother with
    | readLines hfile' =>
      cases hfile.symm.trans hfile'
      exact ⟨rfl, rfl⟩
  | copy hfile =>
    cases hother with
    | copy hfile' =>
      cases hfile.symm.trans hfile'
      exact ⟨rfl, rfl⟩
  | mode hentry =>
    cases hother with
    | mode hentry' =>
      cases hentry.symm.trans hentry'
      exact ⟨rfl, rfl⟩
  | entries hsorted hnames =>
    cases hother with
    | entries hsorted' hnames' =>
      have heq := hsorted.eq_of_mem_iff hsorted' fun name => (hnames name).trans (hnames' name).symm
      exact ⟨congrArg Answer.texts heq, rfl⟩
  | hasEntry hfound =>
    cases hother with
    | hasEntry hfound' => exact ⟨hflag hfound hfound', rfl⟩
  | isDir hfound =>
    cases hother with
    | isDir hfound' => exact ⟨hflag hfound hfound', rfl⟩
  | isExecutable hfound =>
    cases hother with
    | isExecutable hfound' => exact ⟨hflag hfound hfound', rfl⟩
  | edit hfile hsplice =>
    cases hother with
    | edit hfile' hsplice' =>
      cases hfile.symm.trans hfile'
      cases hsplice.symm.trans hsplice'
      exact ⟨rfl, rfl⟩
    | edit_new _ hnone =>
      rw [hnone] at hfile
      cases hfile
  | edit_new _ hnone hsplice =>
    cases hother with
    | edit hfile =>
      rw [hnone] at hfile
      cases hfile
    | edit_new _ _ hsplice' =>
      cases hsplice.symm.trans hsplice'
      exact ⟨rfl, rfl⟩
  | write | makeDir | makeParents | remove | removeTree | workingDir | join | expand | setMode | enter | leave =>
    cases hother
    exact ⟨rfl, rfl⟩

/-- An action leaves the working directories as they are. -/
theorem Acts.dirs {flat after : Flat} {rules : Rules} {action : Action} {answer : Answer}
    (h : flat.Acts (.act rules action) answer after) : after.dir = flat.dir ∧ after.saved = flat.saved := by
  cases h <;> exact ⟨rfl, rfl⟩

/-! ## Failure -/

variable (flat : Flat)

/-- No entry of any kind is at the path. -/
inductive Unfound (path : Text) : Failure → Prop
  | missing (hnone : flat.listing (flat.key path) = none) : Unfound path (.ofErrno Errno.noEntry path)

inductive Unreadable (path : Text) : Failure → Prop
  | missing (hnone : flat.listing (flat.key path) = none) : Unreadable path (.ofErrno Errno.noEntry path)
  | directory (hdirectory : flat.listing.IsDirectory (flat.key path)) :
      Unreadable path (.ofErrno Errno.isDirectory path)

inductive Unwritable (path : Text) : Failure → Prop
  | blocked (hblocked : flat.listing.Blocked (flat.key path)) :
      Unwritable path (.ofErrno Errno.notDirectory path)
  | root (hroot : flat.key path = []) : Unwritable path (.ofErrno Errno.isDirectory path)
  | here (hhere : flat.key path = flat.dir) : Unwritable path (.ofErrno Errno.isDirectory path)
  | occupied (hoccupied : flat.listing.IsOccupied (flat.key path)) :
      Unwritable path (.ofErrno Errno.isDirectory path)

inductive Untouchable (path : Text) : Failure → Prop
  | directory (hdirectory : flat.listing.IsDirectory (flat.key path)) :
      Untouchable path (.ofErrno Errno.isDirectory path)
  | blocked (hblocked : flat.listing.Blocked (flat.key path)) :
      Untouchable path (.ofErrno Errno.notDirectory path)

/-- No directory can be made at the path. -/
inductive Unmakable (path : Text) : Failure → Prop
  | blocked (hblocked : flat.listing.Blocked (flat.key path)) :
      Unmakable path (.ofErrno Errno.notDirectory path)
  | file (hfile : flat.listing.IsFile (flat.key path)) : Unmakable path (.ofErrno Errno.entryExists path)

/-- The path is a name of the working directory that has no segment. -/
def NamesHere (path : Text) : Prop := Path.isAbsolute path = false ∧ Path.segments path = []

inductive Unremovable (path : Text) : Failure → Prop
  | missing (hnone : flat.listing (flat.key path) = none) : Unremovable path (.ofErrno Errno.noEntry path)
  | directory (hdirectory : flat.listing.IsDirectory (flat.key path)) :
      Unremovable path (.ofErrno Errno.notPermitted path)
  | here (hhere : NamesHere path) : Unremovable path (.ofErrno Errno.notPermitted path)

/-- The path cannot be removed with all below it. -/
inductive Rooted (path : Text) : Failure → Prop
  | missing (hnone : flat.listing (flat.key path) = none) : Rooted path (.ofErrno Errno.noEntry path)
  | root (hroot : flat.key path = []) : Rooted path (.ofErrno Errno.notPermitted path)
  | here (hhere : NamesHere path) : Rooted path (.ofErrno Errno.notPermitted path)

/-- The path is no directory to list or to enter. -/
inductive NoDirectory (path : Text) : Failure → Prop
  | missing (hnone : flat.listing (flat.key path) = none) : NoDirectory path (.ofErrno Errno.noEntry path)
  | file (hfile : flat.listing.IsFile (flat.key path)) : NoDirectory path (.ofErrno Errno.notDirectory path)

inductive Uneditable (rules : Rules) (path : Text) (e : Edit) : Failure → Prop
  | missing (hcreates : e.creates = false) (hnone : flat.listing (flat.key path) = none) :
      Uneditable rules path e (.ofErrno Errno.noEntry path)
  | directory (hdirectory : flat.listing.IsDirectory (flat.key path)) :
      Uneditable rules path e (.ofErrno Errno.isDirectory path)
  | blocked (hcreates : e.creates = true) (hblocked : flat.listing.Blocked (flat.key path)) :
      Uneditable rules path e (.ofErrno Errno.notDirectory path)
  | unspliced {mode : Int} {old : Text} {failure : Failure}
      (hfile : flat.listing (flat.key path) = some (.file mode old))
      (hsplice : e.splice rules.lines path (Line.split rules.edited.newline.text old) = .error failure) :
      Uneditable rules path e failure
  | here {mode : Int} {old : Text} {splice : Splice}
      (hfile : flat.listing (flat.key path) = some (.file mode old))
      (hsplice : e.splice rules.lines path (Line.split rules.edited.newline.text old) = .ok splice)
      (hhere : flat.key path = flat.dir) :
      Uneditable rules path e (.ofErrno Errno.isDirectory path)

/-- How a move fails. -/
def Refuses : Move → Failure → Prop
  | .act rules action =>
    match action with
    | .touch path => flat.Untouchable path
    | .read path | .readLines path => flat.Unreadable path
    | .write path _ => flat.Unwritable path
    | .copy source destination => fun failure =>
      flat.Unreadable source failure ∨
        flat.listing.IsFile (flat.key source) ∧ flat.Unwritable destination failure
    | .makeDir path => flat.Unmakable path
    | .makeParents path => flat.Unmakable (Path.parent path)
    | .remove path => flat.Unremovable path
    | .removeTree path => flat.Rooted path
    | .setMode path _ | .mode path => flat.Unfound path
    | .entries path => flat.NoDirectory path
    | .edit path e => flat.Uneditable rules path e
    | .workingDir | .join _ | .expand _ _ | .hasEntry _ | .isDir _ | .isExecutable _ => fun _ => False
  | .enter path => flat.NoDirectory path
  | .leave => fun _ => False

/-! ## At most one failure -/

variable {flat} {path : Text} {failure other : Failure}

/-- A failure that depends on whether something is at a path. -/
def Either (flat : Flat) (path : Text) (absent present failure : Failure) : Prop :=
  flat.listing (flat.key path) = none ∧ failure = absent ∨
    flat.listing (flat.key path) ≠ none ∧ failure = present

theorem Either.unique {absent present : Failure} (h : flat.Either path absent present failure)
    (hother : flat.Either path absent present other) : failure = other := by
  rcases h with ⟨hnone, rfl⟩ | ⟨hsome, rfl⟩ <;> rcases hother with ⟨hnone', rfl⟩ | ⟨hsome', rfl⟩
  · rfl
  · exact absurd hnone hsome'
  · exact absurd hnone' hsome
  · rfl

theorem Unreadable.either (h : flat.Unreadable path failure) :
    flat.Either path (.ofErrno Errno.noEntry path) (.ofErrno Errno.isDirectory path) failure := by
  cases h with
  | missing hnone => exact .inl ⟨hnone, rfl⟩
  | directory hdirectory => exact .inr ⟨hdirectory.ne_none, rfl⟩

theorem Unreadable.not_isFile (h : flat.Unreadable path failure) :
    ¬ flat.listing.IsFile (flat.key path) := by
  cases h with
  | missing hnone => exact fun hfile => hfile.ne_none hnone
  | directory hdirectory => exact fun hfile => hfile.not_isDirectory hdirectory

theorem NoDirectory.either (h : flat.NoDirectory path failure) :
    flat.Either path (.ofErrno Errno.noEntry path) (.ofErrno Errno.notDirectory path) failure := by
  cases h with
  | missing hnone => exact .inl ⟨hnone, rfl⟩
  | file hfile => exact .inr ⟨hfile.ne_none, rfl⟩

/-- A file with its target in it is edited, unless it should be the working directory. -/
theorem not_uneditable_of_spliced (h : flat.listing.IsTree) {rules : Rules} {e : Edit} {mode : Int}
    {old : Text} {splice : Splice}
    (hfile : flat.listing (flat.key path) = some (.file mode old))
    (hsplice : e.splice rules.lines path (Line.split rules.edited.newline.text old) = .ok splice)
    (hhere : flat.key path ≠ flat.dir) : ¬ flat.Uneditable rules path e failure := by
  have hisFile : flat.listing.IsFile (flat.key path) := ⟨mode, old, hfile⟩
  intro hf
  cases hf with
  | missing _ hnone => exact hisFile.ne_none hnone
  | directory hdirectory => exact hisFile.not_isDirectory hdirectory
  | blocked _ hblocked => exact h.not_blocked hisFile.ne_none hblocked
  | unspliced hfile' hsplice' =>
    cases hfile.symm.trans hfile'
    cases hsplice.symm.trans hsplice'
  | here _ _ heq => exact hhere heq

/-- A file that an edit may create is edited where none is. -/
theorem not_uneditable_of_created {rules : Rules} {e : Edit} (hcreates : e.creates = true)
    (hnone : flat.listing (flat.key path) = none) (hopen : ¬ flat.listing.Blocked (flat.key path)) :
    ¬ flat.Uneditable rules path e failure := by
  intro hf
  cases hf with
  | missing hnever => rw [hcreates] at hnever; cases hnever
  | directory hdirectory => exact hdirectory.ne_none hnone
  | blocked _ hblocked => exact hopen hblocked
  | unspliced hfile | here hfile => rw [hnone] at hfile; cases hfile

namespace Proper

variable (h : flat.Proper)
include h

theorem ne_none_of_namesHere (hhere : NamesHere path) : flat.listing (flat.key path) ≠ none := by
  rw [h.key_of_segments_eq_nil hhere.1 hhere.2]
  exact h.here

theorem either_of_unwritable (hf : flat.Unwritable path failure) :
    flat.Either path (.ofErrno Errno.notDirectory path) (.ofErrno Errno.isDirectory path) failure := by
  cases hf with
  | blocked hblocked => exact .inl ⟨h.tree.eq_none_of_blocked hblocked, rfl⟩
  | root hroot => exact .inr ⟨hroot ▸ h.root.ne_none, rfl⟩
  | here hhere => exact .inr ⟨hhere ▸ h.here, rfl⟩
  | occupied hoccupied => exact .inr ⟨hoccupied.1.ne_none, rfl⟩

theorem either_of_untouchable (hf : flat.Untouchable path failure) :
    flat.Either path (.ofErrno Errno.notDirectory path) (.ofErrno Errno.isDirectory path) failure := by
  cases hf with
  | directory hdirectory => exact .inr ⟨hdirectory.ne_none, rfl⟩
  | blocked hblocked => exact .inl ⟨h.tree.eq_none_of_blocked hblocked, rfl⟩

theorem either_of_unmakable (hf : flat.Unmakable path failure) :
    flat.Either path (.ofErrno Errno.notDirectory path) (.ofErrno Errno.entryExists path) failure := by
  cases hf with
  | blocked hblocked => exact .inl ⟨h.tree.eq_none_of_blocked hblocked, rfl⟩
  | file hfile => exact .inr ⟨hfile.ne_none, rfl⟩

theorem either_of_unremovable (hf : flat.Unremovable path failure) :
    flat.Either path (.ofErrno Errno.noEntry path) (.ofErrno Errno.notPermitted path) failure := by
  cases hf with
  | missing hnone => exact .inl ⟨hnone, rfl⟩
  | directory hdirectory => exact .inr ⟨hdirectory.ne_none, rfl⟩
  | here hhere => exact .inr ⟨h.ne_none_of_namesHere hhere, rfl⟩

theorem either_of_rooted (hf : flat.Rooted path failure) :
    flat.Either path (.ofErrno Errno.noEntry path) (.ofErrno Errno.notPermitted path) failure := by
  cases hf with
  | missing hnone => exact .inl ⟨hnone, rfl⟩
  | root hroot => exact .inr ⟨hroot ▸ h.root.ne_none, rfl⟩
  | here hhere => exact .inr ⟨h.ne_none_of_namesHere hhere, rfl⟩

theorem uneditable_unique {rules : Rules} {e : Edit} (hf : flat.Uneditable rules path e failure)
    (hg : flat.Uneditable rules path e other) : failure = other := by
  cases hf with
  | missing hcreates hnone =>
    cases hg with
    | missing => rfl
    | directory hdirectory => exact absurd hnone hdirectory.ne_none
    | blocked hcreates' => rw [hcreates] at hcreates'; cases hcreates'
    | unspliced hfile | here hfile => rw [hnone] at hfile; cases hfile
  | directory hdirectory =>
    obtain ⟨mode, hentry⟩ := hdirectory
    cases hg with
    | missing _ hnone => rw [hnone] at hentry; cases hentry
    | directory => rfl
    | blocked _ hblocked => rw [h.tree.eq_none_of_blocked hblocked] at hentry; cases hentry
    | unspliced hfile => rw [hfile] at hentry; cases hentry
    | here => rfl
  | blocked hcreates hblocked =>
    have hnone := h.tree.eq_none_of_blocked hblocked
    cases hg with
    | missing hcreates' => rw [hcreates] at hcreates'; cases hcreates'
    | directory hdirectory => exact absurd hnone hdirectory.ne_none
    | blocked => rfl
    | unspliced hfile | here hfile => rw [hnone] at hfile; cases hfile
  | unspliced hfile hsplice =>
    cases hg with
    | missing _ hnone => rw [hnone] at hfile; cases hfile
    | directory hdirectory => obtain ⟨mode, hentry⟩ := hdirectory; rw [hfile] at hentry; cases hentry
    | blocked _ hblocked => rw [h.tree.eq_none_of_blocked hblocked] at hfile; cases hfile
    | unspliced hfile' hsplice' =>
      cases hfile.symm.trans hfile'
      cases hsplice.symm.trans hsplice'
      rfl
    | here hfile' hsplice' =>
      cases hfile.symm.trans hfile'
      cases hsplice.symm.trans hsplice'
  | here hfile hsplice =>
    cases hg with
    | missing _ hnone => rw [hnone] at hfile; cases hfile
    | directory => rfl
    | blocked _ hblocked => rw [h.tree.eq_none_of_blocked hblocked] at hfile; cases hfile
    | unspliced hfile' hsplice' =>
      cases hfile.symm.trans hfile'
      cases hsplice.symm.trans hsplice'
    | here => rfl

/-- **A move fails in at most one way.** -/
theorem refuses_unique {move : Move} (hf : flat.Refuses move failure) (hg : flat.Refuses move other) :
    failure = other := by
  cases move with
  | act rules action =>
    cases action with
    | touch path => exact (h.either_of_untouchable hf).unique (h.either_of_untouchable hg)
    | read path | readLines path => exact hf.either.unique hg.either
    | write path content => exact (h.either_of_unwritable hf).unique (h.either_of_unwritable hg)
    | copy source destination =>
      rcases hf with hf | ⟨hfile, hf⟩ <;> rcases hg with hg | ⟨hfile', hg⟩
      · exact hf.either.unique hg.either
      · exact absurd hfile' hf.not_isFile
      · exact absurd hfile hg.not_isFile
      · exact (h.either_of_unwritable hf).unique (h.either_of_unwritable hg)
    | makeDir path | makeParents path => exact (h.either_of_unmakable hf).unique (h.either_of_unmakable hg)
    | remove path => exact (h.either_of_unremovable hf).unique (h.either_of_unremovable hg)
    | removeTree path => exact (h.either_of_rooted hf).unique (h.either_of_rooted hg)
    | setMode path mode | mode path =>
      cases hf
      cases hg
      rfl
    | entries path => exact hf.either.unique hg.either
    | edit path e => exact h.uneditable_unique hf hg
    | workingDir | join tokens | expand path base | hasEntry path | isDir path | isExecutable path =>
      cases hf
  | enter path => exact hf.either.unique hg.either
  | leave => cases hf

end Proper

end Flat

end Linework
