import Linework.Proofs.Disk.Operations
import Linework.Proofs.Edit.Missing
import Linework.Proofs.Flat

/-!
# A disk behaves as a flat map below a base

On a disk without links and limits, and on paths of plain names below a base, an action does what the
flat map says and fails when the map refuses it, with a failure of the same kind
(`Shows.meets_perform`). The number behind a failure may be another one: what a host finds first is
not what the map looks at first. Nor are permissions compared.
-/

namespace Linework

namespace Failure

/-- Failures of one kind: of a storage both, or of one and the same missing target. -/
inductive Alike : Failure → Failure → Prop
  | storage {cause cause' : SystemFault} {path path' : Option Text} :
      Alike (.storage cause path) (.storage cause' path')
  | missingTarget {label path : Text} : Alike (.missingTarget label path) (.missingTarget label path)

theorem IsStorage.alike {failure other : Failure} (h : failure.IsStorage) (hother : other.IsStorage) :
    failure.Alike other := by
  obtain ⟨cause, path, rfl⟩ := h
  obtain ⟨cause', path', rfl⟩ := hother
  exact .storage

theorem isStorage_ofErrno (code : Errno) (path : Text) : (ofErrno code path).IsStorage := ⟨_, _, rfl⟩

end Failure

/-- A path below a base, made of names that every storage takes. -/
def Inside (base : List Text) (path : Text) : Prop :=
  ∃ route, Below base route ∧ (∀ s ∈ route, Path.Name s) ∧ path = Path.ofSegments route

theorem Inside.key {base : List Text} {path : Text} (h : Inside base path) (flat : Flat) :
    Below base (flat.key path) ∧ (∀ s ∈ flat.key path, Path.Name s) ∧ Path.ofSegments (flat.key path) = path := by
  obtain ⟨route, hroute, hnames, rfl⟩ := h
  rw [flat.key_ofSegments fun s hs => (hnames s hs).toPlain]
  exact ⟨hroute, hnames, rfl⟩

theorem Inside.key_ne_nil {base : List Text} {path : Text} (h : Inside base path) {flat : Flat} :
    flat.key path ≠ [] := by
  obtain ⟨hroute, -, -⟩ := h.key flat
  exact fun hnil => hroute.ne_above List.nil_prefix hnil.symm

theorem Inside.not_namesHere {base : List Text} {path : Text} (h : Inside base path) :
    ¬ Flat.NamesHere path := by
  obtain ⟨route, -, -, rfl⟩ := h
  rintro ⟨habs, -⟩
  cases habs

/-- What is asked of a storage that is to stand for another: nothing is written over a directory or
onto itself, no directory is copied, and what is written has no surrogates. -/
def Admits (base : List Text) (flat : Flat) : Action → Prop
  | .touch path | .read path | .readLines path | .makeDir path | .makeParents path | .remove path
  | .removeTree path | .entries path | .hasEntry path | .isDir path => Inside base path
  | .edit path e => Inside base path ∧ e.Scalar
  | .write path content => Inside base path ∧ ¬ flat.listing.IsDirectory (flat.key path) ∧ content.Scalar
  | .copy source destination =>
    Inside base source ∧ Inside base destination ∧ source ≠ destination ∧
      ¬ flat.listing.IsDirectory (flat.key source) ∧ ¬ flat.listing.IsDirectory (flat.key destination)
  | .workingDir | .join _ | .expand _ _ | .setMode _ _ | .mode _ | .isExecutable _ => False

/-- Files are read and written in UTF-8. -/
structure Rules.InUtf8 (rules : Rules) : Prop where
  files : NamesUtf8 rules.files.encoding
  edited : NamesUtf8 rules.edited.encoding

namespace Disk

open Op

/-- A result and the disk after it: a move fails like a failure that the map refuses it with,
or nothing refuses it and the disk shows what the move makes of the map. -/
def Meets (base : List Text) (flat : Flat) (move : Move) (result : Except Failure Answer) (after : Disk) :
    Prop :=
  match result with
  | .ok answer =>
    (∃ flat', flat.Acts move answer flat' ∧ Shows base flat'.listing after) ∧
      ∀ failure, ¬ flat.Refuses move failure
  | .error failure =>
    ∃ other, flat.Refuses move other ∧ other.Alike failure ∧ Shows base flat.listing after

variable {base : List Text} {flat : Flat} {d : Disk} {move : Move}

theorem ends_map_meets {α : Type} {op : Op Disk α} {f : α → Answer} {refused : Prop}
    {acts : α → Listing → Prop}
    (h : Ends op d (Follows base flat.listing refused acts))
    (hrefused : refused → ∃ other, flat.Refuses move other ∧ other.IsStorage)
    (hnever : ∀ failure, flat.Refuses move failure → refused)
    (hacts : ∀ value l', acts value l' → flat.Acts move (f value) (flat.holding l')) :
    Ends (op >>= fun value => pure (f value)) d (Meets base flat move) := by
  refine .map (h.mono fun result after hfollows => ?_)
  cases result with
  | ok value =>
    obtain ⟨hno, l', hvalue, hafter⟩ := hfollows
    exact ⟨⟨flat.holding l', hacts value l' hvalue, hafter⟩, fun failure hf => hno (hnever failure hf)⟩
  | error failure =>
    obtain ⟨hyes, hstorage, hafter⟩ := hfollows
    obtain ⟨other, hother, hother'⟩ := hrefused hyes
    exact ⟨other, hother, hother'.alike hstorage, hafter⟩

theorem exists_unreadable {path : Text} (hno : ¬ flat.listing.IsFile (flat.key path)) :
    ∃ failure, flat.Unreadable path failure ∧ failure.IsStorage := by
  rcases flat.listing.cases_entry (flat.key path) with hnone | hfile | hdirectory
  · exact ⟨_, .missing hnone, Failure.isStorage_ofErrno _ _⟩
  · exact absurd hfile hno
  · exact ⟨_, .directory hdirectory, Failure.isStorage_ofErrno _ _⟩

/-- Strictly below a base that the working directory is not strictly below, only a file in the way keeps
from writing what is no directory. -/
theorem blocked_of_unwritable (hhere : ¬ Below base flat.dir) {path : Text} (hpath : Inside base path)
    (hno : ¬ flat.listing.IsDirectory (flat.key path)) {failure : Failure} (hf : flat.Unwritable path failure) :
    flat.listing.Blocked (flat.key path) := by
  obtain ⟨hroute, -, -⟩ := hpath.key flat
  cases hf with
  | blocked hblocked => exact hblocked
  | root hroot => exact absurd hroot hpath.key_ne_nil
  | here heq => exact absurd (heq ▸ hroute) hhere
  | occupied hoccupied => exact absurd hoccupied.1 hno

section Actions

variable (h : Shows base flat.listing d) {rules : Rules} {path : Text}
include h

theorem Shows.meets_touch (hpath : Inside base path) :
    Ends ((Action.touch path).perform rules) d (Meets base flat (.act rules (.touch path))) := by
  obtain ⟨hroute, hnames, hkey⟩ := hpath.key flat
  have hends := h.ends_touch hroute hnames
  rw [hkey] at hends
  refine ends_map_meets hends ?_ (fun failure hf => ?_) ?_
  · rintro (hdirectory | hblocked)
    · exact ⟨_, .directory hdirectory, Failure.isStorage_ofErrno _ _⟩
    · exact ⟨_, .blocked hblocked, Failure.isStorage_ofErrno _ _⟩
  · cases hf with
    | directory hdirectory => exact .inl hdirectory
    | blocked hblocked => exact .inr hblocked
  · rintro - l' (⟨hfile, rfl⟩ | ⟨hnone, rfl⟩)
    · exact .touch_file hfile
    · exact .touch_new hnone

theorem Shows.meets_read (hpath : Inside base path) (hutf8 : rules.InUtf8) :
    Ends ((Action.read path).perform rules) d (Meets base flat (.act rules (.read path))) := by
  obtain ⟨hroute, hnames, hkey⟩ := hpath.key flat
  have hends := h.ends_read hroute.1 hnames hutf8.files
  rw [hkey] at hends
  refine ends_map_meets hends exists_unreadable (fun failure hf => hf.not_isFile) ?_
  rintro content l' ⟨rfl, mode, hfile⟩
  exact .read hfile

theorem Shows.meets_readLines (hpath : Inside base path) (hutf8 : rules.InUtf8) :
    Ends ((Action.readLines path).perform rules) d (Meets base flat (.act rules (.readLines path))) := by
  obtain ⟨hroute, hnames, hkey⟩ := hpath.key flat
  have hends := h.ends_read hroute.1 hnames hutf8.files
  rw [hkey] at hends
  have hlines : Ends (Storage.readLines rules.files path) d
      (Follows base flat.listing (¬ flat.listing.IsFile (flat.key path)) fun lines l' =>
        l' = flat.listing ∧ ∃ mode content, flat.listing (flat.key path) = some (.file mode content) ∧
          lines = Line.split rules.files.newline.text content) := by
    refine .map (hends.mono ?_)
    rintro (failure | content) after hfollows
    · exact hfollows
    · obtain ⟨hfile, l', ⟨rfl, mode, hcontent⟩, hafter⟩ := hfollows
      exact ⟨hfile, _, ⟨rfl, mode, content, hcontent, rfl⟩, hafter⟩
  refine ends_map_meets hlines exists_unreadable (fun failure hf => hf.not_isFile) ?_
  rintro - l' ⟨rfl, mode, content, hfile, rfl⟩
  exact .readLines hfile

theorem Shows.meets_write (hhere : ¬ Below base flat.dir) (hpath : Inside base path)
    (hno : ¬ flat.listing.IsDirectory (flat.key path)) (hutf8 : rules.InUtf8) {content : Text}
    (hcontent : content.Scalar) :
    Ends ((Action.write path content).perform rules) d (Meets base flat (.act rules (.write path content))) := by
  obtain ⟨hroute, hnames, hkey⟩ := hpath.key flat
  have hends := h.ends_write hroute hnames hno hutf8.files hcontent
  rw [hkey] at hends
  refine ends_map_meets hends (fun hblocked => ?_) (fun failure hf => ?_) ?_
  · exact ⟨_, .blocked hblocked, Failure.isStorage_ofErrno _ _⟩
  · exact blocked_of_unwritable hhere hpath hno hf
  · rintro - l' rfl
    exact .write

theorem Shows.meets_copy (hhere : ¬ Below base flat.dir) {source destination : Text}
    (hsource : Inside base source)
    (hdestination : Inside base destination) (hne : source ≠ destination)
    (hfile : ¬ flat.listing.IsDirectory (flat.key source))
    (hno : ¬ flat.listing.IsDirectory (flat.key destination)) :
    Ends ((Action.copy source destination).perform rules) d
      (Meets base flat (.act rules (.copy source destination))) := by
  obtain ⟨hfrom, hsources, hkey⟩ := hsource.key flat
  obtain ⟨hroute, hnames, hkey'⟩ := hdestination.key flat
  have hkeys : flat.key source ≠ flat.key destination := by
    intro heq
    rw [heq, hkey'] at hkey
    exact hne hkey.symm
  have hends := h.ends_copy hroute hnames hfrom.1 hsources hfile hkeys hno
  rw [hkey, hkey'] at hends
  have hthere : flat.listing (flat.key source) ≠ none → flat.listing.IsFile (flat.key source) := fun hsome =>
    ((flat.listing.cases_entry _).resolve_left hsome).resolve_right hfile
  refine ends_map_meets hends (fun hrefused => ?_) (fun failure hf => ?_) ?_
  · by_cases hnone : flat.listing (flat.key source) = none
    · exact ⟨_, .inl (.missing hnone), Failure.isStorage_ofErrno _ _⟩
    · exact ⟨_, .inr ⟨hthere hnone, .blocked (hrefused.resolve_left hnone)⟩, Failure.isStorage_ofErrno _ _⟩
  · rcases hf with hf | ⟨-, hf⟩
    · cases hf with
      | missing hnone => exact .inl hnone
      | directory hdirectory => exact absurd hdirectory hfile
    · exact .inr (blocked_of_unwritable hhere hdestination hno hf)
  · rintro - l' ⟨bits, content, hcontent, rfl⟩
    exact .copy hcontent

/-- A directory is made anywhere below the base, or at it. -/
theorem Shows.ends_makeDir_meets (hbase : base <+: flat.key path)
    (hnames : ∀ s ∈ flat.key path, Path.Name s)
    (hkey : Path.ofSegments (flat.key path) = path)
    (hrefuses : ∀ failure, flat.Refuses move failure ↔ flat.Unmakable path failure)
    (hacts : flat.Acts move .nothing (flat.holding (flat.listing.withDirectories (flat.key path)))) :
    Ends (Action.silently (makeDir path)) d (Meets base flat move) := by
  have hends := h.ends_makeDir hbase hnames
  rw [hkey] at hends
  refine ends_map_meets hends ?_ (fun failure hf => ?_) ?_
  · rintro (hblocked | hfile)
    · exact ⟨_, (hrefuses _).2 (.blocked hblocked), Failure.isStorage_ofErrno _ _⟩
    · exact ⟨_, (hrefuses _).2 (.file hfile), Failure.isStorage_ofErrno _ _⟩
  · cases (hrefuses failure).1 hf with
    | blocked hblocked => exact .inl hblocked
    | file hfile => exact .inr hfile
  · rintro - l' rfl
    exact hacts

theorem Shows.meets_makeDir (hpath : Inside base path) :
    Ends ((Action.makeDir path).perform rules) d (Meets base flat (.act rules (.makeDir path))) := by
  obtain ⟨hroute, hnames, hkey⟩ := hpath.key flat
  exact h.ends_makeDir_meets hroute.1 hnames hkey (fun _ => Iff.rfl) .makeDir

theorem Shows.meets_makeParents (hpath : Inside base path) :
    Ends ((Action.makeParents path).perform rules) d (Meets base flat (.act rules (.makeParents path))) := by
  obtain ⟨route, hroute, hnames, rfl⟩ := hpath
  obtain ⟨front, name, rfl, hbase⟩ := hroute.exists_concat
  have hnames' : ∀ s ∈ front, Path.Name s := fun s hs => hnames s (List.mem_append_left _ hs)
  have hparent : Path.parent (Path.ofSegments (front ++ [name])) = Path.ofSegments front := by
    rw [Path.parent_ofSegments fun s hs => (hnames s hs).toPlain, List.dropLast_concat]
  have hkey : flat.key (Path.parent (Path.ofSegments (front ++ [name]))) = front := by
    rw [hparent, flat.key_ofSegments fun s hs => (hnames' s hs).toPlain]
  refine h.ends_makeDir_meets ?_ ?_ ?_ (fun _ => Iff.rfl) .makeParents
  · rwa [hkey]
  · rwa [hkey]
  · rw [hkey, hparent]

theorem Shows.meets_remove (hpath : Inside base path) :
    Ends ((Action.remove path).perform rules) d (Meets base flat (.act rules (.remove path))) := by
  obtain ⟨hroute, hnames, hkey⟩ := hpath.key flat
  have hends := h.ends_remove hroute hnames
  rw [hkey] at hends
  refine ends_map_meets hends (fun hno => ?_) (fun failure hf => ?_) ?_
  · rcases flat.listing.cases_entry (flat.key path) with hnone | hfile | hdirectory
    · exact ⟨_, .missing hnone, Failure.isStorage_ofErrno _ _⟩
    · exact absurd hfile hno
    · exact ⟨_, .directory hdirectory, Failure.isStorage_ofErrno _ _⟩
  · cases hf with
    | missing hnone => exact fun hfile => hfile.ne_none hnone
    | directory hdirectory => exact fun hfile => hfile.not_isDirectory hdirectory
    | here hhere => exact absurd hhere (hpath.not_namesHere)
  · rintro - l' ⟨hfile, rfl⟩
    exact .remove hfile

theorem Shows.meets_removeTree (hpath : Inside base path) :
    Ends ((Action.removeTree path).perform rules) d (Meets base flat (.act rules (.removeTree path))) := by
  obtain ⟨hroute, hnames, hkey⟩ := hpath.key flat
  have hends := h.ends_removeTree hroute hnames
  rw [hkey] at hends
  refine ends_map_meets hends (fun hnone => ?_) (fun failure hf => ?_) ?_
  · exact ⟨_, .missing hnone, Failure.isStorage_ofErrno _ _⟩
  · cases hf with
    | missing hnone => exact hnone
    | root hroot => exact absurd hroot hpath.key_ne_nil
    | here hhere => exact absurd hhere hpath.not_namesHere
  · rintro - l' rfl
    exact .removeTree

theorem Shows.meets_entries (hpath : Inside base path) :
    Ends ((Action.entries path).perform rules) d (Meets base flat (.act rules (.entries path))) := by
  obtain ⟨hroute, hnames, hkey⟩ := hpath.key flat
  have hends := h.ends_entries hroute.1 hnames
  rw [hkey] at hends
  refine ends_map_meets hends (fun hno => ?_) (fun failure hf => ?_) ?_
  · rcases flat.listing.cases_entry (flat.key path) with hnone | hfile | hdirectory
    · exact ⟨_, .missing hnone, Failure.isStorage_ofErrno _ _⟩
    · exact ⟨_, .file hfile, Failure.isStorage_ofErrno _ _⟩
    · exact absurd hdirectory hno
  · cases hf with
    | missing hnone => exact fun hdirectory => hdirectory.ne_none hnone
    | file hfile => exact hfile.not_isDirectory
  · rintro names l' ⟨rfl, hsorted, hmem⟩
    exact .entries hsorted hmem

theorem Shows.meets_hasEntry (hpath : Inside base path) :
    Ends ((Action.hasEntry path).perform rules) d (Meets base flat (.act rules (.hasEntry path))) := by
  obtain ⟨hroute, hnames, hkey⟩ := hpath.key flat
  have hends := fun Q => h.ends_hasEntry (Q := Q) hroute.1 hnames
  simp only [hkey] at hends
  exact .map (hends _ fun found hfound => ⟨⟨flat, .hasEntry hfound, h⟩, fun _ => id⟩)

theorem Shows.meets_isDir (hpath : Inside base path) :
    Ends ((Action.isDir path).perform rules) d (Meets base flat (.act rules (.isDir path))) := by
  obtain ⟨hroute, hnames, hkey⟩ := hpath.key flat
  have hends := fun Q => h.ends_isDir (Q := Q) hroute.1 hnames
  simp only [hkey] at hends
  exact .map (hends _ fun found hfound => ⟨⟨flat, .isDir hfound, h⟩, fun _ => id⟩)

/-- An edit of a file that is there. -/
theorem Shows.meets_rewrite (hhere : flat.key path ≠ flat.dir) (hroute : Below base (flat.key path))
    (hnames : ∀ s ∈ flat.key path, Path.Name s) (hkey : Path.ofSegments (flat.key path) = path)
    (hutf8 : rules.InUtf8) {e : Edit} (hscalar : e.Scalar) (hfile : flat.listing.IsFile (flat.key path)) :
    Ends (Storage.rewrite rules.edited rules.lines path e) d fun result after =>
      Meets base flat (.act rules (.edit path e)) (result.map fun _ => .nothing) after := by
  have hends := fun Q => h.ends_rewrite (Q := Q) hroute hnames hutf8.edited rules.lines hscalar
  rw [hkey] at hends
  refine hends _ (fun failure after hno _ _ => absurd hfile hno) ?_ ?_
  · intro bits old failure after hold hsplice hafter
    obtain ⟨target, -, rfl⟩ := Edit.missing_of_splice hsplice
    exact ⟨_, .unspliced hold hsplice, .missingTarget, hafter⟩
  · intro bits old splice after hold hsplice hafter
    refine ⟨⟨_, .edit hold hsplice, hafter⟩, fun failure => ?_⟩
    exact Flat.not_uneditable_of_spliced h.tree hold hsplice hhere

/-- An edit that creates touches the file first, and edits what is there then. -/
theorem Shows.meets_edit (hhere : ¬ Below base flat.dir) (hpath : Inside base path) (hutf8 : rules.InUtf8)
    {e : Edit} (hscalar : e.Scalar) :
    Ends ((Action.edit path e).perform rules) d (Meets base flat (.act rules (.edit path e))) := by
  obtain ⟨hroute, hnames, hkey⟩ := hpath.key flat
  have hhere : flat.key path ≠ flat.dir := fun heq => hhere (heq ▸ hroute)
  refine .map ?_
  rw [Storage.edit_eq]
  split
  · rename_i hcreates
    have htouch := h.ends_touch hroute hnames
    rw [hkey] at htouch
    refine .bind (htouch.mono ?_)
    rintro (failure | _) after hfollows
    · obtain ⟨hrefused, hstorage, hafter⟩ := hfollows
      rcases hrefused with hdirectory | hblocked
      · exact ⟨_, .directory hdirectory, (Failure.isStorage_ofErrno _ _).alike hstorage, hafter⟩
      · exact ⟨_, .blocked hcreates hblocked, (Failure.isStorage_ofErrno _ _).alike hstorage, hafter⟩
    · obtain ⟨hno, l', (⟨hfile, rfl⟩ | ⟨hnone, rfl⟩), hafter⟩ := hfollows
      · exact hafter.meets_rewrite hhere hroute hnames hkey hutf8 hscalar hfile
      · have hends := fun Q => hafter.ends_rewrite (Q := Q) hroute hnames hutf8.edited rules.lines hscalar
        rw [hkey] at hends
        have hempty : flat.listing.write (flat.key path) [] (flat.key path) = some (.file Node.fileMode []) := by
          rw [Listing.write, Listing.put, if_pos rfl]
        rw [andThen_ok]
        refine hends _ (fun failure last hnever _ _ => absurd ⟨_, _, hempty⟩ hnever) ?_ ?_
        · intro bits old failure last _ hsplice _
          obtain ⟨splice, hfound⟩ := Edit.splice_of_creates hcreates rules.lines path
            (Line.split rules.edited.newline.text old)
          rw [hfound] at hsplice
          cases hsplice
        · intro bits old splice last hold hsplice hlast
          cases hempty.symm.trans hold
          rw [Line.split_nil] at hsplice hlast
          rw [Listing.write_write] at hlast
          exact ⟨⟨_, .edit_new hcreates hnone hsplice, hlast⟩, fun failure =>
            Flat.not_uneditable_of_created hcreates hnone fun hblocked => hno (.inr hblocked)⟩
  · rename_i hcreates
    have hcreates : e.creates = false := by simpa using hcreates
    by_cases hfile : flat.listing.IsFile (flat.key path)
    · exact h.meets_rewrite hhere hroute hnames hkey hutf8 hscalar hfile
    · obtain ⟨other, hother, hstorage'⟩ : ∃ other, flat.Uneditable rules path e other ∧ other.IsStorage := by
        rcases flat.listing.cases_entry (flat.key path) with hnone | hyes | hdirectory
        · exact ⟨_, .missing hcreates hnone, Failure.isStorage_ofErrno _ _⟩
        · exact absurd hyes hfile
        · exact ⟨_, .directory hdirectory, Failure.isStorage_ofErrno _ _⟩
      have hends := fun Q => h.ends_rewrite (Q := Q) hroute hnames hutf8.edited rules.lines hscalar
      rw [hkey] at hends
      exact hends _ (fun failure after _ hstorage hafter => ⟨other, hother, hstorage'.alike hstorage, hafter⟩)
        (fun bits old _ _ hold => absurd ⟨bits, old, hold⟩ hfile)
        fun bits old _ _ hold => absurd ⟨bits, old, hold⟩ hfile

/-- **An action on a disk below a base** does what the flat map says, or fails as one that the map
refuses. -/
theorem Shows.meets_perform (hhere : ¬ Below base flat.dir) (hutf8 : rules.InUtf8) {action : Action}
    (hadmits : Admits base flat action) : Ends (action.perform rules) d (Meets base flat (.act rules action)) := by
  cases action with
  | touch path => exact h.meets_touch hadmits
  | read path => exact h.meets_read hadmits hutf8
  | readLines path => exact h.meets_readLines hadmits hutf8
  | write path content => exact h.meets_write hhere hadmits.1 hadmits.2.1 hutf8 hadmits.2.2
  | copy source destination =>
    obtain ⟨hsource, hdestination, hne, hfile, hno⟩ := hadmits
    exact h.meets_copy hhere hsource hdestination hne hfile hno
  | makeDir path => exact h.meets_makeDir hadmits
  | makeParents path => exact h.meets_makeParents hadmits
  | remove path => exact h.meets_remove hadmits
  | removeTree path => exact h.meets_removeTree hadmits
  | entries path => exact h.meets_entries hadmits
  | hasEntry path => exact h.meets_hasEntry hadmits
  | isDir path => exact h.meets_isDir hadmits
  | edit path e => exact h.meets_edit hhere hadmits.1 hutf8 hadmits.2
  | workingDir | join tokens | expand path base | setMode path mode | mode path | isExecutable path => cases hadmits

end Actions

end Disk

end Linework
