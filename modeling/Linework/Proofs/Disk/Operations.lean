import Linework.Proofs.Disk.Request
import Linework.Proofs.Disk.Shows
import Linework.Proofs.Edit.Splice
import Linework.Proofs.Text.Encoded
import Mathlib.Data.List.Induction

/-!
# What the operations of a disk end in

One rule for each operation on paths below a base, in terms of the listing that the disk shows: when
it fails, and what the disk shows afterwards. An operation is made of several requests, and nothing
is left behind when it fails: parents are created only on a way that no file stops, and once they are
there nothing else can go wrong.
-/

namespace Linework

namespace Disk

open Op

variable {base route : List Text} {l : Listing} {d : Disk}

/-- A result and the disk after it: the operation is refused and the disk shows what it showed, or it
is not and the disk shows what the operation makes of the listing. -/
def Follows {α : Type} (base : List Text) (l : Listing) (refused : Prop) (acts : α → Listing → Prop)
    (result : Except Failure α) (after : Disk) : Prop :=
  match result with
  | .ok value => ¬ refused ∧ ∃ l', acts value l' ∧ Shows base l' after
  | .error failure => refused ∧ failure.IsStorage ∧ Shows base l after

/-- What nothing refuses is done. -/
theorem Follows.done {α : Type} {refused : Prop} {acts : α → Listing → Prop} {result : Except Failure α}
    {after : Disk} (h : Follows base l refused acts result after) (hno : ¬ refused) :
    ∃ value l', result = .ok value ∧ acts value l' ∧ Shows base l' after := by
  cases result with
  | ok value =>
    obtain ⟨-, l', hacts, hshows⟩ := h
    exact ⟨value, l', rfl, hacts, hshows⟩
  | error failure => exact absurd h.1 hno

section Requests

variable (h : Shows base l d) (hbase : base <+: route) (hnames : ∀ s ∈ route, Path.Name s)
include h hbase hnames

theorem Shows.lookUp : ∃ found, d.lookUp (Path.ofSegments route) = .ok found ∧
    (found.isSome = true ↔ l route ≠ none) := by
  have hleads := h.resolve hbase hnames true
  unfold Disk.lookUp
  generalize d.resolve true (Path.ofSegments route) = result at hleads
  cases hleads with
  | directory mode hdirectory => exact ⟨_, rfl, by simp [Found.item?, hdirectory.ne_none]⟩
  | file mode hfile => exact ⟨_, rfl, by simp [Found.item?, hfile]⟩
  | free hnone | blocked hnone | absent hnone => exact ⟨none, rfl, by simp [hnone]⟩

theorem Shows.leadsToDirectory : ∃ found, d.leadsToDirectory (Path.ofSegments route) = .ok found ∧
    (found = true ↔ l.IsDirectory route) := by
  have hleads := h.resolve hbase hnames true
  unfold Disk.leadsToDirectory
  generalize d.resolve true (Path.ofSegments route) = result at hleads
  cases hleads with
  | directory mode hdirectory => exact ⟨true, rfl, fun _ => hdirectory, fun _ => rfl⟩
  | file mode hfile =>
    exact ⟨false, rfl, nofun, fun hdirectory => absurd hdirectory (Listing.IsFile.not_isDirectory ⟨_, _, hfile⟩)⟩
  | free hnone | blocked hnone | absent hnone =>
    exact ⟨false, rfl, nofun, fun hdirectory => absurd hnone hdirectory.ne_none⟩

theorem Shows.locate_none (hnone : l route = none) :
    ∃ code, d.locate (Path.ofSegments route) = .error code := by
  have hleads := h.resolve hbase hnames true
  unfold locate
  generalize d.resolve true (Path.ofSegments route) = result at hleads
  cases hleads with
  | directory mode hdirectory => exact absurd hnone hdirectory.ne_none
  | file mode hfile =>
    rw [hnone] at hfile
    cases hfile
  | free | blocked | absent => exact ⟨_, rfl⟩

theorem Shows.locate_directory (hdirectory : l.IsDirectory route) :
    ∃ mode, d.locate (Path.ofSegments route) = .ok (.entry route (.directory mode)) := by
  obtain ⟨mode, hresolve⟩ := resolve_open h.unlimited hnames (h.isOpen hbase hdirectory) true
  refine ⟨mode, ?_⟩
  rw [locate, hresolve]
  rfl

theorem Shows.locate_file {bits : Int} {content : Text} (hfile : l route = some (.file bits content)) :
    ∃ mode bytes, Encoding.utf8.encode content = .ok bytes ∧
      d.locate (Path.ofSegments route) = .ok (.entry route (.file mode bytes)) := by
  have hleads := h.resolve hbase hnames true
  have hsome : l route ≠ none := by simp [hfile]
  unfold locate
  generalize d.resolve true (Path.ofSegments route) = result at hleads
  cases hleads with
  | directory mode hdirectory => exact absurd hdirectory (Listing.IsFile.not_isDirectory ⟨_, _, hfile⟩)
  | file mode hfile' hbytes =>
    rw [hfile] at hfile'
    cases hfile'
    exact ⟨mode, _, hbytes, rfl⟩
  | free hnone | blocked hnone | absent hnone => exact absurd hnone hsome

theorem Shows.readBytes {bits : Int} {content : Text} (hfile : l route = some (.file bits content)) :
    ∃ bytes, Encoding.utf8.encode content = .ok bytes ∧ d.readBytes (Path.ofSegments route) = .ok bytes := by
  obtain ⟨mode, bytes, hbytes, hlocate⟩ := h.locate_file hbase hnames hfile
  exact ⟨bytes, hbytes, by rw [Disk.readBytes, hlocate]; rfl⟩

theorem Shows.readBytes_refused (hno : ¬ l.IsFile route) :
    ∃ code, d.readBytes (Path.ofSegments route) = .error code := by
  unfold Disk.readBytes
  rcases l.cases_entry route with hnone | hfile | hdirectory
  · obtain ⟨code, hlocate⟩ := h.locate_none hbase hnames hnone
    exact ⟨code, by rw [hlocate]; rfl⟩
  · exact absurd hfile hno
  · obtain ⟨mode, hlocate⟩ := h.locate_directory hbase hnames hdirectory
    exact ⟨_, by rw [hlocate]; rfl⟩

theorem Shows.unlink (hfile : l.IsFile route) : d.unlink (Path.ofSegments route) = .ok (d.erase route) := by
  have hleads := h.resolve hbase hnames false
  unfold Disk.unlink
  generalize d.resolve false (Path.ofSegments route) = result at hleads
  cases hleads with
  | directory mode hdirectory => exact absurd hdirectory hfile.not_isDirectory
  | file => rfl
  | free hnone | blocked hnone | absent hnone => exact absurd hnone hfile.ne_none

theorem Shows.unlink_refused (hno : ¬ l.IsFile route) :
    ∃ code, d.unlink (Path.ofSegments route) = .error code := by
  have hleads := h.resolve hbase hnames false
  unfold Disk.unlink
  generalize d.resolve false (Path.ofSegments route) = result at hleads
  cases hleads with
  | file mode hfile => exact absurd ⟨_, _, hfile⟩ hno
  | directory | free | blocked | absent => exact ⟨_, rfl⟩

theorem Shows.list (hdirectory : l.IsDirectory route) :
    ∃ names, d.list (Path.ofSegments route) = .ok names ∧
    names.Pairwise (· < ·) ∧ ∀ name, name ∈ names ↔ l (route ++ [name]) ≠ none := by
  obtain ⟨mode, hlocate⟩ := h.locate_directory hbase hnames hdirectory
  refine ⟨Text.sorted (d.names route), ?_, ?_, fun name => ?_⟩
  · rw [Disk.list, hlocate]
    rfl
  · obtain ⟨rest, rfl⟩ := hbase
    exact Text.pairwise_sorted_of_nodup (h.distinct rest)
  · rw [Text.sorted, List.mem_mergeSort, mem_names_iff, Ne,
      h.find?_eq_none_iff (hbase.trans (List.prefix_append _ _))]

theorem Shows.list_refused (hno : ¬ l.IsDirectory route) :
    ∃ code, d.list (Path.ofSegments route) = .error code := by
  unfold Disk.list
  rcases l.cases_entry route with hnone | ⟨bits, content, hfile⟩ | hdirectory
  · obtain ⟨code, hlocate⟩ := h.locate_none hbase hnames hnone
    exact ⟨code, by rw [hlocate]; rfl⟩
  · obtain ⟨mode, bytes, -, hlocate⟩ := h.locate_file hbase hnames hfile
    exact ⟨_, by rw [hlocate]; rfl⟩
  · exact absurd hdirectory hno

end Requests

/-! ## Directories -/

/-- A directory is made at a free name in one. -/
theorem Shows.makeDirectory {front : List Text} {name : Text} (h : Shows base l d) (hbase : base <+: front)
    (hnames : ∀ s ∈ front ++ [name], Path.Name s) (hfront : l.IsDirectory front)
    (hnone : l (front ++ [name]) = none) :
    ∃ made, d.makeDirectory (Path.ofSegments (front ++ [name])) = .ok made ∧
      Shows base (l.withDirectories (front ++ [name])) made := by
  have hresolve := resolve_missing h.unlimited hnames (h.isOpen hbase hfront)
    ((h.find?_eq_none_iff (hbase.trans (List.prefix_append _ _))).2 hnone) false
  rw [if_pos rfl] at hresolve
  refine ⟨_, by rw [makeDirectory_eq, hresolve], ?_⟩
  rw [h.tree.withDirectories_of_free hfront hnone]
  exact h.put hbase hfront (fun next => h.tree.eq_none_below hnone [next]) (.directory _ _)

/-- A free name below the base is in a directory below it. -/
theorem Shows.prefix_of_concat {front : List Text} {name : Text} (h : Shows base l d)
    (hbase : base <+: front ++ [name]) (hnone : l (front ++ [name]) = none) : base <+: front :=
  (List.prefix_concat_iff.1 hbase).resolve_left fun heq => h.top.ne_none (heq ▸ hnone)

/-- A directory is made where one is missing in a directory, and the host has nothing against a route
but what is there already or a directory that is missing above. -/
theorem Shows.makeDirectory_cases {front : List Text} {name : Text} (h : Shows base l d)
    (hbase : base <+: front ++ [name]) (hnames : ∀ s ∈ front ++ [name], Path.Name s) :
    (∃ made, d.makeDirectory (Path.ofSegments (front ++ [name])) = .ok made ∧
      ¬ (l.Blocked (front ++ [name]) ∨ l.IsFile (front ++ [name])) ∧
      Shows base (l.withDirectories (front ++ [name])) made) ∨
    (∃ code, d.makeDirectory (Path.ofSegments (front ++ [name])) = .error code ∧ code ≠ Errno.noEntry ∧
      (l.IsDirectory (front ++ [name]) ∨ l.Blocked (front ++ [name]) ∨ l.IsFile (front ++ [name]))) ∨
    (d.makeDirectory (Path.ofSegments (front ++ [name])) = .error Errno.noEntry ∧
      l (front ++ [name]) = none ∧ ¬ l.Blocked (front ++ [name])) := by
  have hmade := makeDirectory_eq d (Path.ofSegments (front ++ [name]))
  have hleads := h.resolve hbase hnames false
  generalize d.resolve false (Path.ofSegments (front ++ [name])) = result at hmade hleads
  cases hleads with
  | directory mode hdirectory => exact .inr (.inl ⟨_, hmade, by decide, .inl hdirectory⟩)
  | file mode hfile => exact .inr (.inl ⟨_, hmade, by decide, .inr (.inr ⟨_, _, hfile⟩)⟩)
  | free hnone hroute hfront =>
    obtain ⟨rfl, -⟩ := List.append_inj' hroute rfl
    obtain ⟨made, hmake, hshows⟩ := h.makeDirectory (h.prefix_of_concat hbase hnone) hnames hfront hnone
    refine .inl ⟨made, hmake, ?_, hshows⟩
    rintro (hblocked | hfile)
    · exact h.tree.not_blocked_of_free hfront hnone [] (by rwa [List.append_nil])
    · exact hfile.ne_none hnone
  | blocked hnone hblocked => exact .inr (.inl ⟨_, hmade, by decide, .inr (.inl hblocked)⟩)
  | absent hnone _ _ hopen => exact .inr (.inr ⟨hmade, hnone, hopen⟩)

/-- A directory that is there already is as good as made; anything else in its place is in the way. -/
theorem Shows.ends_settle (h : Shows base l d) (hbase : base <+: route) (hnames : ∀ s ∈ route, Path.Name s)
    (code : Errno) (hthere : l.IsDirectory route ∨ l.Blocked route ∨ l.IsFile route) :
    Ends (settle (Path.ofSegments route) code) d
      (Follows base l (l.Blocked route ∨ l.IsFile route) fun _ l' => l' = l.withDirectories route) := by
  obtain ⟨found, hfound, hiff⟩ := h.leadsToDirectory hbase hnames
  unfold settle
  refine .bind (ends_answer hfound ?_)
  rw [andThen_ok]
  by_cases hdirectory : l.IsDirectory route
  · obtain rfl : found = true := hiff.2 hdirectory
    refine ends_pure.2 ⟨?_, l, (h.tree.withDirectories_of_isDirectory hdirectory).symm, h⟩
    rintro (hblocked | hfile)
    · exact h.tree.not_blocked hdirectory.ne_none hblocked
    · exact hfile.not_isDirectory hdirectory
  · obtain rfl : found = false := by simpa [hdirectory] using hiff
    show Ends (answer (Path.ofSegments route) fun _ => .error code) d _
    exact ends_answer_refused rfl ⟨hthere.resolve_left hdirectory, ⟨_, _, rfl⟩, h⟩

/-- Making a directory and those above it. -/
theorem Shows.ends_makeAll (h : Shows base l d) (hbase : base <+: route)
    (hnames : ∀ s ∈ route, Path.Name s) :
    Ends (makeAll ['/'] route.reverse) d
      (Follows base l (l.Blocked route ∨ l.IsFile route) fun _ l' => l' = l.withDirectories route) := by
  induction route using List.reverseRecOn with
  | nil =>
    have hroot : l.IsDirectory [] := List.prefix_nil.1 hbase ▸ h.top
    refine ends_pure.2 ⟨?_, l, (h.tree.withDirectories_of_isDirectory hroot).symm, h⟩
    rintro (hblocked | hfile)
    · exact Listing.not_blocked_nil hblocked
    · exact hfile.not_isDirectory hroot
  | append_singleton front name ih =>
    have hpath : (HostPath.mk ['/'] (name :: front.reverse).reverse).text = Path.ofSegments (front ++ [name]) := by
      rw [List.reverse_cons, List.reverse_reverse, Path.text_hostPath]
    rw [List.reverse_concat, makeAll, hpath]
    refine .get ?_
    rcases h.makeDirectory_cases hbase hnames with
      ⟨made, hmade, hno, hshows⟩ | ⟨code, hmade, hcode, hthere⟩ | ⟨hmade, hnone, hopen⟩
    · rw [hmade]
      exact ends_setStore.2 ⟨hno, _, rfl, hshows⟩
    · rw [hmade]
      dsimp only
      rw [if_neg hcode]
      exact h.ends_settle hbase hnames code hthere
    · rw [hmade]
      dsimp only
      rw [if_pos rfl]
      -- the directories above come first; whatever is in their way is in the way of the route
      have hbase := h.prefix_of_concat hbase hnone
      refine .bind ((ih hbase fun s hs => hnames s (List.mem_append_left _ hs)).mono ?_)
      rintro (failure | _) after hfollows
      · exact absurd (Listing.blocked_concat.2 hfollows.1) hopen
      · obtain ⟨hno, l', rfl, hafter⟩ := hfollows
        have hfront := Listing.isDirectory_withDirectories fun hfile => hno (.inr hfile)
        have hfree := (Listing.withDirectories_below l front name).trans hnone
        obtain ⟨made, hmake, hshows⟩ := hafter.makeDirectory hbase hnames hfront hfree
        refine .get ?_
        rw [hmake]
        rw [Listing.withDirectories_concat] at hshows
        refine ends_setStore.2 ⟨?_, _, rfl, hshows⟩
        rintro (hblocked | hfile)
        · exact hopen hblocked
        · exact hfile.ne_none hnone

theorem ends_hostPath {Q : Except Failure Text → Disk → Prop} (hnames : ∀ s ∈ route, Path.Name s)
    (h : Q (.ok (Path.ofSegments route)) d) : Ends (hostPath (Path.ofSegments route)) d Q := by
  unfold hostPath
  rw [Path.collapse_ofSegments fun s hs => (hnames s hs).toPlain]
  exact .bind (ends_usable (Path.takes_ofSegments hnames) (ends_pure.2 h))

theorem Shows.ends_makeDir (h : Shows base l d) (hbase : base <+: route)
    (hnames : ∀ s ∈ route, Path.Name s) :
    Ends (makeDir (Path.ofSegments route)) d
      (Follows base l (l.Blocked route ∨ l.IsFile route) fun _ l' => l' = l.withDirectories route) := by
  unfold makeDir
  rw [Path.collapse_ofSegments fun s hs => (hnames s hs).toPlain]
  refine .bind (ends_usable (Path.takes_ofSegments hnames) ?_)
  rw [andThen_ok, Path.ofText_ofSegments fun s hs => (hnames s hs).toPlain]
  exact h.ends_makeAll hbase hnames

/-! ## Questions -/

theorem Shows.ends_codecOf (h : Shows base l d) {encoding : Text} (hutf8 : NamesUtf8 encoding)
    {Q : Except Failure Codec → Disk → Prop} (hcodec : Q (.ok Encoding.utf8.codec) d) : Ends (codecOf encoding) d Q := by
  unfold codecOf
  refine .get ?_
  rw [h.utf8 encoding hutf8.1]
  exact ends_pure.2 hcodec

section Questions

variable (h : Shows base l d) (hbase : base <+: route) (hnames : ∀ s ∈ route, Path.Name s)
include h hbase hnames

theorem Shows.ends_isDir {Q : Except Failure Bool → Disk → Prop}
    (answered : ∀ found, (found = true ↔ l.IsDirectory route) → Q (.ok found) d) :
    Ends (isDir (Path.ofSegments route)) d Q := by
  obtain ⟨found, hfound, hiff⟩ := h.leadsToDirectory hbase hnames
  unfold isDir
  rw [Path.collapse_ofSegments fun s hs => (hnames s hs).toPlain]
  dsimp only
  rw [if_neg (not_not.2 (Path.takes_ofSegments hnames))]
  exact ends_query hfound (answered found hiff)

theorem Shows.ends_hasEntry {Q : Except Failure Bool → Disk → Prop}
    (answered : ∀ found, (found = true ↔ l route ≠ none) → Q (.ok found) d) :
    Ends (hasEntry (Path.ofSegments route)) d Q := by
  obtain ⟨found, hfound, hiff⟩ := h.lookUp hbase hnames
  unfold hasEntry
  rw [Path.collapse_ofSegments fun s hs => (hnames s hs).toPlain]
  dsimp only
  rw [if_neg (not_not.2 (Path.takes_ofSegments hnames))]
  exact .bind (ends_query hfound (ends_pure.2 (answered found.isSome hiff)))

theorem Shows.ends_entries :
    Ends (Storage.entries (Path.ofSegments route)) d
      (Follows base l (¬ l.IsDirectory route) fun names l' =>
        l' = l ∧ names.Pairwise (· < ·) ∧ ∀ name, name ∈ names ↔ l (route ++ [name]) ≠ none) := by
  refine .bind (ends_usable (Path.takes_ofSegments hnames) ?_)
  rw [andThen_ok]
  by_cases hdirectory : l.IsDirectory route
  · obtain ⟨names, hlist, hsorted, hmem⟩ := h.list hbase hnames hdirectory
    exact ends_answer hlist ⟨not_not.2 hdirectory, l, ⟨rfl, hsorted, hmem⟩, h⟩
  · obtain ⟨code, hlist⟩ := h.list_refused hbase hnames hdirectory
    exact ends_answer_refused hlist ⟨hdirectory, ⟨_, _, rfl⟩, h⟩

theorem Shows.ends_read {encoding : Text} (hutf8 : NamesUtf8 encoding) :
    Ends (read encoding (Path.ofSegments route)) d
      (Follows base l (¬ l.IsFile route) fun content l' =>
        l' = l ∧ ∃ mode, l route = some (.file mode content)) := by
  unfold read
  refine .bind (ends_refuse hutf8.2 (.bind (ends_hostPath hnames ?_)))
  rw [andThen_ok]
  by_cases hfile : l.IsFile route
  · obtain ⟨mode, content, hcontent⟩ := id hfile
    obtain ⟨bytes, hbytes, hread⟩ := h.readBytes hbase hnames hcontent
    refine .bind (ends_answer hread (.bind (h.ends_codecOf hutf8 ?_)))
    rw [andThen_ok]
    dsimp only [Encoding.codec]
    rw [Encoding.decode_of_encode hbytes]
    exact ends_pure.2 ⟨not_not.2 hfile, l, ⟨rfl, mode, hcontent⟩, h⟩
  · obtain ⟨code, hread⟩ := h.readBytes_refused hbase hnames hfile
    exact .bind (ends_answer_refused hread ⟨hfile, ⟨_, _, rfl⟩, h⟩)

end Questions

/-! ## Files -/

section Files

variable {front : List Text} {name : Text} (hbase : base <+: front)
  (hnames : ∀ s ∈ front ++ [name], Path.Name s)
include hbase hnames

/-- The parents of a file can be made unless a file is in the way. -/
theorem Shows.ends_makeParents (h : Shows base l d) {Q : Except Failure Unit → Disk → Prop}
    (refused : ∀ failure after, failure.IsStorage → l.Blocked (front ++ [name]) → Shows base l after →
      Q (.error failure) after)
    (done : ∀ after, ¬ l.Blocked (front ++ [name]) → (l.withDirectories front).IsDirectory front →
      Shows base (l.withDirectories front) after → Q (.ok ()) after) :
    Ends (makeDir (Path.parent (Path.ofSegments (front ++ [name])))) d Q := by
  rw [Path.parent_ofSegments fun s hs => (hnames s hs).toPlain, List.dropLast_concat]
  refine (h.ends_makeDir hbase fun s hs => hnames s (List.mem_append_left _ hs)).mono ?_
  rintro (failure | _) after hfollows
  · exact refused failure after hfollows.2.1 (Listing.blocked_concat.2 hfollows.1) hfollows.2.2
  · obtain ⟨hno, l', rfl, hafter⟩ := hfollows
    exact done after (mt Listing.blocked_concat.1 hno)
      (Listing.isDirectory_withDirectories fun hfile => hno (.inr hfile)) hafter

theorem Shows.openFile (h : Shows base l d) (hfront : l.IsDirectory front)
    (hno : ¬ l.IsDirectory (front ++ [name])) :
    ∃ content opened, d.openFile (Path.ofSegments (front ++ [name])) = .ok (front ++ [name], opened) ∧
      Shows base (l.put (front ++ [name]) (.file Node.fileMode content)) opened ∧
      (l (front ++ [name]) = none → content = []) := by
  have hbelow := hbase.trans (List.prefix_append front [name])
  have hsame : Text.dropEndWhile HostPath.isSlash (Path.ofSegments (front ++ [name])) =
      Path.ofSegments (front ++ [name]) := Path.dropEndWhile_ofSegments (by simp) fun s hs => (hnames s hs).toPlain
  have hleads := h.resolve hbelow hnames false
  unfold Disk.openFile
  rw [show linkLimit = 39 + 1 from rfl, openOver, hsame, if_neg (by simp)]
  rcases l.cases_entry (front ++ [name]) with hnone | hfile | hdirectory
  · have hnext : ∀ next, l (front ++ [name] ++ [next]) = none := fun next => h.tree.eq_none_below hnone [next]
    have hresolve := resolve_missing h.unlimited hnames (h.isOpen hbase hfront)
      ((h.find?_eq_none_iff hbelow).2 hnone) false
    rw [if_pos rfl] at hresolve
    rw [hresolve]
    exact ⟨[], _, rfl, h.put hbase hfront hnext (.file _ _ rfl), fun _ => rfl⟩
  · obtain ⟨bits, content, hcontent⟩ := id hfile
    obtain ⟨mode, bytes, hbytes, hmode⟩ := h.find?_of_file hbelow hcontent
    have hresolve := Disk.resolve_file h.unlimited hnames (h.isOpen hbase hfront) hmode false
    rw [if_pos rfl] at hresolve
    rw [hresolve]
    refine ⟨content, d, rfl, h.having hbase hfront (h.tree.below_eq_none hfile) (.file _ mode hbytes) rfl
      h.distinct fun other => ?_, fun hnone => absurd hnone hfile.ne_none⟩
    split
    · rename_i hother
      rw [hother, hmode]
    · rfl
  · exact absurd hdirectory hno

omit hnames in
/-- What is put into an open file replaces what it had. -/
theorem Shows.putBytes {old : Text} {bits : Int} (hfront : l.IsDirectory front)
    (h : Shows base (l.put (front ++ [name]) (.file bits old)) d) {content : Text} {bytes : List UInt8}
    (hbytes : Encoding.utf8.encode content = .ok bytes) :
    Shows base (l.put (front ++ [name]) (.file Node.fileMode content)) (d.putBytes (front ++ [name]) bytes) := by
  have hfile : l.put (front ++ [name]) (.file bits old) (front ++ [name]) = some (.file bits old) := by
    rw [Listing.put, if_pos rfl]
  have hfront' : (l.put (front ++ [name]) (.file bits old)).IsDirectory front := by
    rw [Listing.IsDirectory, Listing.put, if_neg (by simp)]
    exact hfront
  obtain ⟨mode, before, _, hmode⟩ := h.find?_of_file (hbase.trans (List.prefix_append _ _)) hfile
  rw [Disk.putBytes, hmode, ← Listing.put_put l _ (.file bits old)]
  exact h.put hbase hfront' (h.tree.below_eq_none ⟨_, _, hfile⟩) (.file _ mode hbytes)

theorem Shows.ends_opened (h : Shows base l d) (hfront : l.IsDirectory front)
    (hno : ¬ l.IsDirectory (front ++ [name])) {Q : Except Failure Route → Disk → Prop}
    (done : ∀ content opened, Shows base (l.put (front ++ [name]) (.file Node.fileMode content)) opened →
      (l (front ++ [name]) = none → content = []) → Q (.ok (front ++ [name])) opened) :
    Ends (opened (Path.ofSegments (front ++ [name]))) d Q := by
  obtain ⟨content, file, hopen, hshows, hnew⟩ := h.openFile hbase hnames hfront hno
  unfold opened
  refine .bind (ends_answer hopen ?_)
  show Ends (setStore file >>= fun _ => pure (front ++ [name])) d Q
  exact .set (ends_pure.2 (done content file hshows hnew))

theorem Shows.ends_openCopy (h : Shows base l d) (hfront : l.IsDirectory front)
    (hno : ¬ l.IsDirectory (front ++ [name])) {source : Text} {Q : Except Failure Route → Disk → Prop}
    (done : ∀ content opened, Shows base (l.put (front ++ [name]) (.file Node.fileMode content)) opened →
      Q (.ok (front ++ [name])) opened) :
    Ends (openCopy source (Path.ofSegments (front ++ [name]))) d Q := by
  obtain ⟨content, file, hopen, hshows, -⟩ := h.openFile hbase hnames hfront hno
  unfold openCopy
  refine .get ?_
  rw [hopen]
  exact .set (ends_pure.2 (done content file hshows))

/-- Two paths lead to one entry only if they are the same. -/
theorem Shows.leadTogether_eq_false (h : Shows base l d) {source : List Text} (hsource : base <+: source)
    (hsources : ∀ s ∈ source, Path.Name s) (hfile : l.IsFile source) (hne : source ≠ front ++ [name])
    (hno : ¬ l.IsDirectory (front ++ [name])) :
    d.leadTogether (Path.ofSegments source) (Path.ofSegments (front ++ [name])) = false := by
  have hbelow := hbase.trans (List.prefix_append front [name])
  obtain ⟨bits, content, hcontent⟩ := hfile
  obtain ⟨mode, bytes, -, hlocate⟩ := h.locate_file hsource hsources hcontent
  rw [leadTogether, hlocate]
  rcases l.cases_entry (front ++ [name]) with hnone | ⟨bits', content', hcontent'⟩ | hdirectory
  · obtain ⟨code, hother⟩ := h.locate_none hbelow hnames hnone
    rw [hother]
  · obtain ⟨mode', bytes', -, hother⟩ := h.locate_file hbelow hnames hcontent'
    rw [hother]
    simp [hne]
  · exact absurd hdirectory hno

end Files

section Routes

variable (hroute : Below base route) (hnames : ∀ s ∈ route, Path.Name s)
include hroute hnames

theorem Shows.ends_write (h : Shows base l d) (hno : ¬ l.IsDirectory route) {encoding : Text}
    (hutf8 : NamesUtf8 encoding) {content : Text} (hcontent : content.Scalar) :
    Ends (write encoding (Path.ofSegments route) content) d
      (Follows base l (l.Blocked route) fun _ l' => l' = l.write route content) := by
  obtain ⟨front, name, rfl, hbase⟩ := hroute.exists_concat
  unfold write
  refine .bind (h.ends_makeParents hbase hnames (fun failure after hstorage hblocked hafter => ?_)
    fun made hopen hfront hmade => ?_)
  · exact ⟨hblocked, hstorage, hafter⟩
  have hno' : ¬ (l.withDirectories front).IsDirectory (front ++ [name]) := by
    rwa [Listing.IsDirectory, Listing.withDirectories_below]
  refine .bind (ends_refuse hutf8.2 (.bind (ends_hostPath hnames ?_)))
  refine .bind (hmade.ends_opened hbase hnames hfront hno' fun old file hfile _ => ?_)
  obtain ⟨bytes, hbytes⟩ := Encoding.exists_encode_utf8_iff.2 hcontent
  have hnothing : Encoding.utf8.encode [] = .ok [] := rfl
  have hemptied := hfile.putBytes hbase hfront hnothing
  have hwritten := hemptied.putBytes hbase hfront hbytes
  refine .get (.set (.bind (hemptied.ends_codecOf hutf8 ?_)))
  rw [andThen_ok]
  dsimp only [Encoding.codec]
  rw [hbytes]
  refine .get (.set (ends_note.2 ⟨hopen, _, rfl, ?_⟩))
  rw [Listing.write_concat]
  exact hwritten

theorem Shows.ends_touch (h : Shows base l d) :
    Ends (touch (Path.ofSegments route)) d
      (Follows base l (l.IsDirectory route ∨ l.Blocked route) fun _ l' =>
        l.IsFile route ∧ l' = l ∨ l route = none ∧ l' = l.write route []) := by
  obtain ⟨front, name, rfl, hbase⟩ := hroute.exists_concat
  have hbelow := hbase.trans (List.prefix_append front [name])
  unfold touch
  refine .bind (h.ends_isDir hbelow hnames fun found hfound => ?_)
  refine .unless (fun hyes => ⟨.inl (hfound.1 hyes), ⟨_, _, rfl⟩, h⟩) fun hno => ?_
  have hdirectory : ¬ l.IsDirectory (front ++ [name]) := fun hdirectory => hno (hfound.2 hdirectory)
  refine .bind (h.ends_makeParents hbase hnames (fun failure after hstorage hblocked hafter => ?_)
    fun made hopen hfront hmade => ?_)
  · exact ⟨.inr hblocked, hstorage, hafter⟩
  have hrefused : ¬ (l.IsDirectory (front ++ [name]) ∨ l.Blocked (front ++ [name])) := not_or.2 ⟨hdirectory, hopen⟩
  refine .bind (ends_hostPath hnames (.get ?_))
  rcases l.cases_entry (front ++ [name]) with hnone | hfile | hyes
  · have hnone' := (Listing.withDirectories_below l front name).trans hnone
    obtain ⟨code, hlocate⟩ := hmade.locate_none hbelow hnames hnone'
    rw [hlocate]
    have hno' : ¬ (l.withDirectories front).IsDirectory (front ++ [name]) := fun hyes => hyes.ne_none hnone'
    refine .bind (hmade.ends_opened hbase hnames hfront hno' fun content opened hopened hnew => ?_)
    rw [hnew hnone', ← Listing.write_concat] at hopened
    exact ends_pure.2 ⟨hrefused, _, .inr ⟨hnone, rfl⟩, hopened⟩
  · have hsame : l.withDirectories front = l := h.tree.withDirectories_of_isDirectory
      (h.tree.isDirectory_above (by simp) hfile.ne_none)
    rw [hsame] at hmade
    obtain ⟨bits, content, hcontent⟩ := id hfile
    obtain ⟨mode, bytes, -, hlocate⟩ := hmade.locate_file hbelow hnames hcontent
    rw [hlocate]
    exact ends_pure.2 ⟨hrefused, l, .inl ⟨hfile, rfl⟩, hmade⟩
  · exact absurd hyes hdirectory

theorem Shows.ends_copy (h : Shows base l d) {source : List Text} (hsource : base <+: source)
    (hsources : ∀ s ∈ source, Path.Name s) (hfile : ¬ l.IsDirectory source) (hne : source ≠ route)
    (hno : ¬ l.IsDirectory route) :
    Ends (copy (Path.ofSegments source) (Path.ofSegments route)) d
      (Follows base l (l source = none ∨ l.Blocked route) fun _ l' =>
        ∃ bits content, l source = some (.file bits content) ∧ l' = l.write route content) := by
  obtain ⟨front, name, rfl, hbase⟩ := hroute.exists_concat
  unfold copy
  refine .bind (h.ends_hasEntry hsource hsources fun found hfound => ?_)
  refine .unless (fun hcond => ?_) fun hcond => ?_
  · refine ⟨.inl (not_not.1 fun hsome => ?_), ⟨_, _, rfl⟩, h⟩
    simp [hfound.2 hsome] at hcond
  have hsome : l source ≠ none := hfound.1 (by simpa using hcond)
  obtain ⟨bits, content, hcontent⟩ := ((l.cases_entry source).resolve_left hsome).resolve_right hfile
  refine .bind (h.ends_makeParents hbase hnames (fun failure after hstorage hblocked hafter => ?_)
    fun made hopen hfront hmade => ?_)
  · exact ⟨.inr hblocked, hstorage, hafter⟩
  have hno' : ¬ (l.withDirectories front).IsDirectory (front ++ [name]) := by
    rwa [Listing.IsDirectory, Listing.withDirectories_below]
  have hcontent' : l.withDirectories front source = some (.file bits content) :=
    (Listing.withDirectories_of_ne_none hsome).trans hcontent
  refine .bind (ends_usable (Path.takes_ofSegments hnames) (.get ?_))
  rw [hmade.leadTogether_eq_false hbase hnames hsource hsources ⟨_, _, hcontent'⟩ hne hno']
  refine .unless (absurd · Bool.false_ne_true) fun _ => ?_
  obtain ⟨bytes, hbytes, hread⟩ := hmade.readBytes hsource hsources hcontent'
  refine .bind (ends_answer hread ?_)
  refine .bind (hmade.ends_openCopy hbase hnames hfront hno' fun old opened hopened => ?_)
  rw [andThen_ok]
  refine .get (ends_setStore.2 ⟨not_or.2 ⟨hsome, hopen⟩, _, ⟨bits, content, hcontent, rfl⟩, ?_⟩)
  rw [Listing.write_concat]
  exact hopened.putBytes hbase hfront hbytes

/-- An edit of a file reads it, and writes it unless it lacks the target. -/
theorem Shows.ends_rewrite (h : Shows base l d) {files : Settings}
    (hutf8 : NamesUtf8 files.encoding)
    (lines : Settings) {e : Edit} (hscalar : e.Scalar) {Q : Except Failure Unit → Disk → Prop}
    (unread : ∀ failure after, ¬ l.IsFile route → failure.IsStorage → Shows base l after →
      Q (.error failure) after)
    (unspliced : ∀ bits old failure after, l route = some (.file bits old) →
      e.splice lines (Path.ofSegments route) (Line.split files.newline.text old) = .error failure →
      Shows base l after → Q (.error failure) after)
    (done : ∀ bits old splice after, l route = some (.file bits old) →
      e.splice lines (Path.ofSegments route) (Line.split files.newline.text old) = .ok splice →
      Shows base (l.write route (splice.apply (Line.split files.newline.text old)).flatten) after →
      Q (.ok ()) after) :
    Ends (Storage.rewrite files lines (Path.ofSegments route) e) d Q := by
  refine Storage.ends_rewrite (.map ((h.ends_read hroute.1 hnames hutf8).mono ?_))
  rintro (failure | content) after hfollows
  · exact unread failure after hfollows.1 hfollows.2.1 hfollows.2.2
  · obtain ⟨hfile, l', ⟨rfl, mode, hcontent⟩, hafter⟩ := hfollows
    have hfile := not_not.1 hfile
    dsimp only [Except.map]
    cases hsplice : e.splice lines (Path.ofSegments route) (Line.split files.newline.text content) with
    | error failure => exact unspliced mode content failure after hcontent hsplice hafter
    | ok splice =>
      have hlines : Text.Scalar (Line.split files.newline.text content).flatten := by
        rw [Line.flatten_split]
        exact hafter.scalar hroute.1 hcontent
      have hnext := Edit.scalar_of_splice hlines hscalar hsplice
      refine (hafter.ends_write hroute hnames hfile.not_isDirectory hutf8 hnext).mono ?_
      rintro (failure | _) last hwritten
      · exact absurd hwritten.1 (hafter.tree.not_blocked hfile.ne_none)
      · obtain ⟨-, _, rfl, hlast⟩ := hwritten
        exact done mode content splice last hcontent hsplice hlast

end Routes

/-! ## Removal -/

theorem Shows.ends_remove (h : Shows base l d) (hroute : Below base route)
    (hnames : ∀ s ∈ route, Path.Name s) :
    Ends (remove (Path.ofSegments route)) d
      (Follows base l (¬ l.IsFile route) fun _ l' => l.IsFile route ∧ l' = l.erase route) := by
  unfold remove
  refine .bind (ends_hostPath hnames ?_)
  rw [andThen_ok]
  by_cases hfile : l.IsFile route
  · refine .bind (ends_perform (h.unlink hroute.1 hnames hfile) (ends_note.2 ?_))
    have herased := h.erase_file hroute hfile
    rw [h.tree.eraseBelow_of_isFile hfile] at herased
    exact ⟨not_not.2 hfile, _, ⟨hfile, rfl⟩, herased⟩
  · obtain ⟨code, hunlink⟩ := h.unlink_refused hroute.1 hnames hfile
    exact .bind (ends_perform_refused hunlink ⟨hfile, ⟨_, _, rfl⟩, h⟩)

/-- A directory that has been cleared is removed by its name. -/
theorem Shows.removeDirectory_clear {front : List Text} {name : Text} (h : Shows base l d)
    (hbase : base <+: front)
    (hnames : ∀ s ∈ front ++ [name], Path.Name s) (hfront : l.IsDirectory front) :
    (d.clear (front ++ [name])).removeDirectory (HostPath.ofText (Path.ofSegments (front ++ [name])))
      (front ++ [name]) = .ok ((d.clear (front ++ [name])).erase (front ++ [name])) := by
  have hopen : (d.clear (front ++ [name])).Open front := by
    intro above habove
    have hkept : ¬ (front ++ [name] <+: above ∧ above ≠ front ++ [name]) := by
      rintro ⟨hpre, -⟩
      have hlength := (hpre.trans habove).length_le
      rw [List.length_append, List.length_singleton] at hlength
      omega
    rw [find?_clear, if_neg hkept]
    exact h.isOpen hbase hfront above habove
  obtain ⟨mode, hresolve⟩ := resolve_open (d := d.clear (front ++ [name])) h.unlimited
    (fun s hs => hnames s (List.mem_append_left _ hs)) hopen true
  rw [Path.ofText_ofSegments fun s hs => (hnames s hs).toPlain, removeDirectory, List.dropLast_concat,
    Path.text_hostPath, locate, hresolve, List.getLast?_concat]
  have hup : name ≠ HostPath.up := (hnames name (by simp)).ne_up
  show (if name = HostPath.up then _ else _) = _
  rw [if_neg hup]
  rfl

theorem Shows.ends_removeTree (h : Shows base l d) (hroute : Below base route)
    (hnames : ∀ s ∈ route, Path.Name s) :
    Ends (removeTree (Path.ofSegments route)) d
      (Follows base l (l route = none) fun _ l' => l' = l.eraseBelow route) := by
  obtain ⟨found, hfound, hiff⟩ := h.leadsToDirectory hroute.1 hnames
  unfold removeTree
  refine .bind (ends_hostPath hnames ?_)
  rw [andThen_ok]
  refine .bind (ends_answer hfound (.get ?_))
  rcases l.cases_entry route with hnone | hfile | hdirectory
  · obtain rfl : found = false := by simpa [Listing.IsDirectory, hnone] using hiff
    obtain ⟨code, hunlink⟩ := h.unlink_refused hroute.1 hnames fun hfile => hfile.ne_none hnone
    exact .bind (ends_perform_refused hunlink ⟨hnone, ⟨_, _, rfl⟩, h⟩)
  · obtain rfl : found = false := by simpa [hfile.not_isDirectory] using hiff
    refine .bind (ends_perform (h.unlink hroute.1 hnames hfile) (ends_note.2 ?_))
    exact ⟨hfile.ne_none, _, rfl, h.erase_file hroute hfile⟩
  · obtain rfl : found = true := hiff.2 hdirectory
    obtain ⟨mode, hresolve⟩ := resolve_open h.unlimited hnames (h.isOpen hroute.1 hdirectory) false
    obtain ⟨front, name, rfl, hbase⟩ := hroute.exists_concat
    have hfront := h.tree.isDirectory_above (by simp) hdirectory.ne_none
    rw [hresolve]
    refine .get (.set (.bind (ends_perform (h.removeDirectory_clear hbase hnames hfront) (ends_note.2 ?_))))
    exact ⟨hdirectory.ne_none, _, rfl, h.erase_clear hroute⟩

end Disk

end Linework
