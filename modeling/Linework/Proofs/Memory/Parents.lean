import Linework.Proofs.Memory.ReadBack
import Linework.Proofs.Path.Normal

/-!
# Making the parents of a path

The parents of a path are made at the path without its last piece. Where that piece is a name, the path
leads one step on from there, so nothing comes about at the path itself; where it is a dot, or a climb from
a directory in the tree of the root, the path leads back to what has just been made. The directories above
the absolute path are there afterwards, unless the parents were made in a tree that has been cut off
(`Reachable.makeParents_iff`).
-/

namespace Linework

namespace Memory

open Op

variable {m : Memory} {path last : Text}

/-- The parent of a path is walked in the tree of the root. -/
def RootsParent (m : Memory) (path : Text) : Prop :=
  m.here.tree = none ∨ Path.isAbsolute path = true ∨ Path.up ∈ Path.segments (Path.parent path)

/-- Every directory above the absolute path of a path is said to be one. -/
def HasParents (m : Memory) (path : Text) : Prop :=
  ∀ above, above <+: Path.segments (m.expand path none) → above ≠ Path.segments (m.expand path none) →
    (Op.outcome (Storage.isDir (Path.ofSegments above)) m).1 = .ok true

/-- The memory with the parents of a path made. -/
def withParents (m : Memory) (path : Text) : Memory :=
  m.changeTree (m.walk (Path.parent path)).tree fun node => (node.grow (m.walk (Path.parent path)).route).1

/-! ## Where a path leads from its parent -/

/-- From the root a path leads on from its parent by its last piece. -/
theorem Sound.absoluteSegments_parent (h : m.Sound) (hlast : (Path.solid path).getLast? = some last) :
    m.absoluteSegments path =
      Path.resolve true (m.absoluteSegments (Path.parent path) ++ Path.segments last) := by
  rw [h.absoluteSegments_eq path, h.absoluteSegments_eq (Path.parent path), Path.resolve_resolve_append,
    Path.isAbsolute_parent, List.append_assoc, Path.segments_parent_append hlast]

/-- A climb leads to the directory above the parent. -/
theorem Sound.absoluteSegments_up (h : m.Sound) (hlast : (Path.solid path).getLast? = some Path.up) :
    m.absoluteSegments path = (m.absoluteSegments (Path.parent path)).dropLast := by
  have hup : Path.segments Path.up = [Path.up] := rfl
  rw [h.absoluteSegments_parent hlast, hup, Path.resolve_concat_up,
    Path.resolve_of_up_notMem (up_notMem_absoluteSegments m _)]

theorem Sound.absoluteSegments_of_ne_up (h : m.Sound) (hlast : (Path.solid path).getLast? = some last)
    (hup : last ≠ Path.up) :
    m.absoluteSegments path = m.absoluteSegments (Path.parent path) ++ Path.segments last := by
  rw [h.absoluteSegments_parent hlast, Path.resolve_of_up_notMem]
  rw [List.mem_append, not_or]
  exact ⟨up_notMem_absoluteSegments m _, Path.up_notMem_segments_of_ne (List.mem_of_getLast? hlast) hup⟩

/-- A path that does not end in a climb is walked in the tree of its parent, and past it. -/
theorem Sound.walk_parent (h : m.Sound) (hlast : (Path.solid path).getLast? = some last) (hup : last ≠ Path.up) :
    (m.walk path).tree = (m.walk (Path.parent path)).tree ∧
      (m.walk path).route = (m.walk (Path.parent path)).route ++ Path.segments last := by
  have hsegments := Path.segments_parent_append hlast
  have hnotMem := Path.up_notMem_segments_of_ne (List.mem_of_getLast? hlast) hup
  by_cases hclimbs : Path.up ∈ Path.segments (Path.parent path)
  · have hclimbs' : Path.up ∈ Path.segments path := hsegments ▸ List.mem_append_left _ hclimbs
    rw [walk_of_up m hclimbs, walk_of_up m hclimbs']
    exact ⟨rfl, h.absoluteSegments_of_ne_up hlast hup⟩
  · -- Neither path climbs, so both are walked from where they start, in one and the same tree.
    have hclimbs' : Path.up ∉ Path.segments path := by
      rw [← hsegments, List.mem_append, not_or]
      exact ⟨hclimbs, hnotMem⟩
    have habs := Path.isAbsolute_parent path
    by_cases hroot : Path.isAbsolute path = true
    · rw [walk_of_isAbsolute m hclimbs' hroot, walk_of_isAbsolute m hclimbs (habs.trans hroot)]
      exact ⟨rfl, hsegments.symm⟩
    · rw [walk_of_relative m hclimbs' hroot, walk_of_relative m hclimbs (habs ▸ hroot)]
      refine ⟨rfl, ?_⟩
      simp only [Walk.route, List.append_assoc, hsegments]

/-- What is above a path is its parent or above it, by whatever piece the path leads on. -/
theorem Sound.prefix_parent (h : m.Sound) (hlast : (Path.solid path).getLast? = some last) {above : List Text}
    (habove : above <+: m.absoluteSegments path) (hne : above ≠ m.absoluteSegments path) :
    above <+: m.absoluteSegments (Path.parent path) := by
  by_cases hup : last = Path.up
  · subst hup
    rw [h.absoluteSegments_up hlast] at habove
    exact habove.trans (List.dropLast_prefix _)
  · rw [h.absoluteSegments_of_ne_up hlast hup,
      Path.segments_of_mem_solid (List.mem_of_getLast? hlast)] at habove hne
    split at habove
    · simpa using habove
    · rename_i hdot
      rw [if_neg hdot] at hne
      exact (List.prefix_concat_iff.1 habove).resolve_left hne

/-! ## What making a directory leaves -/

/-- A directory that is made has found its way open, and is made with all that its way lacks. -/
theorem Sound.eq_grow_of_makeDir (h : m.Sound) (hmade : (Op.outcome (Storage.makeDir path) m).1 = .ok ()) :
    ∃ tree, m.tree? (m.walk path).tree = some tree ∧ ¬ tree.listing.Blocked (m.walk path).route ∧
      ¬ tree.listing.IsFile (m.walk path).route ∧
      (Op.outcome (Storage.makeDir path) m).2.store =
        m.changeTree (m.walk path).tree fun node => (node.grow (m.walk path).route).1 := by
  obtain ⟨tree, htree, -⟩ := h.exists_tree path
  have hends : Ends (Storage.makeDir path) m fun result after => result = .ok () →
      ¬ tree.listing.Blocked (m.walk path).route ∧ ¬ tree.listing.IsFile (m.walk path).route ∧
        after = m.changeTree (m.walk path).tree fun node => (node.grow (m.walk path).route).1 :=
    h.ends_makeDir htree (fun _ => nofun) (fun _ => nofun) fun hopen hno _ => ⟨hopen, hno, rfl⟩
  exact ⟨tree, htree, hends.outcome hmade⟩

theorem rootsParent_iff : m.RootsParent path ↔ (m.walk (Path.parent path)).tree = none := by
  rw [walk_tree_eq_none_iff, Path.isAbsolute_parent]
  rfl

theorem isDir_ofSegments_iff {route : List Text} (hplain : ∀ segment ∈ route, Path.Plain segment) :
    (Op.outcome (Storage.isDir (Path.ofSegments route)) m).1 = .ok true ↔ m.root.listing.IsDirectory route := by
  have hasked : (Op.outcome (Storage.isDir (Path.ofSegments route)) m).1 =
      .ok ((m.find? (Path.ofSegments route)).any Node.isDirectory) := rfl
  rw [hasked, find?_ofSegments m hplain]
  cases hat : m.root.at? route with
  | none => simp [Listing.IsDirectory, Node.listing, hat]
  | some node =>
    rw [Node.isDirectory_listing_iff hat]
    simp [Node.isDirectory]

theorem hasParents_iff : m.HasParents path ↔
    ∀ above, above <+: m.absoluteSegments path → above ≠ m.absoluteSegments path →
      m.root.listing.IsDirectory above := by
  have hsegments : Path.segments (m.expand path none) = m.absoluteSegments path :=
    (absoluteSegments_eq_expandFrom m path).symm
  unfold HasParents
  rw [hsegments]
  refine forall_congr' fun above => imp_congr_right fun hpre => imp_congr_right fun _ => ?_
  exact isDir_ofSegments_iff fun segment hmem => plain_of_mem_absoluteSegments (hpre.subset hmem)

theorem hasEntry_eq_false_iff : (Op.outcome (Storage.hasEntry path) m).1 = .ok false ↔ m.find? path = none := by
  have hasked : (Op.outcome (Storage.hasEntry path) m).1 = .ok (m.find? path).isSome := rfl
  rw [hasked]
  cases m.find? path <;> simp

/-- Something is at a path of no pieces: the working directory or the root. -/
theorem Sound.exists_last (h : m.Sound) (hnone : m.find? path = none) :
    ∃ last, (Path.solid path).getLast? = some last := by
  cases hlast : (Path.solid path).getLast? with
  | some last => exact ⟨last, rfl⟩
  | none =>
    have hsegments : Path.segments path = [] := by
      rw [Path.segments, List.getLast?_eq_none_iff.1 hlast]
      rfl
    have hup : Path.up ∉ Path.segments path := by
      rw [hsegments]
      exact List.not_mem_nil
    have hroute : (m.walk path).route = (m.walk path).start := by
      by_cases habs : Path.isAbsolute path = true
      · rw [walk_of_isAbsolute m hup habs, hsegments]
        rfl
      · rw [walk_of_relative m hup habs, hsegments]
        exact List.append_nil _
    have hstart := h.start path
    rw [← hroute, ← find?_eq, hnone] at hstart
    exact absurd rfl hstart

/-! ## What making the parents of a path leaves -/

theorem absoluteSegments_withParents (m : Memory) (path : Text) :
    (m.withParents path).absoluteSegments path = m.absoluteSegments path := by
  simp only [withParents, absoluteSegments, pwd, here_changeTree]

theorem root_withParents_of_cut (hcut : ¬ m.RootsParent path) : (m.withParents path).root = m.root := by
  rw [rootsParent_iff] at hcut
  unfold withParents
  cases hwalk : (m.walk (Path.parent path)).tree with
  | none => exact absurd hwalk hcut
  | some index => rfl

section Made

variable {tree : Node} (htree : m.tree? (m.walk (Path.parent path)).tree = some tree)
  (hopen : ¬ tree.listing.Blocked (m.walk (Path.parent path)).route)

include htree hopen

theorem Sound.listing_root_withParents (h : m.Sound) (hroots : m.RootsParent path) :
    (m.withParents path).root.listing =
      m.root.listing.withDirectories (m.absoluteSegments (Path.parent path)) := by
  rw [rootsParent_iff] at hroots
  have hroute := h.walk_route hroots
  rw [hroots] at htree
  cases htree
  rw [← hroute, ← Node.listing_grow (Node.grow_snd_iff.2 hopen), withParents, hroots]
  rfl

/-- Behind a name nothing has come about, and behind a dot just what has been made. -/
theorem Sound.find?_withParents_of_ne_up (h : m.Sound) (hnone : m.find? path = none)
    (hlast : (Path.solid path).getLast? = some last) (hup : last ≠ Path.up) :
    (m.withParents path).find? path = none ↔ last ≠ (['.'] : Text) := by
  obtain ⟨hsame, hroute⟩ := h.walk_parent hlast hup
  rw [Path.segments_of_mem_solid (List.mem_of_getLast? hlast)] at hroute
  have htree' : (m.withParents path).tree? (m.walk path).tree =
      some (tree.grow (m.walk (Path.parent path)).route).1 := by
    rw [hsame, withParents, tree?_changeTree, if_pos rfl, htree]
    rfl
  have hwalk : (m.withParents path).walk path = m.walk path := walk_changeTree m _ _ path
  rw [find?_eq, hwalk, at?, htree', Option.bind_some, hroute, ← Node.listing_eq_none_iff]
  split
  · rename_i hdot
    obtain ⟨sub, hsub⟩ := Node.exists_at?_grow hopen
    simp [hdot, Node.listing, hsub]
  · rename_i hdot
    have hbefore : tree.listing ((m.walk (Path.parent path)).route ++ [last]) = none := by
      rw [find?_eq, at?, hsame, htree, Option.bind_some, hroute, if_neg hdot] at hnone
      exact Node.listing_eq_none_iff.2 hnone
    rw [listing_grow_below hopen, hbefore]
    simp [hdot]

/-- A climb leads back into what has been made, if it has been made in the tree of the root. -/
theorem Sound.find?_withParents_up (h : m.Sound) (hnone : m.find? path = none)
    (hlast : (Path.solid path).getLast? = some Path.up) :
    (m.withParents path).find? path = none ↔ ¬ m.RootsParent path := by
  have hmem : Path.up ∈ Path.segments path := by
    rw [← Path.segments_parent_append hlast]
    exact List.mem_append_right _ (by decide)
  -- A path that climbs is looked up from the root, before and after, wherever its parents were made.
  have hfind : ∀ other : Memory, other.find? path = other.root.at? (other.absoluteSegments path) := by
    intro other
    rw [find?_eq, walk_of_up other hmem]
    rfl
  rw [hfind] at hnone
  rw [hfind, absoluteSegments_withParents, ← Node.listing_eq_none_iff]
  by_cases hroots : m.RootsParent path
  · have hpre : m.absoluteSegments path <+: m.absoluteSegments (Path.parent path) := by
      rw [h.absoluteSegments_up hlast]
      exact List.dropLast_prefix _
    rw [h.listing_root_withParents htree hopen hroots]
    exact ⟨fun hnot => absurd hnot (Listing.withDirectories_above_ne_none hpre), fun hnot => absurd hroots hnot⟩
  · rw [root_withParents_of_cut hroots]
    exact ⟨fun _ => hroots, fun _ => Node.listing_eq_none_iff.2 hnone⟩

theorem Sound.hasParents_withParents (h : m.Sound) (hno : ¬ tree.listing.IsFile (m.walk (Path.parent path)).route)
    (hlast : (Path.solid path).getLast? = some last) :
    (m.withParents path).HasParents path ↔ m.RootsParent path ∨ m.HasParents path := by
  rw [hasParents_iff, hasParents_iff, absoluteSegments_withParents]
  by_cases hroots : m.RootsParent path
  · have hroute := h.walk_route (rootsParent_iff.1 hroots)
    have hroot : tree = m.root := by
      rw [rootsParent_iff.1 hroots] at htree
      exact (Option.some.inj htree).symm
    simp only [hroots, true_or, iff_true]
    intro above hpre hne
    rw [h.listing_root_withParents htree hopen hroots]
    rw [hroute, hroot] at hopen hno
    have habove := h.prefix_parent hlast hpre hne
    exact Listing.isDirectory_withDirectories_above habove (Listing.not_isFile_above hopen hno habove)
  · simp only [hroots, false_or, root_withParents_of_cut hroots]

end Made

/-- **What making the parents of a path leaves.** Nothing is at the path afterwards exactly if its last piece
is a name, or climbs from a directory in a tree that has been cut off. The directories above it are there
exactly if they were made in the tree of the root, or were there before. -/
theorem Reachable.makeParents_iff (h : m.Reachable)
    (hfree : (Op.outcome (Storage.hasEntry path) m).1 = .ok false)
    (hmade : (Op.outcome (Storage.makeParents path) m).1 = .ok ()) :
    ∃ last, (Path.solid path).getLast? = some last ∧
      ((Op.outcome (Storage.hasEntry path) (Op.outcome (Storage.makeParents path) m).2.store).1 = .ok false ↔
        last ≠ (['.'] : Text) ∧ (last = Path.up → ¬ m.RootsParent path)) ∧
      ((Op.outcome (Storage.makeParents path) m).2.store.HasParents path ↔
        m.RootsParent path ∨ m.HasParents path) := by
  have hnone := hasEntry_eq_false_iff.1 hfree
  obtain ⟨last, hlast⟩ := h.sound.exists_last hnone
  obtain ⟨tree, htree, hopen, hno, hafter⟩ := h.sound.eq_grow_of_makeDir hmade
  have hstore : (Op.outcome (Storage.makeParents path) m).2.store = m.withParents path := hafter
  rw [hstore, hasEntry_eq_false_iff]
  refine ⟨last, hlast, ?_, h.sound.hasParents_withParents htree hopen hno hlast⟩
  by_cases hup : last = Path.up
  · subst hup
    rw [h.sound.find?_withParents_up htree hopen hnone hlast]
    have hdot : Path.up ≠ (['.'] : Text) := by decide
    simp [hdot]
  · rw [h.sound.find?_withParents_of_ne_up htree hopen hnone hlast hup]
    simp [hup]

/-- The parents of a path that climbs out of a directory that has been removed. -/
theorem makeParents_iff_climbing :
    ∃ m : Memory, m.Reachable ∧ m.here.tree ≠ none ∧
      (Op.outcome (Storage.hasEntry (Text.lit "../b//f/")) m).1 = .ok false ∧
      (Op.outcome (Storage.makeParents (Text.lit "../b//f/")) m).1 = .ok () ∧
      (Op.outcome (Storage.hasEntry (Text.lit "../b//f/"))
        (Op.outcome (Storage.makeParents (Text.lit "../b//f/")) m).2.store).1 = .ok false ∧
      (Op.outcome (Storage.makeParents (Text.lit "../b//f/")) m).2.store.HasParents (Text.lit "../b//f/") := by
  have hreachable : Reachable _ := ((Reachable.start.move (.act {} (.makeDir (Text.lit "/a")))).move
    (.enter (Text.lit "/a"))).move (.act {} (.removeTree (Text.lit "/a")))
  obtain ⟨last, hlast, hentry, hparents⟩ :=
    @Reachable.makeParents_iff _ (Text.lit "../b//f/") hreachable rfl rfl
  have hname : last = Text.lit "f" := (Option.some.inj hlast).symm
  have hclimbs : Path.up ∈ Path.segments (Path.parent (Text.lit "../b//f/")) := by decide
  refine ⟨_, hreachable, nofun, rfl, rfl, hentry.2 ?_, hparents.2 (.inl (.inr (.inr hclimbs)))⟩
  rw [hname]
  exact ⟨by decide, fun hup => absurd hup (by decide)⟩

/-- **Something comes about at the path itself**: its last piece is a dot. -/
theorem makeParents_creates :
    ∃ m : Memory, m.Reachable ∧
      (Op.outcome (Storage.hasEntry (Text.lit "/a/x/.")) m).1 = .ok false ∧
      (Op.outcome (Storage.makeParents (Text.lit "/a/x/.")) m).1 = .ok () ∧
      (Op.outcome (Storage.hasEntry (Text.lit "/a/x/."))
        (Op.outcome (Storage.makeParents (Text.lit "/a/x/.")) m).2.store).1 = .ok true :=
  ⟨_, Reachable.start.move (.act {} (.makeDir (Text.lit "/a"))), rfl, rfl, rfl⟩

end Memory

end Linework
