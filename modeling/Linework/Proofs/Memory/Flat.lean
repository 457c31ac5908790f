import Linework.Proofs.Flat
import Linework.Proofs.Memory.Reachable

/-!
# A memory as a flat map

What a memory is to whoever asks it: a flat map from absolute segments to entries, and the segments
of its working directories. As long as no directory of an open block has been cut off, every path is
a key of the map, however it is written and wherever its walk begins, and this module says in terms
of the map what the walk finds there.
-/

namespace Linework

namespace Memory

/-- A memory seen as a flat map. -/
def flat (m : Memory) : Flat := ⟨m.root.listing, m.here.dir, m.saved.map Place.dir⟩

variable {m : Memory} {path : Text} {node : Node}

theorem flat_expand (m : Memory) (path : Text) (base : Option Text) :
    m.flat.expand path base = m.expand path base := by
  cases base <;> rfl

theorem flat_key (m : Memory) (path : Text) : m.flat.key path = m.absoluteSegments path := by
  rw [Flat.key, flat_expand, absoluteSegments_eq_expandFrom]
  rfl

theorem Attached.tree (h : m.Attached) (path : Text) : (m.walk path).tree = none :=
  walk_tree (h m.here List.mem_cons_self) path

theorem Attached.tree? (h : m.Attached) (path : Text) : m.tree? (m.walk path).tree = some m.root := by
  rw [h.tree path]
  rfl

theorem Sound.route (h : m.Sound) (hattached : m.Attached) (path : Text) :
    (m.walk path).route = m.flat.key path := by
  rw [flat_key, h.walk_route (hattached.tree path)]

theorem Sound.find?_flat (h : m.Sound) (hattached : m.Attached) (path : Text) :
    m.find? path = m.root.at? (m.flat.key path) := by
  rw [find?_eq, at?, hattached.tree? path, Option.bind_some, h.route hattached]

theorem Sound.flat_key_eq (h : m.Sound) (hattached : m.Attached) (path : Text) :
    m.flat.listing (m.flat.key path) = (m.find? path).map Node.entry := by
  rw [h.find?_flat hattached]
  rfl

theorem Sound.find?_eq_none_iff (h : m.Sound) (hattached : m.Attached) :
    m.find? path = none ↔ m.flat.listing (m.flat.key path) = none := by
  rw [h.flat_key_eq hattached, Option.map_eq_none_iff]

theorem Sound.isFile_iff (h : m.Sound) (hattached : m.Attached) (hnode : m.find? path = some node) :
    node.isFile = true ↔ m.flat.listing.IsFile (m.flat.key path) := by
  rw [h.find?_flat hattached] at hnode
  exact (Node.isFile_listing_iff hnode).symm

theorem Sound.isDirectory_iff (h : m.Sound) (hattached : m.Attached) (hnode : m.find? path = some node) :
    node.isFile = false ↔ m.flat.listing.IsDirectory (m.flat.key path) := by
  rw [h.find?_flat hattached] at hnode
  exact (Node.isDirectory_listing_iff hnode).symm

/-- The content of the node that a path finds is that of the file in the map. -/
theorem Sound.file_eq (h : m.Sound) (hattached : m.Attached) {content : Text}
    (hnode : m.find? path = some node) (hcontent : node.content = some content) :
    m.flat.listing (m.flat.key path) = some (.file node.mode content) := by
  rw [h.flat_key_eq hattached, hnode, Option.map_some, Node.entry, hcontent]

/-- A walk is fixed when the key is that of the root or of the working directory. -/
theorem Sound.isFixed_iff (h : m.Sound) (hattached : m.Attached) :
    m.isFixed (m.walk path) = true ↔ m.flat.key path = [] ∨ m.flat.key path = m.flat.dir := by
  have htree := hattached m.here List.mem_cons_self
  have hroute := (h.places m.here List.mem_cons_self).named htree
  simp [isFixed, hattached.tree path, h.route hattached, htree, hroute, flat]

/-- Nothing names the working directory but a relative path of no segments. -/
theorem Sound.segments_eq_nil_iff (h : m.Sound) (hattached : m.Attached) :
    (m.walk path).segments = [] ↔
      m.flat.key path = [] ∨ (Path.isAbsolute path = false ∧ Path.segments path = []) := by
  have hkey := h.route hattached path
  by_cases hup : Path.up ∈ Path.segments path
  · rw [walk_of_up m hup] at hkey ⊢
    have hne : Path.segments path ≠ [] := List.ne_nil_of_mem hup
    rw [← hkey]
    simp [Walk.route, hne]
  · by_cases habs : Path.isAbsolute path = true
    · rw [walk_of_isAbsolute m hup habs] at hkey ⊢
      rw [← hkey]
      simp [Walk.route, habs]
    · rw [walk_of_relative m hup habs] at hkey ⊢
      rw [← hkey]
      have habs : Path.isAbsolute path = false := by simpa using habs
      simp only [Walk.route, List.append_eq_nil_iff, habs, true_and]
      exact ⟨.inr, fun hor => hor.elim And.right id⟩

/-- Attached working directories are keys of the map. -/
theorem Sound.listing_dir_ne_none (h : m.Sound) (hattached : m.Attached) {place : Place}
    (hplace : place ∈ m.here :: m.saved) : m.flat.listing place.dir ≠ none := by
  have hthere := (h.places place hplace).there
  rw [hattached place hplace, (h.places place hplace).named (hattached place hplace)] at hthere
  exact mt Node.listing_eq_none_iff.1 hthere

theorem Sound.proper (h : m.Sound) (hattached : m.Attached) : m.flat.Proper where
  root := (Node.isDirectory_listing_iff (Node.at?_nil m.root)).2 h.root
  here := h.listing_dir_ne_none hattached List.mem_cons_self
  plain := (h.places m.here List.mem_cons_self).plain
  tree := (h.trees none m.root rfl).isTree

/-- **A move keeps working directories attached** unless it removes one of them or a directory above. -/
theorem Sound.attached_move (h : m.Sound) (hattached : m.Attached) {move : Move}
    (hkept : ∀ path, move.Removes path → ∀ dir ∈ m.flat.dir :: m.flat.saved, ¬ m.flat.key path <+: dir) :
    (Op.outcome move.run m).2.store.Attached := by
  obtain ⟨hchange, -⟩ := (h.ends_move move).outcome
  generalize (Op.outcome move.run m).2.store = after at hchange
  cases hchange with
  | refl => exact hattached
  | single hchange =>
    refine hchange.attached h hattached fun path hremoves place hplace => ?_
    rw [← flat_key]
    exact hkept path hremoves place.dir (List.mem_map_of_mem (f := Place.dir) hplace)

/-! ## Changes of the map -/

theorem Attached.flat_changeTree (h : m.Attached) (path : Text) (f : Node → Node) :
    (m.changeTree (m.walk path).tree f).flat = m.flat.holding (f m.root).listing := by
  rw [h.tree path]
  rfl

theorem Sound.flat_overwrite (h : m.Sound) (hattached : m.Attached) {content : Text}
    (hopen : ¬ m.flat.listing.Blocked (m.flat.key path)) :
    (m.changeTree (m.walk path).tree (Node.overwrite content (m.walk path).route)).flat =
      m.flat.holding (m.flat.listing.write (m.flat.key path) content) := by
  rw [hattached.flat_changeTree, h.route hattached, Node.listing_overwrite hopen]
  rfl

theorem Sound.flat_grow (h : m.Sound) (hattached : m.Attached)
    (hopen : ¬ m.flat.listing.Blocked (m.flat.key path)) :
    (m.changeTree (m.walk path).tree fun node => (node.grow (m.walk path).route).1).flat =
      m.flat.holding (m.flat.listing.withDirectories (m.flat.key path)) := by
  rw [hattached.flat_changeTree, h.route hattached, Node.listing_grow (Node.grow_snd_iff.2 hopen)]
  rfl

theorem Sound.flat_setMode (h : m.Sound) (hattached : m.Attached) (mode : Int) :
    (m.changeAt (m.walk path) fun node => node.setMode mode).flat =
      m.flat.holding (m.flat.listing.setMode (m.flat.key path) (Node.permissions mode)) := by
  rw [changeAt, hattached.flat_changeTree, h.route hattached, Node.listing_change_setMode]
  rfl

/-- A removal takes away the key and all keys below it. Working directories keep their segments. -/
theorem Sound.flat_unlinked (h : m.Sound) (hattached : m.Attached) {name : Text}
    (hnode : m.find? path = some node) (hname : (m.walk path).segments.getLast? = some name) :
    (m.unlinked path name).flat = m.flat.holding (m.flat.listing.eraseBelow (m.flat.key path)) := by
  obtain ⟨tree, htree, hat⟩ := exists_tree_of_find? hnode
  have hroute := h.route hattached path
  rw [route_eq_parent_append hname] at hat hroute
  have hdir : ∀ place : Place, (place.cut (m.walk path).tree
      ((m.walk path).start ++ (m.walk path).segments.dropLast ++ [name]) m.detached.length).dir =
        place.dir := by
    intro place
    unfold Place.cut
    split <;> rfl
  unfold unlinked
  rw [cut_eq htree hat]
  simp only [flat, Flat.holding, List.map_map, Function.comp_def, hdir]
  congr 1
  rw [hattached.tree path]
  change (Node.change _ _ m.root).listing = _
  rw [Node.listing_change_erase, hroute]
  rfl

end Memory

end Linework
