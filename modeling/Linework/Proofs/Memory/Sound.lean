import Linework.Proofs.Flat

/-!
# Sound memories

The shape of a memory that every operation keeps: its trees are sound, those that removals cut off
included, and each working directory, the current one or one to go back to, is still there. As long
as it hangs in the tree of the root, it is the node that its path names. So a path is walked to the
node that its absolute segments name (`Sound.walk_route`), whichever way it is written.
-/

namespace Linework

namespace Memory

/-- The node at the end of a route in one of the trees. -/
def at? (m : Memory) (tree : Option Nat) (route : List Text) : Option Node :=
  (m.tree? tree).bind (Node.at? route)

/-- A working directory that a memory can have. -/
structure Holds (m : Memory) (place : Place) : Prop where
  there : m.at? place.tree place.route ≠ none
  plain : ∀ segment ∈ place.dir, Path.Plain segment
  named : place.tree = none → place.route = place.dir

structure Sound (m : Memory) : Prop where
  root : m.root.isFile = false
  trees : ∀ tree node, m.tree? tree = some node → node.Sound
  places : ∀ place ∈ m.here :: m.saved, m.Holds place

/-- No directory of an open block has been cut off. -/
def Attached (m : Memory) : Prop := ∀ place ∈ m.here :: m.saved, place.tree = none

instance (m : Memory) : Decidable m.Attached :=
  inferInstanceAs (Decidable (∀ place ∈ m.here :: m.saved, place.tree = none))

variable {m : Memory} {path : Text}

theorem find?_eq (m : Memory) (path : Text) :
    m.find? path = m.at? (m.walk path).tree (m.walk path).route := rfl

theorem tree?_changeTree (m : Memory) (tree other : Option Nat) (f : Node → Node) :
    (m.changeTree tree f).tree? other =
      if other = tree then (m.tree? other).map f else m.tree? other := by
  cases tree with
  | none => cases other <;> simp [changeTree, tree?]
  | some index =>
    cases other with
    | none => simp [changeTree, tree?]
    | some i =>
      simp only [changeTree, tree?, List.getElem?_modify, Option.some.injEq]
      by_cases h : i = index
      · simp [h]
      · simp [h, Ne.symm h]

@[simp] theorem here_changeTree (m : Memory) (tree : Option Nat) (f : Node → Node) :
    (m.changeTree tree f).here = m.here := by
  cases tree <;> rfl

@[simp] theorem saved_changeTree (m : Memory) (tree : Option Nat) (f : Node → Node) :
    (m.changeTree tree f).saved = m.saved := by
  cases tree <;> rfl

/-- Only what a change does to the tree it is for counts. -/
theorem changeTree_congr {tree : Option Nat} {f g : Node → Node}
    (h : ∀ node, m.tree? tree = some node → f node = g node) :
    m.changeTree tree f = m.changeTree tree g := by
  cases tree with
  | none => simp only [changeTree, h m.root rfl]
  | some index =>
    have hmodify : m.detached.modify index f = m.detached.modify index g := by
      apply List.ext_getElem?
      intro i
      rw [List.getElem?_modify, List.getElem?_modify]
      by_cases hi : index = i
      · subst hi
        cases hget : m.detached[index]? with
        | none => rfl
        | some node => simp [h node hget]
      · simp [hi]
    simp only [changeTree, hmodify]

theorem changeTree_eq_self {tree : Option Nat} {f : Node → Node}
    (h : ∀ node, m.tree? tree = some node → f node = node) : m.changeTree tree f = m := by
  rw [changeTree_congr (g := id) h]
  cases tree with
  | none => rfl
  | some index => simp [changeTree]

theorem sound_empty : Sound {} where
  root := rfl
  trees tree node hnode := by
    cases tree with
    | none =>
      cases hnode
      exact Node.sound_fresh _
    | some index => cases hnode
  places place hplace := by
    cases List.mem_singleton.1 hplace
    exact ⟨Option.some_ne_none _, nofun, fun _ => rfl⟩

theorem walk_of_up (m : Memory) (h : Path.up ∈ Path.segments path) :
    m.walk path = ⟨none, [], m.absoluteSegments path⟩ := if_pos h

theorem walk_of_isAbsolute (m : Memory) (h : Path.up ∉ Path.segments path)
    (habs : Path.isAbsolute path = true) : m.walk path = ⟨none, [], Path.segments path⟩ :=
  (if_neg h).trans (if_pos habs)

theorem walk_of_relative (m : Memory) (h : Path.up ∉ Path.segments path)
    (habs : ¬ Path.isAbsolute path = true) :
    m.walk path = ⟨m.here.tree, m.here.route, Path.segments path⟩ := (if_neg h).trans (if_neg habs)

theorem Sound.start (h : m.Sound) (path : Text) :
    m.at? (m.walk path).tree (m.walk path).start ≠ none := by
  by_cases hup : Path.up ∈ Path.segments path
  · rw [walk_of_up m hup]
    exact Option.some_ne_none m.root
  · by_cases habs : Path.isAbsolute path = true
    · rw [walk_of_isAbsolute m hup habs]
      exact Option.some_ne_none m.root
    · rw [walk_of_relative m hup habs]
      exact (h.places m.here List.mem_cons_self).there

theorem plain_of_mem_absoluteSegments {segment : Text} (h : segment ∈ m.absoluteSegments path) :
    Path.Plain segment := by
  unfold absoluteSegments at h
  split at h
  · rename_i habs
    exact Path.plain_of_mem_segments_normalize habs h
  · exact Path.plain_of_mem_segments_normalize (Path.isAbsolute_joinTexts_ofSegments _ _) h

theorem up_notMem_absoluteSegments (m : Memory) (path : Text) : Path.up ∉ m.absoluteSegments path :=
  Path.up_notMem_of_plain fun _ => plain_of_mem_absoluteSegments

theorem plain_of_mem_walk {segment : Text} (h : segment ∈ (m.walk path).segments) :
    Path.Plain segment := by
  by_cases hup : Path.up ∈ Path.segments path
  · rw [walk_of_up m hup] at h
    exact plain_of_mem_absoluteSegments h
  · have hmem : segment ∈ Path.segments path := by
      by_cases habs : Path.isAbsolute path = true
      · rwa [walk_of_isAbsolute m hup habs] at h
      · rwa [walk_of_relative m hup habs] at h
    exact ⟨(Path.mem_segments hmem).1, (Path.mem_segments hmem).2, fun heq => hup (heq ▸ hmem),
      Path.bare_of_mem_segments hmem⟩

/-- Every path is walked in a tree that is there. -/
theorem Sound.exists_tree (h : m.Sound) (path : Text) :
    ∃ tree, m.tree? (m.walk path).tree = some tree ∧ tree.at? (m.walk path).start ≠ none := by
  have hstart := h.start path
  unfold at? at hstart
  cases htree : m.tree? (m.walk path).tree with
  | none => simp [htree] at hstart
  | some tree => exact ⟨tree, rfl, by simpa [htree] using hstart⟩

/-- The whole way of a path is made of plain segments. -/
theorem Sound.plain_of_mem_route (h : m.Sound) {segment : Text} (hmem : segment ∈ (m.walk path).route) :
    Path.Plain segment := by
  obtain ⟨tree, htree, hstart⟩ := h.exists_tree path
  obtain ⟨sub, hsub⟩ := Option.ne_none_iff_exists'.1 hstart
  rcases List.mem_append.1 hmem with hmem | hmem
  · exact (h.trees _ _ htree).plain_of_at? hsub segment hmem
  · exact plain_of_mem_walk hmem

theorem absoluteSegments_eq_expandFrom (m : Memory) (path : Text) :
    m.absoluteSegments path = Path.segments (expandFrom m.pwd path) := by
  unfold absoluteSegments expandFrom
  split <;> rfl

/-- The absolute path of a path is written from its absolute segments. -/
theorem expand_eq_ofSegments (m : Memory) (path : Text) :
    m.expand path none = Path.ofSegments (m.absoluteSegments path) := by
  rw [absoluteSegments_eq_expandFrom]
  unfold expand expandFrom
  dsimp only
  split
  · exact (Path.ofSegments_segments_normalize ‹_›).symm
  · exact (Path.ofSegments_segments_normalize (Path.isAbsolute_joinTexts_ofSegments _ _)).symm

/-- A path that is written from segments is walked from the root, along them. -/
theorem find?_ofSegments (m : Memory) {route : List Text} (hplain : ∀ segment ∈ route, Path.Plain segment) :
    m.find? (Path.ofSegments route) = m.root.at? route := by
  have hsegments := Path.segments_ofSegments_of_plain hplain
  have hup : Path.up ∉ Path.segments (Path.ofSegments route) := by
    rw [hsegments]
    exact Path.up_notMem_of_plain hplain
  rw [find?_eq, walk_of_isAbsolute m hup (Path.isAbsolute_ofSegments route), hsegments]
  rfl

theorem Sound.absoluteSegments_eq (h : m.Sound) (path : Text) :
    m.absoluteSegments path =
      Path.resolve true ((if Path.isAbsolute path then [] else m.here.dir) ++ Path.segments path) := by
  rw [absoluteSegments_eq_expandFrom]
  exact segments_expandFrom (h.places m.here List.mem_cons_self).plain path

/-- In the tree of the root, a path leads where its absolute segments lead. -/
theorem Sound.walk_route (h : m.Sound) (htree : (m.walk path).tree = none) :
    (m.walk path).route = m.absoluteSegments path := by
  have hplace := h.places m.here List.mem_cons_self
  have heq := h.absoluteSegments_eq path
  by_cases hup : Path.up ∈ Path.segments path
  · rw [walk_of_up m hup]
    rfl
  · by_cases habs : Path.isAbsolute path = true
    · rw [walk_of_isAbsolute m hup habs, heq, if_pos habs, List.nil_append,
        Path.resolve_of_up_notMem hup]
      rfl
    · rw [walk_of_relative m hup habs] at htree ⊢
      have hdir : Path.up ∉ m.here.dir := Path.up_notMem_of_plain hplace.plain
      rw [heq, if_neg habs, Path.resolve_of_up_notMem (by simp [hdir, hup]), ← hplace.named htree]
      rfl

theorem walk_tree (hhere : m.here.tree = none) (path : Text) : (m.walk path).tree = none := by
  by_cases hup : Path.up ∈ Path.segments path
  · rw [walk_of_up m hup]
  · by_cases habs : Path.isAbsolute path = true
    · rw [walk_of_isAbsolute m hup habs]
    · rw [walk_of_relative m hup habs]
      exact hhere

end Memory

end Linework
