import Linework.Proofs.Memory.Reachable

/-!
# The shape of trees

What every node of a reachable memory looks like (`Reachable.shape`), those in trees that removals
cut off and those that working directories hold included. Within a tree this is what makes it sound.
The root of a tree that was cut off was a child once, so it too has the name of one (`Reachable.named`).
-/

namespace Linework

namespace Node

variable {node child : Node}

/-- Children of their own names are found under them. -/
theorem Tidy.get?_eq_some_iff (h : node.Tidy) {name : Text} :
    node.get? name = some child ↔ child ∈ node.children ∧ child.segment = name := by
  refine ⟨fun hget => ⟨mem_of_get? hget, segment_of_get? hget⟩, ?_⟩
  rintro ⟨hmem, rfl⟩
  cases hget : node.get? child.segment with
  | none => exact absurd (List.mem_map_of_mem hmem) (get?_eq_none_iff.1 hget)
  | some found =>
    have hsame := List.inj_on_of_nodup_map h.distinct (mem_of_get? hget) hmem (segment_of_get? hget)
    rw [hsame]

theorem segment_of_at?_append {parent : List Text} {name : Text}
    (h : node.at? (parent ++ [name]) = some child) : child.segment = name := by
  rw [at?_append] at h
  obtain ⟨above, -, hget⟩ := Option.bind_eq_some_iff.1 h
  obtain ⟨found, hfound, hrest⟩ := Option.bind_eq_some_iff.1 hget
  cases hrest
  exact segment_of_get? hfound

/-- Below the root of a sound tree, every node is a child of another. -/
theorem Sound.plain_segment (h : node.Sound) {route : List Text} (hroute : route ≠ []) {sub : Node}
    (hsub : node.at? route = some sub) : Path.Plain sub.segment := by
  obtain ⟨parent, name, rfl⟩ := List.eq_nil_or_concat' route |>.resolve_left hroute
  rw [segment_of_at?_append hsub]
  exact h.plain_of_at? hsub name (by simp)

theorem overwrite_segment (content : Text) (route : List Text) (node : Node) :
    (node.overwrite content route).segment = node.segment := by
  rw [overwrite, change_segment (f := fun n => n.write content) fun _ => rfl, grow_segment]

end Node

namespace Memory

open Op

variable {m m' : Memory} {removes : Text → Prop}

/-- The roots of the trees that were cut off have plain names. -/
def Named (m : Memory) : Prop := ∀ index node, m.tree? (some index) = some node → Path.Plain node.segment

theorem Named.changeTree (h : m.Named) {tree : Option Nat} {f : Node → Node}
    (hf : ∀ node, (f node).segment = node.segment) : (m.changeTree tree f).Named := by
  intro index node hnode
  rw [tree?_changeTree] at hnode
  split at hnode
  · obtain ⟨was, hwas, rfl⟩ := Option.map_eq_some_iff.1 hnode
    rw [hf]
    exact h index was hwas
  · exact h index node hnode

/-- What is cut off is named by the last segment of a walk. -/
theorem Named.unlinked (h : m.Named) {path name : Text} {node : Node} (hnode : m.find? path = some node)
    (hname : (m.walk path).segments.getLast? = some name) : (m.unlinked path name).Named := by
  obtain ⟨tree, htree, hat⟩ := exists_tree_of_find? hnode
  rw [route_eq_parent_append hname] at hat
  intro index root hroot
  rw [Memory.unlinked, tree?_cut htree hat] at hroot
  split at hroot
  · cases hroot
    rw [Node.segment_of_at?_append hat]
    exact plain_of_mem_walk (List.mem_of_getLast? hname)
  · split at hroot
    · rename_i hindex
      cases hroot
      rw [Node.change_segment (f := fun node => node.erase name) fun _ => rfl]
      exact h index tree (hindex ▸ htree)
    · exact h index root hroot

theorem Named.left (h : m.Named) : m.left.Named := by
  unfold Memory.left
  split
  · exact h
  · exact h

/-- **Changes name trees as they should.** -/
theorem Change.named (h : m.Named) (hchange : Change removes m m') : m'.Named := by
  cases hchange with
  | write path content => exact h.changeTree (Node.overwrite_segment content _)
  | makeDir path => exact h.changeTree (Node.grow_segment _)
  | setMode path mode => exact h.changeTree (Node.change_segment (f := fun node => node.setMode mode) (fun _ => rfl) _)
  | unlink path name _ hnode hname => exact h.unlinked hnode hname
  | enter path => exact h
  | leave => exact h.left

theorem Comes.named {α : Type} {result : Except Failure α} (h : m.Comes removes result m') (hm : m.Named) :
    m'.Named := by
  obtain ⟨hchanges, -⟩ := h
  cases hchanges with
  | refl => exact hm
  | single hchange => exact hchange.named hm

/-- **Whatever was cut off is named** in every reachable memory. -/
theorem Reachable.named (h : m.Reachable) : m.Named := by
  induction h with
  | start => exact fun index node hnode => nomatch hnode
  | move move hbefore ih => exact (hbefore.sound.ends_move move).outcome.named ih

/-- **The shape of every node.** Working directories lead to nodes, and wherever a node is, whether in
the tree of the root or in one that was cut off, it is not a file and a directory with entries at a
time, its children are the ones found under their names, its own name is plain unless it is the root,
and its mode is made of permission bits. -/
theorem Reachable.shape (h : m.Reachable) :
    (∀ place ∈ m.here :: m.saved, ∃ node, m.at? place.tree place.route = some node) ∧
      ∀ tree route node, m.at? tree route = some node →
        ¬ (node.isFile = true ∧ node.hasChildren = true) ∧
        (∀ name child, node.get? name = some child ↔ child ∈ node.children ∧ child.segment = name) ∧
        ((tree, route) ≠ (none, []) →
          node.segment ≠ [] ∧ node.segment ≠ Text.lit "." ∧ node.segment ≠ Text.lit ".." ∧
            ('/' : CodePoint) ∉ node.segment ∧ ('\\' : CodePoint) ∉ node.segment) ∧
        0 ≤ node.mode ∧ node.mode ≤ 0o777 := by
  refine ⟨fun place hplace => Option.ne_none_iff_exists'.1 (h.sound.places place hplace).there, ?_⟩
  intro tree route node hnode
  obtain ⟨whole, hwhole, hat⟩ := Option.bind_eq_some_iff.1 hnode
  have hsound := h.sound.trees tree whole hwhole
  have htidy := hsound route node hat
  refine ⟨?_, fun name child => htidy.get?_eq_some_iff, fun hbelow => ?_, htidy.mode_nonneg, ?_⟩
  · rintro ⟨hfile, hchildren⟩
    simp [Node.hasChildren, htidy.exclusive hfile] at hchildren
  · have hplain : Path.Plain node.segment := by
      -- a root is named only if it was cut off, all else by the directory it is in
      by_cases hroute : route = []
      · subst hroute
        cases hat
        cases tree with
        | none => exact absurd rfl hbelow
        | some index => exact h.named index node hwhole
      · exact hsound.plain_segment hroute hat
    have hbare : ∀ c, Path.isSeparator c = true → c ∉ node.segment := fun c hc hmem =>
      Bool.false_ne_true ((hplain.bare c hmem).symm.trans hc)
    exact ⟨hplain.ne_nil, hplain.ne_dot, hplain.ne_up, hbare '/' rfl, hbare '\\' rfl⟩
  · have hlt := htidy.mode_lt
    omega

/-- A file in a directory that was cut off, from within it. -/
theorem shape_cut_off :
    ∃ m : Memory, m.Reachable ∧ m.here.tree = some 0 ∧
      (∀ place ∈ m.here :: m.saved, ∃ node, m.at? place.tree place.route = some node) ∧
      ∀ tree route node, m.at? tree route = some node →
        ¬ (node.isFile = true ∧ node.hasChildren = true) ∧
        (∀ name child, node.get? name = some child ↔ child ∈ node.children ∧ child.segment = name) ∧
        ((tree, route) ≠ (none, []) →
          node.segment ≠ [] ∧ node.segment ≠ Text.lit "." ∧ node.segment ≠ Text.lit ".." ∧
            ('/' : CodePoint) ∉ node.segment ∧ ('\\' : CodePoint) ∉ node.segment) ∧
        0 ≤ node.mode ∧ node.mode ≤ 0o777 := by
  have hreachable : Reachable _ :=
    (((Reachable.start.move (.act {} (.makeDir (Text.lit "/a")))).move (.enter (Text.lit "/a"))).move
      (.act {} (.removeTree (Text.lit "/a")))).move (.act {} (.write (Text.lit "f") (Text.lit "x")))
  exact ⟨_, hreachable, rfl, hreachable.shape⟩

end Memory

end Linework
