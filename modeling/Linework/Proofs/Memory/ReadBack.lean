import Linework.Proofs.Memory.Reachable

/-!
# Reading back what was written

A file that was written to is found again under its absolute path, unless it was written from a
working directory that a removal has cut off: paths that are plain and relative are walked there, and
absolute ones from the root (`Reachable.readBack_write_iff`). What is written in a directory that was
cut off is lost to everyone outside (`readBack_lost`).
-/

namespace Linework

namespace Memory

open Op

variable {m : Memory} {path content encoding : Text}

/-- Reads the file at the absolute path of a path. -/
def readBack (encoding path : Text) : Op Memory Text := do
  Storage.read encoding (← Storage.expand path none)

/-- Only plain relative paths are walked outside the tree of the root, and only from a working
directory that has been cut off. -/
theorem walk_tree_eq_none_iff :
    (m.walk path).tree = none ↔
      m.here.tree = none ∨ Path.isAbsolute path = true ∨ Path.up ∈ Path.segments path := by
  by_cases hup : Path.up ∈ Path.segments path
  · simp [walk_of_up m hup, hup]
  · by_cases habs : Path.isAbsolute path = true
    · simp [walk_of_isAbsolute m hup habs, habs]
    · simp [walk_of_relative m hup habs, hup, habs]

/-- The absolute path of a path is walked from the root, along its segments. -/
theorem find?_expand (m : Memory) (path : Text) :
    m.find? (m.expand path none) = m.root.at? (m.absoluteSegments path) := by
  rw [expand_eq_ofSegments, find?_ofSegments m fun _ => plain_of_mem_absoluteSegments]

/-- What is read back is the content of the file at the absolute segments of the path. -/
theorem readBack_eq_ok_iff :
    (Op.outcome (readBack encoding path) m).1 = .ok content ↔
      ∃ node, m.root.at? (m.absoluteSegments path) = some node ∧ node.content = some content := by
  have hends : Ends (readBack encoding path) m fun result _ =>
      result = .ok content ↔ ∃ node, m.find? (m.expand path none) = some node ∧ node.content = some content := by
    refine .bind (.get (ends_pure.2 ?_))
    rw [andThen_ok]
    refine ends_file (fun hnone => ?_) (fun node hnode hnone => ?_) fun node found hnode hfound => ?_
    · simp [hnone]
    · simp [hnode, hnone]
    · simp [hnode, hfound]
  rw [← find?_expand]
  exact hends.outcome

/-- A write that succeeds has found its way open and put the content at the end of it. -/
theorem Sound.eq_overwrite_of_write (h : m.Sound)
    (hwrite : (Op.outcome (Storage.write encoding path content) m).1 = .ok ()) :
    ∃ tree, m.tree? (m.walk path).tree = some tree ∧ ¬ tree.listing.Blocked (m.walk path).route ∧
      (Op.outcome (Storage.write encoding path content) m).2.store =
        m.changeTree (m.walk path).tree (Node.overwrite content (m.walk path).route) := by
  obtain ⟨tree, htree, -⟩ := h.exists_tree path
  have hends : Ends (Storage.write encoding path content) m fun result after => result = .ok () →
      ¬ tree.listing.Blocked (m.walk path).route ∧
        after = m.changeTree (m.walk path).tree (Node.overwrite content (m.walk path).route) :=
    h.ends_write htree (fun _ => nofun) (fun _ _ => nofun) fun hopen _ _ _ => ⟨hopen, rfl⟩
  exact ⟨tree, htree, hends.outcome hwrite⟩

/-- **What was written is read back** under its absolute path exactly when the path was walked in the
tree of the root, or what is there happens to have been the same before. -/
theorem Reachable.readBack_write_iff (h : m.Reachable)
    (hwrite : (Op.outcome (Storage.write encoding path content) m).1 = .ok ()) :
    (Op.outcome (readBack encoding path)
        (Op.outcome (Storage.write encoding path content) m).2.store).1 = .ok content ↔
      m.here.tree = none ∨ Path.isAbsolute path = true ∨ Path.up ∈ Path.segments path ∨
        (Op.outcome (readBack encoding path) m).1 = .ok content := by
  obtain ⟨tree, htree, hopen, hafter⟩ := h.sound.eq_overwrite_of_write hwrite
  have hsegments : (m.changeTree (m.walk path).tree
      (Node.overwrite content (m.walk path).route)).absoluteSegments path = m.absoluteSegments path := by
    simp only [absoluteSegments, pwd, here_changeTree]
  rw [hafter, readBack_eq_ok_iff, readBack_eq_ok_iff, hsegments, ← or_assoc, ← or_assoc, or_assoc (a := _ = none),
    ← walk_tree_eq_none_iff]
  cases hwalk : (m.walk path).tree with
  | none =>
    obtain ⟨node, hnode, hcontent⟩ := find?_overwrite htree hopen content
    have hroute := h.sound.walk_route hwalk
    rw [find?_eq, walk_changeTree, hwalk, hroute] at hnode
    simp only [true_or, iff_true, hroute]
    exact ⟨node, hnode, hcontent⟩
  | some index =>
    -- the tree of the root is not the one that was written to
    simp [changeTree]

/-- A file is written with a path that climbs, and read under its absolute path. -/
theorem readBack_write_climbing :
    ∃ m : Memory, m.Reachable ∧
      (Op.outcome (Storage.write (Text.lit "utf-8") (Text.lit "../b/f") (Text.lit "x")) m).1 = .ok () ∧
      ((Op.outcome (readBack (Text.lit "utf-8") (Text.lit "../b/f"))
          (Op.outcome (Storage.write (Text.lit "utf-8") (Text.lit "../b/f") (Text.lit "x")) m).2.store).1 =
          .ok (Text.lit "x") ↔
        m.here.tree = none ∨ Path.isAbsolute (Text.lit "../b/f") = true ∨
          Path.up ∈ Path.segments (Text.lit "../b/f") ∨
          (Op.outcome (readBack (Text.lit "utf-8") (Text.lit "../b/f")) m).1 = .ok (Text.lit "x")) :=
  ⟨_, ((Reachable.start.move (.act {} (.makeDir (Text.lit "/a")))).move (.enter (Text.lit "/a"))).move
      (.act {} (.removeTree (Text.lit "/a"))), rfl,
    Reachable.readBack_write_iff (((Reachable.start.move _).move _).move _) rfl⟩

/-- **Something written is lost**: it was written in a working directory that had been removed. -/
theorem readBack_lost :
    ∃ m : Memory, m.Reachable ∧
      (Op.outcome (Storage.write (Text.lit "utf-8") (Text.lit "f") (Text.lit "x")) m).1 = .ok () ∧
      (Op.outcome (readBack (Text.lit "utf-8") (Text.lit "f"))
          (Op.outcome (Storage.write (Text.lit "utf-8") (Text.lit "f") (Text.lit "x")) m).2.store).1 =
        .error (.ofErrno Errno.noEntry (Text.lit "/a/f")) :=
  ⟨_, ((Reachable.start.move (.act {} (.makeDir (Text.lit "/a")))).move (.enter (Text.lit "/a"))).move
      (.act {} (.removeTree (Text.lit "/a"))), rfl, rfl⟩

end Memory

end Linework
