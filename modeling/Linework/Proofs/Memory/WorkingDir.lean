import Linework.Proofs.Memory.Reachable
import Mathlib.Logic.Function.Iterate

/-!
# Working directories stay directories

The working directory, and those that open blocks go back to, are directories as long as no file is
written in the place of one further out (`Sparing.isDir_here`). A write is refused at the working
directory but not at those, so one that succeeds there makes a file of the directory, and a working
directory of the file once the blocks around it have been left (`isDir_here_overwritten`).
-/

namespace Linework

namespace Move

/-- The paths that a move writes a file to, whether or not there is one. -/
def Writes : Move → Text → Prop
  | act _ (.write path _), other | act _ (.copy _ path), other => other = path
  | _, _ => False

end Move

namespace Memory

open Op

variable {m : Memory} {path content : Text} {tree : Node} {place : Place}

/-- The node at a working directory is a file. -/
def IsFileAt (m : Memory) (place : Place) : Prop :=
  ∃ mode content, (m.at? place.tree place.route).map Node.entry = some (.file mode content)

/-- No working directory is a file, neither the current one nor one to go back to. -/
def InDirectories (m : Memory) : Prop := ∀ place ∈ m.here :: m.saved, ¬ m.IsFileAt place

/-- A path leads to the directory of a block further out. -/
def LeadsBack (m : Memory) (path : Text) : Prop :=
  ∃ place ∈ m.saved, place.tree = (m.walk path).tree ∧ place.route = (m.walk path).route

/-- A move writes a file in the place of the directory of a block further out. -/
def Overwrites (m : Memory) (move : Move) : Prop :=
  (∃ answer, (Op.outcome move.run m).1 = .ok answer) ∧ ∃ path, move.Writes path ∧ m.LeadsBack path

/-- Reached by moves that overwrite no directory of an open block. -/
inductive Sparing : Memory → Prop
  | start : Sparing {}
  | move {m : Memory} (move : Move) (hspares : ¬ m.Overwrites move) :
      Sparing m → Sparing (Op.outcome move.run m).2.store

theorem Sparing.reachable (h : m.Sparing) : m.Reachable := by
  induction h with
  | start => exact .start
  | move move _ _ ih => exact ih.move move

theorem isFileAt_iff (htree : m.tree? place.tree = some tree) :
    m.IsFileAt place ↔ tree.listing.IsFile place.route := by
  rw [IsFileAt, at?, htree]
  rfl

theorem isFileAt_of_at? {node : Node} (hnode : m.at? place.tree place.route = some node) :
    m.IsFileAt place ↔ node.isFile = true := by
  rw [← Node.isFile_nil_listing, IsFileAt, hnode]
  rfl

theorem isFileAt_changeTree_iff {which : Option Nat} (htree : m.tree? which = some tree) (f : Node → Node) :
    (m.changeTree which f).IsFileAt place ↔
      if place.tree = which then (f tree).listing.IsFile place.route else m.IsFileAt place := by
  rw [IsFileAt, at?, tree?_changeTree]
  split
  · rename_i heq
    rw [heq, htree]
    rfl
  · rfl

/-! ## What leaves directories directories -/

theorem inDirectories_empty : InDirectories {} := by
  intro place hplace
  cases List.mem_singleton.1 hplace
  rintro ⟨mode, content, hfile⟩
  cases hfile

/-- A change of a tree that makes no file of a directory. -/
theorem InDirectories.changeTree (h : m.InDirectories) {which : Option Nat} (htree : m.tree? which = some tree)
    {f : Node → Node} (hf : ∀ route, (f tree).listing.IsFile route → tree.listing.IsFile route) :
    (m.changeTree which f).InDirectories := by
  intro place hplace hfile
  rw [here_changeTree, saved_changeTree] at hplace
  rw [isFileAt_changeTree_iff htree] at hfile
  split at hfile
  · rename_i heq
    exact h place hplace ((isFileAt_iff (heq ▸ htree)).2 (hf _ hfile))
  · exact h place hplace hfile

theorem InDirectories.grow (h : m.InDirectories) (htree : m.tree? (m.walk path).tree = some tree)
    (hopen : ¬ tree.listing.Blocked (m.walk path).route) :
    (m.changeTree (m.walk path).tree fun node => (node.grow (m.walk path).route).1).InDirectories := by
  refine h.changeTree htree fun route hfile => ?_
  rw [Node.listing_grow (Node.grow_snd_iff.2 hopen)] at hfile
  exact Listing.isFile_withDirectories_iff.1 hfile

theorem InDirectories.setMode (h : m.InDirectories) (htree : m.tree? (m.walk path).tree = some tree)
    (mode : Int) : (m.changeAt (m.walk path) fun node => node.setMode mode).InDirectories := by
  refine h.changeTree htree fun route hfile => ?_
  rw [Node.listing_change_setMode] at hfile
  exact Listing.isFile_setMode_iff.1 hfile

/-- A file is written in the place of a working directory only if that is one to go back to. -/
theorem InDirectories.overwrite_iff (h : m.InDirectories) (htree : m.tree? (m.walk path).tree = some tree)
    (hopen : ¬ tree.listing.Blocked (m.walk path).route) (hfree : m.isFixed (m.walk path) = false) :
    (m.changeTree (m.walk path).tree (Node.overwrite content (m.walk path).route)).InDirectories ↔
      ¬ m.LeadsBack path := by
  have hfile : ∀ place, (m.changeTree (m.walk path).tree
      (Node.overwrite content (m.walk path).route)).IsFileAt place ↔
        (place.tree = (m.walk path).tree ∧ place.route = (m.walk path).route) ∨ m.IsFileAt place := by
    intro place
    rw [isFileAt_changeTree_iff htree]
    split
    · rename_i heq
      rw [Node.listing_overwrite hopen, Listing.isFile_write_iff, isFileAt_iff (heq ▸ htree)]
      simp [heq]
    · rename_i hne
      simp [hne]
  have hhere : ¬ (m.here.tree = (m.walk path).tree ∧ m.here.route = (m.walk path).route) := by
    rintro ⟨heq, hroute⟩
    simp [isFixed, heq, hroute] at hfree
  unfold InDirectories
  rw [here_changeTree, saved_changeTree]
  constructor
  · rintro hnone ⟨place, hplace, hleads⟩
    exact hnone place (List.mem_cons_of_mem _ hplace) ((hfile place).2 (.inl hleads))
  · intro hback place hplace hisFile
    rcases (hfile place).1 hisFile with hleads | hwas
    · rcases List.mem_cons.1 hplace with rfl | hplace
      · exact hhere hleads
      · exact hback ⟨place, hplace, hleads⟩
    · exact h place hplace hwas

/-- What is cut off takes the working directories in it along, as they are. -/
theorem InDirectories.unlinked (h : m.InDirectories) (hsound : m.Sound) {node : Node} {name : Text}
    (hnode : m.find? path = some node) (hname : (m.walk path).segments.getLast? = some name) :
    (m.unlinked path name).InDirectories := by
  obtain ⟨tree, htree, hat⟩ := exists_tree_of_find? hnode
  rw [route_eq_parent_append hname] at hat
  intro place hplace hfile
  obtain ⟨old, hold, rfl⟩ := exists_of_mem_cut htree hat hplace
  rw [IsFileAt, Memory.unlinked, entry_cut htree hat (hsound.places old hold).there] at hfile
  exact h old hold hfile

theorem InDirectories.entered (h : m.InDirectories) {node : Node} (hnode : m.find? path = some node)
    (hdirectory : node.isFile = false) : (m.entered path).InDirectories := by
  intro place hplace
  rcases List.mem_cons.1 hplace with rfl | hplace
  · have hentered : (m.entered path).at? (m.entered path).here.tree (m.entered path).here.route = some node :=
      hnode
    change ¬ (m.entered path).IsFileAt (m.entered path).here
    rw [isFileAt_of_at? hentered, hdirectory]
    exact Bool.false_ne_true
  · exact h place hplace

theorem InDirectories.left (h : m.InDirectories) : m.left.InDirectories := by
  unfold Memory.left
  split
  · exact h
  · rename_i place rest hsaved
    intro other hother
    exact h other (hsaved ▸ List.mem_cons_of_mem _ hother)

/-- Where nothing is, there is no directory to go back to. -/
theorem Sound.not_leadsBack_of_eq_none (h : m.Sound) (hnone : m.find? path = none) : ¬ m.LeadsBack path := by
  rintro ⟨place, hplace, htree, hroute⟩
  refine (h.places place (List.mem_cons_of_mem _ hplace)).there ?_
  rw [htree, hroute, ← find?_eq]
  exact hnone

/-- Where a file is, there is no directory to go back to. -/
theorem InDirectories.not_leadsBack_of_isFile (h : m.InDirectories) {node : Node}
    (hnode : m.find? path = some node) (hfile : node.isFile = true) : ¬ m.LeadsBack path := by
  rintro ⟨place, hplace, htree, hroute⟩
  rw [find?_eq, ← htree, ← hroute] at hnode
  exact h place (List.mem_cons_of_mem _ hplace) ((isFileAt_of_at? hnode).2 hfile)

/-! ## What operations leave of directories -/

/-- Working directories stay directories unless the operation succeeds at one to go back to. -/
def SparesUnless {α : Type} (m : Memory) (path : Text) (result : Except Failure α) (after : Memory) : Prop :=
  after.InDirectories ↔ ¬ ((∃ value, result = .ok value) ∧ m.LeadsBack path)

theorem sparesUnless_error {α : Type} (h : m.InDirectories) (failure : Failure) :
    m.SparesUnless path (.error failure : Except Failure α) m := iff_of_true h nofun

theorem SparesUnless.map {α β : Type} {f : α → β} {result : Except Failure α} {after : Memory}
    (h : m.SparesUnless path result after) : m.SparesUnless path (result.map f) after := by
  cases result with
  | ok value => simpa [SparesUnless, Except.map] using h
  | error failure => simpa [SparesUnless, Except.map] using h

theorem ends_enter_inDirectories (h : m.InDirectories) (path : Text) :
    Ends (Storage.enter path) m fun _ after => after.InDirectories :=
  ends_enter (fun _ => h) (fun _ _ _ => h) fun _ hnode hdirectory => h.entered hnode hdirectory

variable (hsound : m.Sound) (h : m.InDirectories)
include hsound h

theorem ends_write_spares (path content : Text) : Ends (write path content) m (m.SparesUnless path) := by
  obtain ⟨tree, htree, -⟩ := hsound.exists_tree path
  refine hsound.ends_write htree (fun _ => sparesUnless_error h _) (fun _ _ => sparesUnless_error h _)
    fun hopen hfree _ => ?_
  rw [SparesUnless, h.overwrite_iff htree hopen hfree]
  simp

theorem ends_touch_inDirectories (path : Text) :
    Ends (Storage.touch path) m fun _ after => after.InDirectories := by
  obtain ⟨tree, htree, -⟩ := hsound.exists_tree path
  refine hsound.ends_touch htree (fun _ _ _ => h) (fun _ _ _ => h) (fun _ _ => h) fun hnone hopen hfree => ?_
  exact (h.overwrite_iff htree hopen hfree).2 (hsound.not_leadsBack_of_eq_none hnone)

theorem ends_edit_inDirectories (files lines : Settings) (path : Text) (e : Edit) :
    Ends (Storage.edit files lines path e) m fun _ after => after.InDirectories := by
  obtain ⟨tree, htree, -⟩ := hsound.exists_tree path
  refine hsound.ends_edit htree (fun _ _ => h) (fun _ _ _ => h) (fun _ _ _ => h) (fun _ _ _ _ _ _ => h)
    (fun _ _ _ _ _ _ _ => h) (fun node old splice hnode hold _ hfree => ?_) fun splice _ hnone hopen hfree _ => ?_
  · have hfile : node.isFile = true := by rw [Node.isFile, hold, Option.isSome_some]
    exact (h.overwrite_iff htree (hsound.not_blocked_of_find? htree hnode) hfree).2
      (h.not_leadsBack_of_isFile hnode hfile)
  · exact (h.overwrite_iff htree hopen hfree).2 (hsound.not_leadsBack_of_eq_none hnone)

theorem ends_unlink_inDirectories (path : Text) (allowed : Node → Bool) (n : Note) :
    Ends (unlink path allowed >>= fun _ => Op.note n) m fun _ after => after.InDirectories := by
  refine .bind (ends_unlink (fun _ => h) (fun _ _ _ => h) fun node name hnode _ hname => ?_)
  rw [andThen_ok]
  exact ends_note.2 (h.unlinked hsound hnode hname)

theorem ends_makeDir_inDirectories (path : Text) :
    Ends (makeDir path) m fun _ after => after.InDirectories := by
  obtain ⟨tree, htree, -⟩ := hsound.exists_tree path
  exact hsound.ends_makeDir htree (fun _ => h) (fun _ => h) fun hopen _ => h.grow htree hopen

/-- An action that writes only where a file is or nothing leaves directories directories. -/
theorem ends_perform_inDirectories (rules : Rules) {action : Action}
    (hnever : ∀ path, ¬ (Move.act rules action).Writes path) :
    Ends (action.perform rules) m fun _ after => after.InDirectories := by
  have hasks : ∀ {α β : Type} (f : Memory → α) (g : α → β),
      Ends ((Op.store >>= fun m => pure (f m)) >>= fun value => pure (g value)) m
        fun _ after => after.InDirectories := fun f g => .map (.map (ends_store.2 h))
  cases action with
  | write path content => exact absurd rfl (hnever path)
  | copy source destination => exact absurd rfl (hnever destination)
  | touch path => exact .map (ends_touch_inDirectories hsound h path)
  | read path => exact .map (ends_file (fun _ => h) (fun _ _ _ => h) fun _ _ _ _ => h)
  | readLines path => exact .map (.map (ends_file (fun _ => h) (fun _ _ _ => h) fun _ _ _ _ => h))
  | makeDir path | makeParents path => exact .map (ends_makeDir_inDirectories hsound h _)
  | remove path | removeTree path => exact .map (ends_unlink_inDirectories hsound h path _ _)
  | workingDir | expand path base | hasEntry path | isDir path | isExecutable path => exact hasks _ _
  | join tokens => exact ends_pure.2 h
  | setMode path bits =>
    refine .map (ends_setMode (fun _ => h) fun node hnode => ?_)
    obtain ⟨tree, htree, -⟩ := exists_tree_of_find? hnode
    exact h.setMode htree bits
  | mode path => exact .map (ends_mode (fun _ => h) fun _ _ => h)
  | entries path => exact .map (ends_entries (fun _ => h) (fun _ _ _ => h) fun _ _ _ => h)
  | edit path e => exact .map (ends_edit_inDirectories hsound h rules.edited rules.lines path e)

/-- **A move keeps working directories directories** unless it overwrites one. -/
theorem inDirectories_move_iff (move : Move) :
    (Op.outcome move.run m).2.store.InDirectories ↔ ¬ m.Overwrites move := by
  have hwriting : ∀ path, (∀ other, move.Writes other ↔ other = path) →
      Ends move.run m (m.SparesUnless path) →
        ((Op.outcome move.run m).2.store.InDirectories ↔ ¬ m.Overwrites move) := by
    intro path hpath hends
    rw [show _ ↔ _ from hends.outcome, Overwrites]
    simp [hpath]
  have hsparing : (∀ path, ¬ move.Writes path) → Ends move.run m (fun _ after => after.InDirectories) →
      ((Op.outcome move.run m).2.store.InDirectories ↔ ¬ m.Overwrites move) := by
    intro hnever hends
    exact iff_of_true hends.outcome fun hover => hover.2.elim fun path hpath => hnever path hpath.1
  cases move with
  | act rules action =>
    by_cases hnever : ∀ path, ¬ (Move.act rules action).Writes path
    · exact hsparing hnever (ends_perform_inDirectories hsound h rules hnever)
    · cases action with
      | write path content =>
        exact hwriting path (fun _ => Iff.rfl)
          (.map ((ends_write_spares hsound h path content).mono fun _ _ => SparesUnless.map))
      | copy source destination =>
        refine hwriting destination (fun _ => Iff.rfl) (.map (.bind (ends_file (fun _ => ?_) (fun _ _ _ => ?_) ?_)))
        · exact sparesUnless_error h _
        · exact sparesUnless_error h _
        · exact fun _ content _ _ => (ends_write_spares hsound h destination content).mono
            fun _ _ => SparesUnless.map
      | _ => exact absurd (fun _ => id) hnever
  | enter path => exact hsparing (fun _ => id) (.map (ends_enter_inDirectories h path))
  | leave =>
    have hleave : Ends Storage.leave m fun _ after => after.InDirectories := .get (ends_setStore.2 h.left)
    exact hsparing (fun _ => id) (.map hleave)

omit hsound h

/-! ## What is seen of them -/

/-- The working directory is what a single dot leads to. -/
theorem find?_dot (m : Memory) : m.find? (Text.lit ".") = m.at? m.here.tree m.here.route := by
  have hroute : (m.walk (Text.lit ".")).route = m.here.route := List.append_nil _
  rw [find?_eq, hroute]
  rfl

/-- Asking for the working directory tells whether it has become a file. -/
theorem Sound.isDir_dot (h : m.Sound) :
    ((Op.outcome (Storage.isDir (Text.lit ".")) m).1 = .ok true ↔ ¬ m.IsFileAt m.here) ∧
      ((Op.outcome (Storage.isDir (Text.lit ".")) m).1 = .ok false ↔ m.IsFileAt m.here) := by
  obtain ⟨node, hnode⟩ := Option.ne_none_iff_exists'.1 (h.places m.here List.mem_cons_self).there
  have hasked : (Op.outcome (Storage.isDir (Text.lit ".")) m).1 =
      .ok ((m.find? (Text.lit ".")).any Node.isDirectory) := rfl
  rw [hasked, find?_dot, hnode, isFileAt_of_at? hnode, Option.any_some, Node.isDirectory]
  cases node.isFile <;> simp

theorem Sound.entries_dot (h : m.Sound) (hdirectory : ¬ m.IsFileAt m.here) :
    ∃ names, (Op.outcome (Storage.entries (Text.lit ".")) m).1 = .ok names := by
  have hends : Ends (Storage.entries (Text.lit ".")) m fun result _ => ∃ names, result = .ok names := by
    refine ends_entries (fun hnone => ?_) (fun node hnode hfile => ?_) fun node _ _ => ⟨_, rfl⟩
    · rw [find?_dot] at hnone
      exact absurd hnone (h.places m.here List.mem_cons_self).there
    · rw [find?_dot] at hnode
      exact absurd ((isFileAt_of_at? hnode).2 hfile) hdirectory
  exact hends.outcome

/-- Every working directory becomes the current one when enough blocks are left. -/
theorem exists_here_of_mem (hplace : place ∈ m.here :: m.saved) :
    ∃ count, (Memory.left^[count] m).here = place ∧
      (Memory.left^[count] m).IsFileAt place = m.IsFileAt place := by
  generalize hsaved : m.saved = saved at hplace
  induction saved generalizing m with
  | nil =>
    cases List.mem_singleton.1 hplace
    exact ⟨0, rfl, rfl⟩
  | cons next rest ih =>
    have hleft : m.left = { m with here := next, saved := rest } := by
      unfold Memory.left
      rw [hsaved]
    rcases List.mem_cons.1 hplace with rfl | hplace
    · exact ⟨0, rfl, rfl⟩
    · obtain ⟨count, hhere, hfile⟩ := ih (m := m.left) (by rw [hleft]) (by rw [hleft]; exact hplace)
      refine ⟨count + 1, hhere, hfile.trans ?_⟩
      rw [hleft]
      rfl

/-- No working directory is a file exactly when none is found to be one by leaving blocks. -/
theorem Sound.inDirectories_iff (h : m.Sound) :
    m.InDirectories ↔
      ∀ count, (Op.outcome (Storage.isDir (Text.lit ".")) (Memory.left^[count] m)).1 ≠ .ok false := by
  have hsound : ∀ count, (Memory.left^[count] m).Sound :=
    Function.Iterate.rec _ h fun _ => Sound.left
  constructor
  · intro hdirs count hfalse
    have hkept : (Memory.left^[count] m).InDirectories :=
      Function.Iterate.rec _ hdirs (fun _ => InDirectories.left) count
    exact hkept _ List.mem_cons_self ((hsound count).isDir_dot.2.1 hfalse)
  · intro hnever place hplace hfile
    obtain ⟨count, hhere, hsame⟩ := exists_here_of_mem hplace
    refine hnever count ((hsound count).isDir_dot.2.2 ?_)
    rw [hhere, hsame]
    exact hfile

/-- As long as no directory of an open block is overwritten, none of them is a file. -/
theorem Sparing.inDirectories (h : m.Sparing) : m.InDirectories := by
  induction h with
  | start => exact inDirectories_empty
  | move move hspares hbefore ih =>
    exact (inDirectories_move_iff hbefore.reachable.sound ih move).2 hspares

/-- **The working directory is a directory** as long as no directory of an open block is overwritten:
it is said to be one, and its entries are listed. A move that does overwrite such a directory, and no
other, leaves a memory in which leaving some blocks leads to a working directory that is a file. -/
theorem Sparing.isDir_here (h : m.Sparing) :
    (Op.outcome (Storage.isDir (Text.lit ".")) m).1 = .ok true ∧
      (∃ names, (Op.outcome (Storage.entries (Text.lit ".")) m).1 = .ok names) ∧
      ∀ move : Move, m.Overwrites move ↔
        ∃ count, (Op.outcome (Storage.isDir (Text.lit "."))
          (Memory.left^[count] (Op.outcome move.run m).2.store)).1 = .ok false := by
  have hsound := h.reachable.sound
  have hhere := h.inDirectories m.here List.mem_cons_self
  refine ⟨hsound.isDir_dot.1.2 hhere, hsound.entries_dot hhere, fun move => ?_⟩
  have hmoved := inDirectories_move_iff hsound h.inDirectories move
  rw [(h.reachable.move move).sound.inDirectories_iff] at hmoved
  rw [← not_iff_not, ← hmoved]
  simp

/-- A directory below one that was entered, and what overwriting the outer one from there leaves. -/
theorem isDir_here_nested :
    ∃ m : Memory, m.Sparing ∧
      (Op.outcome (Storage.isDir (Text.lit ".")) m).1 = .ok true ∧
      (∃ names, (Op.outcome (Storage.entries (Text.lit ".")) m).1 = .ok names) ∧
      ∀ move : Move, m.Overwrites move ↔
        ∃ count, (Op.outcome (Storage.isDir (Text.lit "."))
          (Memory.left^[count] (Op.outcome move.run m).2.store)).1 = .ok false := by
  have hsparing : Sparing _ :=
    ((Sparing.start.move (.act {} (.makeDir (Text.lit "/d"))) (by simp [Overwrites, Move.Writes])).move
      (.enter (Text.lit "/d")) (by simp [Overwrites, Move.Writes])).move
      (.enter (Text.lit "/")) (by simp [Overwrites, Move.Writes])
  exact ⟨_, hsparing, hsparing.isDir_here⟩

/-- **A working directory that is a file**: it was overwritten from within another block. -/
theorem isDir_here_overwritten :
    ∃ m : Memory, m.Reachable ∧
      (Op.outcome (Storage.isDir (Text.lit ".")) m).1 = .ok false ∧
      (Op.outcome (Storage.entries (Text.lit ".")) m).1 =
        .error (.ofErrno Errno.notDirectory (Text.lit ".")) :=
  ⟨_, ((((Reachable.start.move (.act {} (.makeDir (Text.lit "/d")))).move (.enter (Text.lit "/d"))).move
      (.enter (Text.lit "/"))).move (.act {} (.write (Text.lit "/d") (Text.lit "x")))).move .leave, rfl, rfl⟩

end Memory

end Linework
