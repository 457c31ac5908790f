import Linework.Proofs.Memory.Scope
import Mathlib.Data.List.Pairwise

/-!
# Independent actions

What an action comes to is told by little of the memory: the entry at its path, whether the way there is open,
whether anything lies in it, and whether it is the root or the working directory (`View.verdict`). What the action
then does is seen at the path and below it, but for directories that it creates on the way (`Listing.update`).
Actions on paths that do not lead to each other share the way at most, which either of them creates just the same.
So neither sees whether the other has been taken (`Sound.view_next`), and their order does not matter
(`Reachable.commutes`), however many there are (`Sound.listing_nextAll_perm`).
-/

namespace Linework

/-- Neither of two routes leads to the other. -/
def Apart (p q : List Text) : Prop := ¬ p <+: q ∧ ¬ q <+: p

instance (p q : List Text) : Decidable (Apart p q) := inferInstanceAs (Decidable (_ ∧ _))

namespace Apart

variable {p q : List Text}

theorem symm (h : Apart p q) : Apart q p := ⟨h.2, h.1⟩

theorem ne_below (h : Apart p q) (rest : List Text) : ¬ p <+: q ++ rest := by
  intro hp
  rcases List.prefix_or_prefix_of_prefix hp (List.prefix_append q rest) with hpq | hqp
  · exact h.1 hpq
  · exact h.2 hqp

theorem below_ne (h : Apart p q) (rest : List Text) : ¬ q ++ rest <+: p := fun hq =>
  h.2 ((List.prefix_append q rest).trans hq)

end Apart

/-- What an action does to the entries at its path and below. -/
structure Effect where
  /-- Directories are created on the way. -/
  grows : Bool
  change : Listing → Listing

namespace Effect

def keep : Effect := ⟨false, id⟩

def write (content : Text) : Effect := ⟨true, fun l => l.put [] (.file Node.fileMode content)⟩

def makeDir : Effect := ⟨true, fun l => l.withDirectories []⟩

def setMode (mode : Int) : Effect := ⟨false, fun l => l.setMode [] mode⟩

def remove : Effect := ⟨false, fun _ _ => none⟩

end Effect

/-! ## Effects on listings -/

namespace Listing

variable {l k : Listing} {route p q r : List Text} {e f : Effect}

/-- The entries at a route and below. -/
def below (l : Listing) (route : List Text) : Listing := fun rest => l (route ++ rest)

/-- The listing once an effect has taken place at a route. -/
def update (l : Listing) (route : List Text) (e : Effect) : Listing := fun r =>
  if route <+: r then e.change (l.below route) (r.drop route.length)
  else if e.grows = true ∧ r <+: route ∧ l r = none then some (.directory Node.directoryMode)
  else l r

theorem update_append (l : Listing) (route : List Text) (e : Effect) (rest : List Text) :
    l.update route e (route ++ rest) = e.change (l.below route) rest := by
  rw [update, if_pos (List.prefix_append route rest), List.drop_left]

theorem update_elsewhere (h : ¬ route <+: r) :
    l.update route e r =
      if e.grows = true ∧ r <+: route ∧ l r = none then some (.directory Node.directoryMode) else l r :=
  if_neg h

theorem update_eq (hbelow : ∀ rest, e.change (l.below route) rest = k (route ++ rest))
    (habove : ∀ r, ¬ route <+: r →
      (if e.grows = true ∧ r <+: route ∧ l r = none then some (.directory Node.directoryMode) else l r) = k r) :
    l.update route e = k := by
  funext r
  by_cases hr : route <+: r
  · obtain ⟨rest, rfl⟩ := hr
    rw [update_append]
    exact hbelow rest
  · rw [update_elsewhere hr]
    exact habove r hr

theorem update_keep (l : Listing) (route : List Text) : l.update route .keep = l := by
  refine update_eq (fun rest => rfl) fun r _ => if_neg ?_
  rintro ⟨hgrows, -⟩
  cases hgrows

theorem not_longer (route : List Text) (name : Text) (more : List Text) : ¬ route ++ name :: more <+: route := by
  intro h
  have hlength := h.length_le
  rw [List.length_append, List.length_cons] at hlength
  omega

theorem update_write (l : Listing) (route : List Text) (content : Text) :
    l.update route (.write content) = l.write route content := by
  refine update_eq (fun rest => ?_) fun r hr => ?_
  · cases rest with
    | nil => simp [Effect.write, Listing.write, Listing.put]
    | cons name more => simp [Effect.write, Listing.write, Listing.put, below, withDirectories, not_longer]
  · have hne : r ≠ route := by
      rintro rfl
      exact hr (List.prefix_refl r)
    simp [Effect.write, Listing.write, Listing.put, withDirectories, hne]

theorem update_makeDir (l : Listing) (route : List Text) :
    l.update route .makeDir = l.withDirectories route := by
  refine update_eq (fun rest => ?_) fun r _ => ?_
  · cases rest with
    | nil => simp [Effect.makeDir, withDirectories, below]
    | cons name more => simp [Effect.makeDir, withDirectories, below, not_longer]
  · simp [Effect.makeDir, withDirectories]

theorem update_setMode (l : Listing) (route : List Text) (mode : Int) :
    l.update route (.setMode mode) = l.setMode route mode := by
  refine update_eq (fun rest => ?_) fun r hr => ?_
  · simp [Effect.setMode, Listing.setMode, below]
  · have hne : r ≠ route := by
      rintro rfl
      exact hr (List.prefix_refl r)
    rw [Listing.setMode, if_neg hne]
    exact if_neg fun h => Bool.false_ne_true h.1

theorem update_remove (l : Listing) (route : List Text) : l.update route .remove = l.eraseBelow route := by
  refine update_eq (fun rest => ?_) fun r hr => ?_
  · rw [eraseBelow, if_pos (List.prefix_append route rest)]
    rfl
  · rw [eraseBelow, if_neg hr]
    exact if_neg fun h => Bool.false_ne_true h.1

/-! ## Effects apart from one another -/

theorem update_apart (h : Apart p q) (l : Listing) (e : Effect) (rest : List Text) :
    l.update p e (q ++ rest) = l (q ++ rest) := by
  rw [update_elsewhere (h.ne_below rest), if_neg]
  rintro ⟨-, hq, -⟩
  exact h.below_ne rest hq

theorem below_update (h : Apart p q) (l : Listing) (e : Effect) : (l.update p e).below q = l.below q :=
  funext fun rest => update_apart h l e rest

theorem isFile_update_iff (h : ¬ p <+: r) : (l.update p e).IsFile r ↔ l.IsFile r := by
  unfold IsFile
  rw [update_elsewhere h]
  split
  · rename_i hnew
    simp [hnew.2.2]
  · rfl

/-- The directories that are created on the way stand in nobody's way. -/
theorem blocked_update_iff (h : Apart p q) : (l.update p e).Blocked q ↔ l.Blocked q := by
  refine exists_congr fun above => and_congr_right fun habove => and_congr_right fun _ => ?_
  exact isFile_update_iff fun hp => h.1 (hp.trans habove)

theorem update_update_append (h : Apart p q) (l : Listing) (e f : Effect) (rest : List Text) :
    (l.update p e).update q f (p ++ rest) = (l.update q f).update p e (p ++ rest) := by
  rw [update_apart h.symm, update_append, update_append, below_update h.symm]

/-- **Effects apart from one another commute**, although they may create the same directories. -/
theorem update_comm (h : Apart p q) (l : Listing) (e f : Effect) :
    (l.update p e).update q f = (l.update q f).update p e := by
  funext r
  by_cases hp : p <+: r
  · obtain ⟨rest, rfl⟩ := hp
    exact update_update_append h l e f rest
  by_cases hq : q <+: r
  · obtain ⟨rest, rfl⟩ := hq
    exact (update_update_append h.symm l f e rest).symm
  -- above both, each of them creates what is missing on its way
  rw [update_elsewhere hp, update_elsewhere hq, update_elsewhere hp, update_elsewhere hq]
  by_cases hnone : l r = none
  · by_cases he : e.grows = true ∧ r <+: p <;> by_cases hf : f.grows = true ∧ r <+: q <;>
      simp [he, hf, hnone]
  · simp [hnone]

end Listing

/-- The path of an action that changes the entry there. -/
def Action.changes? : Action → Option Text
  | touch path | write path _ | makeDir path | setMode path _ | remove path | removeTree path => some path
  | _ => none

/-- An action changes the entry at the end of a route, which is that of an absolute path without its climbs. -/
def Action.Changes (action : Action) (route : List Text) : Prop :=
  ∃ path, action.changes? = some path ∧ Path.isAbsolute path = true ∧ Path.segments (Path.normalize path) = route

namespace Memory

open Op

variable {m s after : Memory} {rules : Rules} {action one other : Action} {path : Text} {p q route : List Text}

/-! ## What an action goes by -/

/-- What a memory shows to an action at its path. -/
@[ext] structure View where
  entry : Option Entry
  /-- No file stands in the way. -/
  isOpen : Bool
  /-- It is a directory with something in it. -/
  isOccupied : Bool
  isRoot : Bool
  /-- It is the working directory. -/
  isHere : Bool

def view (m : Memory) (route : List Text) : View where
  entry := m.root.listing route
  isOpen := (m.root.grow route).2
  isOccupied := (m.root.at? route).any Node.hasChildren
  isRoot := route.isEmpty
  isHere := m.here.address = (none, route)

namespace View

/-- What comes of an action, a failure with a number or an effect. -/
def verdict (view : View) : Action → Except Errno Effect
  | .write _ content =>
    if !view.isOpen then .error Errno.notDirectory
    else if view.isRoot || view.isHere || view.isOccupied then .error Errno.isDirectory
    else .ok (.write content)
  | .touch _ =>
    match view.entry with
    | some (.file _ _) => .ok .keep
    | some (.directory _) => .error Errno.isDirectory
    | none => if view.isOpen then .ok (.write []) else .error Errno.notDirectory
  | .makeDir _ =>
    if !view.isOpen then .error Errno.notDirectory
    else match view.entry with
      | some (.file _ _) => .error Errno.entryExists
      | _ => .ok .makeDir
  | .setMode _ mode => if view.entry.isSome then .ok (.setMode (Node.permissions mode)) else .error Errno.noEntry
  | .remove _ =>
    match view.entry with
    | some (.file _ _) => .ok .remove
    | some (.directory _) => .error Errno.notPermitted
    | none => .error Errno.noEntry
  | .removeTree _ =>
    if view.entry.isNone then .error Errno.noEntry
    else if view.isRoot then .error Errno.notPermitted
    else .ok .remove
  | _ => .ok .keep

def answer (view : View) (action : Action) (path : Text) : Except Failure Answer :=
  match view.verdict action with
  | .ok _ => .ok .nothing
  | .error code => .error (.ofErrno code path)

def effect (view : View) (action : Action) : Effect :=
  match view.verdict action with
  | .ok effect => effect
  | .error _ => .keep

end View

theorem isOpen_view_iff : (m.view route).isOpen = true ↔ ¬ m.root.listing.Blocked route := Node.grow_snd_iff

theorem isOccupied_view_iff :
    (m.view route).isOccupied = true ↔ ∃ name, m.root.listing (route ++ [name]) ≠ none := by
  unfold view
  dsimp only
  cases hat : m.root.at? route with
  | none => simp [Node.listing_append_of_eq_none (Node.listing_eq_none_iff.2 hat)]
  | some node => exact Node.hasChildren_iff hat

/-- What an action comes to in a memory, told by its verdict. -/
structure Told (m : Memory) (action : Action) (path : Text) (route : List Text) (result : Except Failure Answer)
    (after : Memory) : Prop where
  answer : result = (m.view route).answer action path
  listing : after.root.listing = m.root.listing.update route ((m.view route).effect action)

theorem told_of_error {code : Errno} (h : (m.view route).verdict action = .error code) :
    m.Told action path route (.error (.ofErrno code path)) m where
  answer := by rw [View.answer, h]
  listing := by rw [View.effect, h, Listing.update_keep]

theorem told_of_ok {effect : Effect} (h : (m.view route).verdict action = .ok effect)
    (hafter : after.root.listing = m.root.listing.update route effect) :
    m.Told action path route (.ok .nothing) after where
  answer := by rw [View.answer, h]
  listing := by rw [View.effect, h, hafter]

/-! ## How actions end -/

/-- An absolute path is walked from the root, along its normal segments. -/
theorem walk_absolute (m : Memory) (habs : Path.isAbsolute path = true) :
    m.walk path = ⟨none, [], Path.segments (Path.normalize path)⟩ := by
  by_cases hup : Path.up ∈ Path.segments path
  · rw [walk_of_up m hup, absoluteSegments, if_pos habs]
  · rw [walk_of_isAbsolute m hup habs, Path.segments_normalize, Path.resolve_of_up_notMem hup]

section Walked

variable (hwalk : m.walk path = ⟨none, [], route⟩)

include hwalk

theorem tree?_of_walk : m.tree? (m.walk path).tree = some m.root := by
  rw [hwalk]
  rfl

theorem route_of_walk : (m.walk path).route = route := by
  rw [hwalk]
  rfl

theorem root_changeTree (f : Node → Node) : (m.changeTree (m.walk path).tree f).root = f m.root := by
  rw [hwalk]
  rfl

theorem isOpen_eq_false (h : m.root.listing.Blocked (m.walk path).route) : (m.view route).isOpen = false := by
  rw [route_of_walk hwalk] at h
  rw [Bool.eq_false_iff]
  exact fun hopen => isOpen_view_iff.1 hopen h

theorem isOpen_eq_true (h : ¬ m.root.listing.Blocked (m.walk path).route) : (m.view route).isOpen = true := by
  rw [route_of_walk hwalk] at h
  exact isOpen_view_iff.2 h

theorem isFixed_of_walk : m.isFixed (m.walk path) = ((m.view route).isRoot || (m.view route).isHere) := by
  have hhere : m.here.address = (none, route) ↔ none = m.here.tree ∧ route = m.here.route := by
    rw [eq_comm, Place.address, Prod.mk.injEq]
  rw [hwalk, Bool.eq_iff_iff]
  simp [isFixed, view, Walk.route, hhere]

theorem entry_of_find? {node : Node} (hnode : m.find? path = some node) :
    (m.view route).entry = some node.entry := by
  have hat : m.root.at? route = some node := by
    rw [find?_eq, at?, tree?_of_walk hwalk, route_of_walk hwalk] at hnode
    exact hnode
  exact congrArg (Option.map Node.entry) hat

theorem entry_of_find?_eq_none (hnone : m.find? path = none) : (m.view route).entry = none := by
  rw [find?_eq_none_iff (tree?_of_walk hwalk), route_of_walk hwalk] at hnone
  exact hnone

theorem Sound.ends_write_told (h : m.Sound) (content : Text) :
    Ends (Action.silently (write path content)) m (m.Told (.write path content) path route) := by
  have hroute := route_of_walk hwalk
  refine .map (h.ends_write (tree?_of_walk hwalk) (fun hblocked => ?_) (fun hopen hrefused => ?_)
    fun hopen hfree hempty => ?_)
  · refine told_of_error ?_
    simp [View.verdict, isOpen_eq_false hwalk hblocked]
  · refine told_of_error ?_
    rw [isFixed_of_walk hwalk, hroute, ← isOccupied_view_iff, ← Bool.or_eq_true] at hrefused
    simp [View.verdict, isOpen_eq_true hwalk hopen, hrefused]
  · have hvacant : (m.view route).isOccupied = false := by
      rw [Bool.eq_false_iff, Ne, isOccupied_view_iff]
      rintro ⟨name, hname⟩
      exact hname (hroute ▸ hempty name)
    have hverdict : (m.view route).verdict (.write path content) = .ok (.write content) := by
      rw [isFixed_of_walk hwalk] at hfree
      simp [View.verdict, isOpen_eq_true hwalk hopen, hfree, hvacant]
    refine told_of_ok hverdict ?_
    rw [root_changeTree hwalk, Node.listing_overwrite hopen, hroute, Listing.update_write]

theorem Sound.ends_touch_told (h : m.Sound) :
    Ends (Action.silently (Storage.touch path)) m (m.Told (.touch path) path route) := by
  refine .map (h.ends_touch (tree?_of_walk hwalk) (fun node hnode hdirectory => ?_) (fun node hnode hfile => ?_)
    (fun hnone hblocked => ?_) fun hnone hopen _ => ?_)
  · refine told_of_error ?_
    simp [View.verdict, entry_of_find? hwalk hnode, Node.entry_of_isFile_eq_false hdirectory]
  · obtain ⟨content, hentry⟩ := Node.exists_entry_of_isFile hfile
    have hverdict : (m.view route).verdict (.touch path) = .ok .keep := by
      simp [View.verdict, entry_of_find? hwalk hnode, hentry]
    exact told_of_ok hverdict (Listing.update_keep _ _).symm
  · refine told_of_error ?_
    simp [View.verdict, entry_of_find?_eq_none hwalk hnone, isOpen_eq_false hwalk hblocked]
  · have hverdict : (m.view route).verdict (.touch path) = .ok (.write []) := by
      simp [View.verdict, entry_of_find?_eq_none hwalk hnone, isOpen_eq_true hwalk hopen]
    refine told_of_ok hverdict ?_
    rw [root_changeTree hwalk, Node.listing_overwrite hopen, route_of_walk hwalk, Listing.update_write]

theorem Sound.ends_makeDir_told (h : m.Sound) :
    Ends (Action.silently (makeDir path)) m (m.Told (.makeDir path) path route) := by
  have hroute := route_of_walk hwalk
  refine .map (h.ends_makeDir (tree?_of_walk hwalk) (fun hblocked => ?_) (fun hfile => ?_) fun hopen hno => ?_)
  · refine told_of_error ?_
    simp [View.verdict, isOpen_eq_false hwalk hblocked]
  · have hopen := (h.trees none m.root rfl).isTree.not_blocked hfile.ne_none
    obtain ⟨mode, content, hentry⟩ := hfile
    rw [hroute] at hentry
    have hview : (m.view route).entry = some (.file mode content) := hentry
    refine told_of_error ?_
    simp [View.verdict, isOpen_eq_true hwalk hopen, hview]
  · have hverdict : (m.view route).verdict (.makeDir path) = .ok .makeDir := by
      cases hentry : (m.view route).entry with
      | none => simp [View.verdict, isOpen_eq_true hwalk hopen, hentry]
      | some entry =>
        cases entry with
        | directory mode => simp [View.verdict, isOpen_eq_true hwalk hopen, hentry]
        | file mode content => exact absurd ⟨mode, content, hroute ▸ hentry⟩ hno
    refine told_of_ok hverdict ?_
    rw [root_changeTree hwalk, Node.listing_grow (Node.grow_snd_iff.2 hopen), hroute, Listing.update_makeDir]

theorem ends_setMode_told (mode : Int) :
    Ends (Action.silently (Storage.setMode path mode)) m (m.Told (.setMode path mode) path route) := by
  refine .map (ends_setMode (fun hnone => ?_) fun node hnode => ?_)
  · refine told_of_error ?_
    simp [View.verdict, entry_of_find?_eq_none hwalk hnone]
  · have hverdict : (m.view route).verdict (.setMode path mode) = .ok (.setMode (Node.permissions mode)) := by
      simp [View.verdict, entry_of_find? hwalk hnode]
    refine told_of_ok hverdict ?_
    rw [changeAt, root_changeTree hwalk, Node.listing_change_setMode, route_of_walk hwalk, Listing.update_setMode]

/-- A removal takes all that is below its path out of the tree of the root. -/
theorem listing_unlinked {node : Node} {name : Text} (hnode : m.find? path = some node)
    (hname : (m.walk path).segments.getLast? = some name) :
    (m.unlinked path name).root.listing = m.root.listing.eraseBelow route := by
  obtain ⟨tree, htree, hat⟩ := exists_tree_of_find? hnode
  cases (tree?_of_walk hwalk).symm.trans htree
  rw [route_eq_parent_append hname] at hat
  have hcut := tree?_cut htree hat none
  have hnone : none = (m.walk path).tree := by rw [hwalk]
  rw [if_neg nofun, if_pos hnone] at hcut
  change some (m.unlinked path name).root = _ at hcut
  rw [Option.some.inj hcut, Node.listing_change_erase, ← route_eq_parent_append hname, route_of_walk hwalk]

theorem ne_nil_of_getLast? {name : Text} (hname : (m.walk path).segments.getLast? = some name) :
    (m.view route).isRoot = false := by
  rw [hwalk] at hname
  cases route with
  | nil => cases hname
  | cons first rest => rfl

theorem Sound.ends_remove_told (h : m.Sound) :
    Ends (Action.silently (Storage.remove path)) m (m.Told (.remove path) path route) := by
  refine .map (.bind (ends_unlink (fun hnone => ?_) (fun node hnode hrefused => ?_)
    fun node name hnode hfile hname => ?_))
  · refine told_of_error ?_
    simp [View.verdict, entry_of_find?_eq_none hwalk hnone]
  · have hdirectory : node.isFile = false := by
      rcases hrefused with hno | hroot
      · exact hno
      · -- what is at the root is a directory
        rw [hwalk] at hroot
        rw [find?_eq, hwalk, show route = [] from hroot] at hnode
        cases hnode
        exact h.root
    refine told_of_error ?_
    simp [View.verdict, entry_of_find? hwalk hnode, Node.entry_of_isFile_eq_false hdirectory]
  · obtain ⟨content, hentry⟩ := Node.exists_entry_of_isFile hfile
    have hverdict : (m.view route).verdict (.remove path) = .ok .remove := by
      simp [View.verdict, entry_of_find? hwalk hnode, hentry]
    rw [andThen_ok]
    refine ends_note.2 (told_of_ok hverdict ?_)
    rw [listing_unlinked hwalk hnode hname, Listing.update_remove]

theorem ends_removeTree_told :
    Ends (Action.silently (Storage.removeTree path)) m (m.Told (.removeTree path) path route) := by
  refine .map (.bind (ends_unlink (fun hnone => ?_) (fun node hnode hrefused => ?_)
    fun node name hnode _ hname => ?_))
  · refine told_of_error ?_
    simp [View.verdict, entry_of_find?_eq_none hwalk hnone]
  · have hroot : (m.view route).isRoot = true := by
      rw [hwalk] at hrefused
      exact List.isEmpty_iff.2 (hrefused.resolve_left nofun)
    refine told_of_error ?_
    simp [View.verdict, entry_of_find? hwalk hnode, hroot]
  · have hverdict : (m.view route).verdict (.removeTree path) = .ok .remove := by
      simp [View.verdict, entry_of_find? hwalk hnode, ne_nil_of_getLast? hwalk hname]
    rw [andThen_ok]
    refine ends_note.2 (told_of_ok hverdict ?_)
    rw [listing_unlinked hwalk hnode hname, Listing.update_remove]

/-- **An action on a path** comes to its verdict. -/
theorem Sound.ends_perform_told (h : m.Sound) (rules : Rules) (hpath : action.changes? = some path) :
    Ends (action.perform rules) m (m.Told action path route) := by
  cases action with
  | touch _ =>
    cases hpath
    exact h.ends_touch_told hwalk
  | write _ content =>
    cases hpath
    exact h.ends_write_told hwalk content
  | makeDir _ =>
    cases hpath
    exact h.ends_makeDir_told hwalk
  | setMode _ mode =>
    cases hpath
    exact ends_setMode_told hwalk mode
  | remove _ =>
    cases hpath
    exact h.ends_remove_told hwalk
  | removeTree _ =>
    cases hpath
    exact ends_removeTree_told hwalk
  | _ => cases hpath

end Walked

/-! ## Actions apart from one another -/

/-- The memory once an action has been taken. -/
def next (m : Memory) (rules : Rules) (action : Action) : Memory := (Op.outcome (action.perform rules) m).2.store

theorem view_eq (hblocked : s.root.listing.Blocked route ↔ m.root.listing.Blocked route)
    (hbelow : s.root.listing.below route = m.root.listing.below route)
    (hhere : s.here.address = (none, route) ↔ m.here.address = (none, route)) : s.view route = m.view route := by
  have hentry : ∀ rest, s.root.listing (route ++ rest) = m.root.listing (route ++ rest) := congrFun hbelow
  apply View.ext
  · have hnil := hentry []
    rwa [List.append_nil] at hnil
  · rw [Bool.eq_iff_iff, isOpen_view_iff, isOpen_view_iff, hblocked]
  · rw [Bool.eq_iff_iff, isOccupied_view_iff, isOccupied_view_iff]
    simp only [hentry]
  · rfl
  · exact decide_eq_decide.2 hhere

/-- A removal takes no node to a place outside of what it removes, nor from there. -/
theorem cut_eq_iff (h : Apart p q) (fresh : Nat) (address : Address) :
    Address.cut (none, p) fresh address = (none, q) ↔ address = (none, q) := by
  unfold Address.cut
  split
  · rename_i hcut
    constructor
    · intro heq
      cases heq
    · rintro rfl
      exact absurd (List.isPrefixOf_iff_prefix.1 hcut.2) h.1
  · rfl

theorem follow_eq_iff (hwalk : m.walk path = ⟨none, [], p⟩) (h : Apart p q) (rules : Rules)
    (hpath : action.changes? = some path) (address : Address) :
    m.follow rules action address = (none, q) ↔ address = (none, q) := by
  have hremoved : ∀ {α : Type} (result : Except Failure α),
      m.removed path result address = (none, q) ↔ address = (none, q) := by
    intro α result
    cases result with
    | error failure => rfl
    | ok value =>
      have haddress : m.address path = (none, p) := by
        rw [Memory.address, hwalk]
        rfl
      rw [removed, haddress]
      exact cut_eq_iff h _ address
  cases action with
  | remove _ | removeTree _ =>
    cases hpath
    exact hremoved _
  | touch _ | write _ _ | makeDir _ | setMode _ _ => rfl
  | _ => cases hpath

theorem Sound.told_next (h : m.Sound) (rules : Rules) (hpath : action.changes? = some path)
    (habs : Path.isAbsolute path = true) :
    m.Told action path (Path.segments (Path.normalize path)) (Op.outcome (action.perform rules) m).1
      (m.next rules action) :=
  (h.ends_perform_told (walk_absolute m habs) rules hpath).outcome

theorem Sound.listing_next (h : m.Sound) (rules : Rules) (hchanges : action.Changes route) :
    (m.next rules action).root.listing = m.root.listing.update route ((m.view route).effect action) := by
  obtain ⟨path, hpath, habs, rfl⟩ := hchanges
  exact (h.told_next rules hpath habs).listing

theorem Sound.next (h : m.Sound) (rules : Rules) (action : Action) : (m.next rules action).Sound :=
  (h.ends_perform rules action).outcome.sound h

/-- **An action does not show** at routes apart from its own. -/
theorem Sound.view_next (h : m.Sound) (rules : Rules) (hchanges : action.Changes p) (hapart : Apart p q) :
    (m.next rules action).view q = m.view q := by
  have hlisting := h.listing_next rules hchanges
  refine view_eq ?_ ?_ ?_
  · rw [hlisting]
    exact Listing.blocked_update_iff hapart
  · rw [hlisting]
    exact Listing.below_update hapart _ _
  · have hhere : (m.next rules action).here.address = m.follow rules action m.here.address := by
      rw [Memory.next, (h.kept_perform rules action).here]
      rfl
    obtain ⟨path, hpath, habs, rfl⟩ := hchanges
    rw [hhere]
    exact follow_eq_iff (walk_absolute m habs) hapart rules hpath _

theorem Sound.answer_next (h : m.Sound) (rules : Rules) (hone : one.Changes p) (hother : other.Changes q)
    (hapart : Apart p q) :
    (Op.outcome (other.perform rules) (m.next rules one)).1 = (Op.outcome (other.perform rules) m).1 := by
  have hview := h.view_next rules hone hapart
  obtain ⟨path, hpath, habs, rfl⟩ := hother
  rw [((h.next rules one).told_next rules hpath habs).answer, hview, (h.told_next rules hpath habs).answer]

theorem Sound.listing_next_next (h : m.Sound) (rules : Rules) (hone : one.Changes p) (hother : other.Changes q)
    (hapart : Apart p q) :
    ((m.next rules one).next rules other).root.listing =
      (m.root.listing.update p ((m.view p).effect one)).update q ((m.view q).effect other) := by
  rw [(h.next rules one).listing_next rules hother, h.view_next rules hone hapart, h.listing_next rules hone]

/-- What it is for two actions to be independent: neither answers otherwise when the other has been taken first,
and the tree of the root is the same in the end. -/
structure Independent (m : Memory) (rules : Rules) (one other : Action) : Prop where
  one_first : (Op.outcome (other.perform rules) (m.next rules one)).1 = (Op.outcome (other.perform rules) m).1
  other_first : (Op.outcome (one.perform rules) (m.next rules other)).1 = (Op.outcome (one.perform rules) m).1
  same_tree : ((m.next rules one).next rules other).root.listing = ((m.next rules other).next rules one).root.listing

/-- **Actions apart from one another commute**: each of them answers as it would without the other, and both orders
leave the same tree. -/
theorem Reachable.commutes (h : m.Reachable) (rules : Rules) (hone : one.Changes p) (hother : other.Changes q)
    (hapart : Apart p q) : m.Independent rules one other where
  one_first := h.sound.answer_next rules hone hother hapart
  other_first := h.sound.answer_next rules hother hone hapart.symm
  same_tree := by
    rw [h.sound.listing_next_next rules hone hother hapart, h.sound.listing_next_next rules hother hone hapart.symm,
      Listing.update_comm hapart]

/-- Two actions that both create the directory above their paths, one of them with a path that climbs, in a
directory that has been entered. -/
theorem commutes_shared_parent :
    (Action.write (Text.lit "/s/x") (Text.lit "1")).Changes [Text.lit "s", Text.lit "x"] ∧
      (Action.touch (Text.lit "/s/t/../y")).Changes [Text.lit "s", Text.lit "y"] ∧
      Apart [Text.lit "s", Text.lit "x"] [Text.lit "s", Text.lit "y"] ∧
      lodged.Independent {} (.write (Text.lit "/s/x") (Text.lit "1")) (.touch (Text.lit "/s/t/../y")) ∧
      lodged.root.listing [Text.lit "s"] = none ∧
      (lodged.next {} (.touch (Text.lit "/s/t/../y"))).root.listing [Text.lit "s"] =
        some (.directory Node.directoryMode) := by
  have hone : (Action.write (Text.lit "/s/x") (Text.lit "1")).Changes [Text.lit "s", Text.lit "x"] :=
    ⟨_, rfl, rfl, rfl⟩
  have hother : (Action.touch (Text.lit "/s/t/../y")).Changes [Text.lit "s", Text.lit "y"] := ⟨_, rfl, rfl, rfl⟩
  have hapart : Apart [Text.lit "s", Text.lit "x"] [Text.lit "s", Text.lit "y"] := by decide
  exact ⟨hone, hother, hapart, Reachable.commutes reachable_lodged {} hone hother hapart, rfl, rfl⟩

/-! ## Any number of actions -/

/-- The memory once actions have been taken, one after the other. -/
def nextAll (m : Memory) (rules : Rules) : List Action → Memory
  | [] => m
  | action :: rest => (m.next rules action).nextAll rules rest

/-- The effects of actions apart from one another are those that each of them has by itself. -/
theorem Sound.listing_nextAll (h : m.Sound) (rules : Rules) {steps : List (Action × List Text)}
    (hchanges : ∀ step ∈ steps, step.1.Changes step.2)
    (hapart : steps.Pairwise fun one other => Apart one.2 other.2) :
    (m.nextAll rules (steps.map Prod.fst)).root.listing =
      steps.foldl (fun l step => l.update step.2 ((m.view step.2).effect step.1)) m.root.listing := by
  induction steps generalizing m with
  | nil => rfl
  | cons first rest ih =>
    obtain ⟨hfirst, hrest⟩ := List.pairwise_cons.1 hapart
    have hchange := hchanges first List.mem_cons_self
    have hview : ∀ step ∈ rest, (m.next rules first.1).view step.2 = m.view step.2 := fun step hstep =>
      h.view_next rules hchange (hfirst step hstep)
    have hothers : ∀ step ∈ rest, step.1.Changes step.2 := fun step hstep =>
      hchanges step (List.mem_cons_of_mem _ hstep)
    rw [List.map_cons, nextAll, ih (h.next rules first.1) hothers hrest, h.listing_next rules hchange, List.foldl_cons]
    exact List.foldl_ext _ _ _ fun l step hstep => by rw [hview step hstep]

/-- **Actions apart from one another** leave the same tree in whichever order they are taken. -/
theorem Sound.listing_nextAll_perm (h : m.Sound) (rules : Rules) {steps others : List (Action × List Text)}
    (hperm : steps.Perm others) (hchanges : ∀ step ∈ steps, step.1.Changes step.2)
    (hapart : steps.Pairwise fun one other => Apart one.2 other.2) :
    (m.nextAll rules (steps.map Prod.fst)).root.listing = (m.nextAll rules (others.map Prod.fst)).root.listing := by
  have hsymm : Std.Symm fun one other : Action × List Text => Apart one.2 other.2 := ⟨fun _ _ => Apart.symm⟩
  have hothers : others.Pairwise fun one other => Apart one.2 other.2 := (hperm.pairwise_iff Apart.symm).1 hapart
  rw [h.listing_nextAll rules hchanges hapart,
    h.listing_nextAll rules (fun step hstep => hchanges step (hperm.mem_iff.2 hstep)) hothers]
  refine hperm.foldl_eq' (fun one hone other hother l => ?_) _
  by_cases heq : one = other
  · rw [heq]
  · exact Listing.update_comm (hapart.forall hone hother heq) _ _ _

end Memory

end Linework
