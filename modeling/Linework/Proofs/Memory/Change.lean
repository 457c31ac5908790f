import Linework.Proofs.Memory.Sound

/-!
# Changes of a memory

All that can happen to a memory, one case for each way an operation changes it. A change keeps a
memory sound (`Change.sound`), so whatever is built from changes does.
-/

namespace Linework

namespace Memory

variable {m m' : Memory} {path : Text} {removes : Text → Prop}

/-- The directory at a path becomes the working directory. -/
def entered (m : Memory) (path : Text) : Memory :=
  { m with
    here := ⟨(m.walk path).tree, (m.walk path).route, m.absoluteSegments path⟩
    saved := m.here :: m.saved }

/-- The entry at a path is taken out of its directory, in which it has the given name. -/
def unlinked (m : Memory) (path name : Text) : Memory :=
  m.cut (m.walk path).tree ((m.walk path).start ++ (m.walk path).segments.dropLast) name

/-- A change, which may take away the entries at some paths. -/
inductive Change (removes : Text → Prop) : Memory → Memory → Prop
  | write (m : Memory) (path content : Text) {tree : Node}
      (htree : m.tree? (m.walk path).tree = some tree)
      (hopen : ¬ tree.listing.Blocked (m.walk path).route)
      (hfree : m.isFixed (m.walk path) = false)
      (hempty : ∀ name, tree.listing ((m.walk path).route ++ [name]) = none) :
      Change removes m (m.changeTree (m.walk path).tree (Node.overwrite content (m.walk path).route))
  | makeDir (m : Memory) (path : Text) {tree : Node}
      (htree : m.tree? (m.walk path).tree = some tree)
      (hopen : ¬ tree.listing.Blocked (m.walk path).route) :
      Change removes m (m.changeTree (m.walk path).tree fun node => (node.grow (m.walk path).route).1)
  | setMode (m : Memory) (path : Text) (mode : Int) {node : Node} (hnode : m.find? path = some node) :
      Change removes m (m.changeAt (m.walk path) fun node => node.setMode mode)
  | unlink (m : Memory) (path name : Text) {node : Node} (hremoves : removes path)
      (hnode : m.find? path = some node) (hname : (m.walk path).segments.getLast? = some name) :
      Change removes m (m.unlinked path name)
  | enter (m : Memory) (path : Text) {node : Node} (hnode : m.find? path = some node)
      (hdirectory : node.isFile = false) : Change removes m (m.entered path)
  | leave (m : Memory) : Change removes m m.left

/-- A memory stays sound when the tree that is changed does and loses nothing. -/
theorem Sound.changeTree (h : m.Sound) {tree : Option Nat} {f : Node → Node}
    (hroot : tree = none → (f m.root).isFile = false)
    (hsound : ∀ node, m.tree? tree = some node → (f node).Sound)
    (hkept : ∀ node route, m.tree? tree = some node → node.listing route ≠ none →
      (f node).listing route ≠ none) : (m.changeTree tree f).Sound where
  root := by
    cases tree with
    | none => exact hroot rfl
    | some index => exact h.root
  trees other node hnode := by
    rw [tree?_changeTree] at hnode
    split at hnode
    · rename_i heq
      subst heq
      obtain ⟨was, hwas, rfl⟩ := Option.map_eq_some_iff.1 hnode
      exact hsound was hwas
    · exact h.trees other node hnode
  places place hplace := by
    rw [here_changeTree, saved_changeTree] at hplace
    have hplace := h.places place hplace
    refine ⟨?_, hplace.plain, hplace.named⟩
    have hthere := hplace.there
    unfold at? at hthere ⊢
    rw [tree?_changeTree]
    split
    · rename_i heq
      cases hwas : m.tree? place.tree with
      | none => simp [hwas] at hthere
      | some was =>
        rw [hwas, Option.bind_some] at hthere
        exact mt Node.listing_eq_none_iff.2 (hkept was place.route (heq ▸ hwas) (mt Node.listing_eq_none_iff.1 hthere))
    · exact hthere

/-! ## Cutting off -/

section Cut

variable {tree : Option Nat} {parent : List Text} {name : Text} {whole child : Node}

theorem cut_eq (hwhole : m.tree? tree = some whole) (hchild : whole.at? (parent ++ [name]) = some child) :
    m.cut tree parent name =
      { m.changeTree tree (Node.change (fun node => node.erase name) parent) with
        detached :=
          (m.changeTree tree (Node.change (fun node => node.erase name) parent)).detached ++ [child]
        here := m.here.cut tree (parent ++ [name]) m.detached.length
        saved := m.saved.map fun place => place.cut tree (parent ++ [name]) m.detached.length } := by
  rw [Node.at?_append] at hchild
  obtain ⟨above, habove, hget⟩ := Option.bind_eq_some_iff.1 hchild
  have hget : above.get? name = some child := by
    rw [Node.at?_cons] at hget
    cases h : above.get? name with
    | none => rw [h] at hget; cases hget
    | some found => rw [h] at hget; exact hget
  unfold cut
  rw [hwhole, Option.bind_some, habove, Option.bind_some, hget]
  simp

/-- The working directories after a cut are those before, moved where they hung below it. -/
theorem exists_of_mem_cut (hwhole : m.tree? tree = some whole)
    (hchild : whole.at? (parent ++ [name]) = some child) {place : Place}
    (hplace : place ∈ (m.cut tree parent name).here :: (m.cut tree parent name).saved) :
    ∃ old ∈ m.here :: m.saved, old.cut tree (parent ++ [name]) m.detached.length = place := by
  have hmem : place ∈ (m.here :: m.saved).map fun old => old.cut tree (parent ++ [name]) m.detached.length := by
    rw [cut_eq hwhole hchild] at hplace
    exact hplace
  exact List.mem_map.1 hmem

theorem length_detached_changeTree (m : Memory) (tree : Option Nat) (f : Node → Node) :
    (m.changeTree tree f).detached.length = m.detached.length := by
  cases tree with
  | none => rfl
  | some index => simp [changeTree]

/-- The tree that a child was cut off from lacks it, and the child is a tree of its own. -/
theorem tree?_cut (hwhole : m.tree? tree = some whole) (hchild : whole.at? (parent ++ [name]) = some child)
    (other : Option Nat) :
    (m.cut tree parent name).tree? other =
      if other = some m.detached.length then some child
      else if other = tree then some (Node.change (fun node => node.erase name) parent whole)
      else m.tree? other := by
  have hchanged := tree?_changeTree m tree other (Node.change (fun node => node.erase name) parent)
  rw [cut_eq hwhole hchild]
  cases other with
  | none =>
    rw [if_neg (by simp)]
    change (m.changeTree tree _).tree? none = _
    rw [hchanged]
    split
    · rename_i heq
      rw [heq, hwhole, Option.map_some]
    · rfl
  | some index =>
    change ((m.changeTree tree _).detached ++ [child])[index]? = _
    rw [List.getElem?_append, length_detached_changeTree]
    split
    · rename_i hlt
      rw [if_neg (by simp; omega)]
      change (m.changeTree tree _).tree? (some index) = _
      rw [hchanged]
      split
      · rename_i heq
        rw [heq, hwhole, Option.map_some]
      · rfl
    · rename_i hge
      have hnone : m.tree? (some index) = none := List.getElem?_eq_none (by omega)
      by_cases hlast : index = m.detached.length
      · simp [hlast]
      · rw [if_neg (by simpa using hlast), if_neg, hnone, List.getElem?_eq_none]
        · simp only [List.length_singleton]
          omega
        · rintro rfl
          rw [hnone] at hwhole
          cases hwhole

/-- A working directory is the same after something was cut off, if need be in the new tree. -/
theorem entry_cut (hwhole : m.tree? tree = some whole) (hchild : whole.at? (parent ++ [name]) = some child)
    {place : Place} (hthere : m.at? place.tree place.route ≠ none) :
    ((m.cut tree parent name).at? (place.cut tree (parent ++ [name]) m.detached.length).tree
        (place.cut tree (parent ++ [name]) m.detached.length).route).map Node.entry =
      (m.at? place.tree place.route).map Node.entry := by
  unfold at? at hthere ⊢
  obtain ⟨its, hits⟩ : ∃ its, m.tree? place.tree = some its := by
    cases hits : m.tree? place.tree with
    | none => simp [hits] at hthere
    | some its => exact ⟨its, rfl⟩
  unfold Place.cut
  split
  · rename_i hcond
    obtain ⟨rest, hrest⟩ := List.isPrefixOf_iff_prefix.1 hcond.2
    rw [tree?_cut hwhole hchild, if_pos rfl, hcond.1, hwhole, ← hrest, List.drop_left, Option.bind_some,
      Option.bind_some, Node.at?_append, hchild, Option.bind_some]
  · rename_i hcond
    have hother : place.tree ≠ some m.detached.length := by
      intro heq
      rw [heq] at hits
      exact absurd hits (by simp [tree?])
    rw [tree?_cut hwhole hchild, if_neg hother]
    split
    · rename_i heq
      rw [heq, hwhole]
      change (Node.change _ _ whole).listing _ = whole.listing _
      rw [Node.listing_change_erase, Listing.eraseBelow, if_neg]
      exact fun hp => hcond ⟨heq, List.isPrefixOf_iff_prefix.2 hp⟩
    · rfl

/-- A working directory is still there after something was cut off. -/
theorem Holds.cut (hwhole : m.tree? tree = some whole)
    (hchild : whole.at? (parent ++ [name]) = some child) {place : Place} (h : m.Holds place) :
    (m.cut tree parent name).Holds (place.cut tree (parent ++ [name]) m.detached.length) where
  there hnone := by
    have hentry := entry_cut hwhole hchild h.there
    rw [hnone, Option.map_none, eq_comm, Option.map_eq_none_iff] at hentry
    exact h.there hentry
  plain := by
    unfold Place.cut
    split <;> exact h.plain
  named := by
    unfold Place.cut
    split
    · nofun
    · exact h.named

theorem Sound.cut (h : m.Sound) (hwhole : m.tree? tree = some whole)
    (hchild : whole.at? (parent ++ [name]) = some child) : (m.cut tree parent name).Sound where
  root := by
    have hcut := tree?_cut hwhole hchild none
    rw [if_neg nofun] at hcut
    split at hcut
    · rename_i htree
      subst htree
      cases hwhole
      rw [Option.some.inj hcut, Node.isFile_eq_false_iff, Node.listing_change_erase, Listing.IsFile,
        Listing.eraseBelow, if_neg (by simp)]
      exact Node.isFile_eq_false_iff.1 h.root
    · rw [Option.some.inj hcut]
      exact h.root
  trees other node hnode := by
    have hsound := h.trees tree whole hwhole
    rw [tree?_cut hwhole hchild] at hnode
    split at hnode
    · cases hnode
      exact hsound.at? hchild
    · split at hnode
      · cases hnode
        exact hsound.change (f := fun node => node.erase name) (fun _ => rfl) fun sub hsub => (hsound.at? hsub).erase name
      · exact h.trees other node hnode
  places place hplace := by
    obtain ⟨old, hold, rfl⟩ := exists_of_mem_cut hwhole hchild hplace
    exact (h.places old hold).cut hwhole hchild

end Cut

/-- A path that is walked at all ends in the child that its last segment names. -/
theorem route_eq_parent_append {name : Text} (hname : (m.walk path).segments.getLast? = some name) :
    (m.walk path).route = (m.walk path).start ++ (m.walk path).segments.dropLast ++ [name] := by
  obtain ⟨front, hfront⟩ := List.getLast?_eq_some_iff.1 hname
  rw [Walk.route, hfront, List.dropLast_concat, List.append_assoc]

theorem exists_tree_of_find? {node : Node} (hnode : m.find? path = some node) :
    ∃ tree, m.tree? (m.walk path).tree = some tree ∧ tree.at? (m.walk path).route = some node :=
  Option.bind_eq_some_iff.1 hnode

theorem Sound.entered (h : m.Sound) {node : Node} (hnode : m.find? path = some node) :
    (m.entered path).Sound where
  root := h.root
  trees := h.trees
  places place hplace := by
    rcases List.mem_cons.1 hplace with rfl | hplace
    · refine ⟨?_, fun s hs => plain_of_mem_absoluteSegments hs, ?_⟩
      · exact fun hnone => absurd (hnone.symm.trans hnode) (by simp)
      · exact fun hroot => h.walk_route hroot
    · have hold := h.places place hplace
      exact ⟨hold.there, hold.plain, hold.named⟩

theorem Sound.left (h : m.Sound) : m.left.Sound := by
  unfold Memory.left
  split
  · exact h
  · rename_i place rest hsaved
    refine ⟨h.root, h.trees, fun other hother => ?_⟩
    have hold := h.places other (hsaved ▸ List.mem_cons_of_mem _ hother)
    exact ⟨hold.there, hold.plain, hold.named⟩

/-- **Changes keep a memory sound.** -/
theorem Change.sound (h : m.Sound) (hchange : Change removes m m') : m'.Sound := by
  cases hchange with
  | write path content htree hopen hfree hempty =>
    refine h.changeTree (fun hnone => ?_) (fun node hnode => ?_) fun node route hnode hroute => ?_
    · rw [hnone] at htree
      cases htree
      rw [Node.isFile_eq_false_iff, Node.listing_overwrite hopen, Listing.isFile_write_iff,
        Node.isFile_nil_listing, h.root]
      rintro (hroute | hfile)
      · simp [isFixed, hnone, ← hroute] at hfree
      · cases hfile
    · rw [htree] at hnode
      cases hnode
      exact (h.trees _ _ htree).overwrite (fun s hs => h.plain_of_mem_route hs) hopen hempty content
    · rw [htree] at hnode
      cases hnode
      rw [Node.listing_overwrite hopen]
      exact Listing.write_ne_none hroute
  | makeDir path htree hopen =>
    refine h.changeTree (fun hnone => ?_) (fun node hnode => ?_) fun node route hnode hroute => ?_
    · rw [hnone] at htree
      cases htree
      rw [Node.isFile_eq_false_iff, Node.listing_grow (Node.grow_snd_iff.2 hopen),
        Listing.isFile_withDirectories_iff]
      exact Node.isFile_eq_false_iff.1 h.root
    · exact (h.trees _ _ hnode).grow fun s hs => h.plain_of_mem_route hs
    · rw [htree] at hnode
      cases hnode
      rw [Node.listing_grow (Node.grow_snd_iff.2 hopen)]
      exact Listing.withDirectories_ne_none hroute
  | setMode path mode hnode =>
    refine h.changeTree (fun _ => ?_) (fun node hnode => ?_) fun node route hnode hroute => ?_
    · rw [Node.isFile_eq_false_iff, Node.listing_change_setMode, Listing.isFile_setMode_iff]
      exact Node.isFile_eq_false_iff.1 h.root
    · exact (h.trees _ _ hnode).change (f := fun node => node.setMode mode) (fun _ => rfl)
        fun sub hsub => ((h.trees _ _ hnode).at? hsub).setMode mode
    · rw [Node.listing_change_setMode, Listing.setMode]
      split
      · simpa using hroute
      · exact hroute
  | unlink path name _ hnode hname =>
    obtain ⟨tree, htree, hat⟩ := exists_tree_of_find? hnode
    rw [route_eq_parent_append hname] at hat
    exact h.cut htree hat
  | enter path hnode hdirectory => exact h.entered hnode
  | leave => exact h.left

/-- Places that no removed node is at or above stay where they are. -/
theorem Sound.attached_unlinked (h : m.Sound) (hattached : m.Attached) {path name : Text} {node : Node}
    (hnode : m.find? path = some node) (hname : (m.walk path).segments.getLast? = some name)
    (hkept : ∀ place ∈ m.here :: m.saved, ¬ m.absoluteSegments path <+: place.dir) :
    (m.unlinked path name).Attached := by
  obtain ⟨tree, htree, hat⟩ := exists_tree_of_find? hnode
  have hroute := h.walk_route (walk_tree (hattached m.here List.mem_cons_self) path)
  rw [route_eq_parent_append hname] at hat hroute
  have hplaces : ∀ place ∈ m.here :: m.saved,
      place.cut (m.walk path).tree ((m.walk path).start ++ (m.walk path).segments.dropLast ++ [name])
        m.detached.length = place := by
    intro place hplace
    have hnot : ¬ m.absoluteSegments path <+: place.route := by
      rw [(h.places place hplace).named (hattached place hplace)]
      exact hkept place hplace
    rw [Place.cut, if_neg]
    rintro ⟨-, hpre⟩
    exact hnot (hroute ▸ List.isPrefixOf_iff_prefix.1 hpre)
  intro place hplace
  obtain ⟨old, hold, rfl⟩ := exists_of_mem_cut htree hat hplace
  rw [hplaces old hold]
  exact hattached old hold

/-- **Working directories stay attached** unless one of them, or a directory above it, is taken away. -/
theorem Change.attached (h : m.Sound) (hattached : m.Attached) (hchange : Change removes m m')
    (hkept : ∀ path, removes path → ∀ place ∈ m.here :: m.saved, ¬ m.absoluteSegments path <+: place.dir) :
    m'.Attached := by
  cases hchange with
  | write path content | makeDir path =>
    unfold Attached
    rw [here_changeTree, saved_changeTree]
    exact hattached
  | setMode path mode =>
    unfold Attached changeAt
    rw [here_changeTree, saved_changeTree]
    exact hattached
  | unlink path name hremoves hnode hname =>
    exact h.attached_unlinked hattached hnode hname (hkept path hremoves)
  | enter path hnode hdirectory =>
    intro place hplace
    rcases List.mem_cons.1 hplace with rfl | hplace
    · exact walk_tree (hattached m.here List.mem_cons_self) path
    · exact hattached place hplace
  | leave =>
    unfold Attached Memory.left
    split
    · exact hattached
    · rename_i first rest hsaved
      intro place hplace
      exact hattached place (hsaved ▸ List.mem_cons_of_mem _ hplace)

end Memory

end Linework
