import Linework.Proofs.Memory.Change

/-!
# What the operations of a memory end in

One rule for each operation: the ways it can end in a sound memory, what each of them needs and what
it leaves. An operation that fails leaves the memory as it was, although nodes are created on
the way: a walk that a file stops has created nothing before it comes there, and a target that may
not be written is there already.
-/

namespace Linework

namespace Memory

open Op

variable {m : Memory} {path content : Text} {tree : Node} {route : List Text}

theorem changeTree_changeTree (m : Memory) (tree : Option Nat) (f g : Node → Node) :
    (m.changeTree tree f).changeTree tree g = m.changeTree tree fun node => g (f node) := by
  cases tree with
  | none => rfl
  | some index => simp [changeTree, List.modify_modify_eq, Function.comp_def]

/-- In a sound memory a walk grows its whole route in its tree. -/
theorem Sound.grow_walk (h : m.Sound) (htree : m.tree? (m.walk path).tree = some tree) :
    m.grow (m.walk path) =
      (m.changeTree (m.walk path).tree fun node => (node.grow (m.walk path).route).1,
        (tree.grow (m.walk path).route).2) := by
  obtain ⟨whole, hwhole, hstart⟩ := h.exists_tree path
  obtain rfl : tree = whole := Option.some.inj (htree.symm.trans hwhole)
  obtain ⟨sub, hsub⟩ := Option.ne_none_iff_exists'.1 hstart
  have hgrow := (h.trees _ _ htree).grow_append hsub (m.walk path).segments
  unfold grow
  dsimp only
  rw [htree, Option.bind_some, hsub, Option.map_some, Option.getD_some, Walk.route, hgrow]
  congr 1
  refine changeTree_congr fun node hnode => ?_
  rw [htree] at hnode
  cases hnode
  rw [hgrow]

theorem Sound.grow_of_blocked (h : m.Sound) (htree : m.tree? (m.walk path).tree = some tree)
    (hblocked : tree.listing.Blocked (m.walk path).route) : m.grow (m.walk path) = (m, false) := by
  have hfalse : (tree.grow (m.walk path).route).2 = false := by
    cases hgrow : (tree.grow (m.walk path).route).2 with
    | false => rfl
    | true => exact absurd hblocked (Node.grow_snd_iff.1 hgrow)
  rw [h.grow_walk htree, hfalse]
  congr 1
  refine changeTree_eq_self fun node hnode => ?_
  rw [htree] at hnode
  cases hnode
  exact (h.trees _ _ htree).grow_of_blocked hfalse

theorem Sound.grow_of_find? (h : m.Sound) {node : Node} (hnode : m.find? path = some node) :
    m.grow (m.walk path) = (m, true) := by
  obtain ⟨tree, htree, hat⟩ := exists_tree_of_find? hnode
  have hgrow := (h.trees _ _ htree).grow_of_at? hat
  rw [h.grow_walk htree, hgrow]
  congr 1
  refine changeTree_eq_self fun other hother => ?_
  rw [htree] at hother
  cases hother
  rw [hgrow]

theorem ends_existing {Q : Except Failure Node → Memory → Prop}
    (missing : m.find? path = none → Q (.error (.ofErrno Errno.noEntry path)) m)
    (found : ∀ node, m.find? path = some node → Q (.ok node) m) : Ends (existing path) m Q := by
  unfold existing
  refine .get ?_
  cases hfind : m.find? path with
  | none => exact ends_throw.2 (missing hfind)
  | some node => exact ends_pure.2 (found node hfind)

theorem ends_file {Q : Except Failure Text → Memory → Prop}
    (missing : m.find? path = none → Q (.error (.ofErrno Errno.noEntry path)) m)
    (directory : ∀ node, m.find? path = some node → node.content = none →
      Q (.error (.ofErrno Errno.isDirectory path)) m)
    (found : ∀ node content, m.find? path = some node → node.content = some content →
      Q (.ok content) m) : Ends (file path) m Q := by
  unfold file
  refine .bind (ends_existing missing fun node hnode => ?_)
  rw [andThen_ok]
  split
  · exact ends_pure.2 (found node _ hnode ‹_›)
  · exact ends_throw.2 (directory node hnode ‹_›)

/-- A file is read as its content. -/
theorem ends_read {node : Node} {content : Text} (hnode : m.find? path = some node)
    (hcontent : node.content = some content) (encoding : Text) :
    Ends (Storage.read encoding path) m fun result after => result = .ok content ∧ after = m := by
  refine ends_file (fun hnone => ?_) (fun other hother hnone => ?_) fun other found hother hfound => ?_
  · rw [hnode] at hnone
    cases hnone
  · cases hnode.symm.trans hother
    rw [hcontent] at hnone
    cases hnone
  · cases hnode.symm.trans hother
    cases hcontent.symm.trans hfound
    exact ⟨rfl, rfl⟩

theorem exists_file_of_read {encoding content : Text}
    (hread : (Op.outcome (Storage.read encoding path) m).1 = .ok content) :
    ∃ node, m.find? path = some node ∧ node.content = some content := by
  have hfile : Ends (Storage.read encoding path) m fun result _ => ∀ text, result = .ok text →
      ∃ node, m.find? path = some node ∧ node.content = some text := by
    refine ends_file (fun _ => nofun) (fun _ _ _ => nofun) fun node found hnode hfound => ?_
    rintro text ⟨⟩
    exact ⟨node, hnode, hfound⟩
  exact hfile.outcome content hread

theorem Sound.ends_make (h : m.Sound) {Q : Except Failure Walk → Memory → Prop}
    (htree : m.tree? (m.walk path).tree = some tree)
    (blocked : tree.listing.Blocked (m.walk path).route →
      Q (.error (.ofErrno Errno.notDirectory path)) m)
    (done : ¬ tree.listing.Blocked (m.walk path).route →
      Q (.ok (m.walk path)) (m.changeTree (m.walk path).tree fun node => (node.grow (m.walk path).route).1)) :
    Ends (make path) m Q := by
  unfold make
  refine .get ?_
  dsimp only
  by_cases hblocked : tree.listing.Blocked (m.walk path).route
  · rw [h.grow_of_blocked htree hblocked]
    exact .set (.unless (fun _ => blocked hblocked) fun hreached => absurd rfl hreached)
  · rw [h.grow_walk htree, Node.grow_snd_iff.2 hblocked]
    exact .set (.unless nofun fun _ => ends_pure.2 (done hblocked))

@[simp] theorem isFixed_changeTree (m : Memory) (tree : Option Nat) (f : Node → Node) (walk : Walk) :
    (m.changeTree tree f).isFixed walk = m.isFixed walk := by
  simp [isFixed]

/-- A fixed walk ends at a node that is there. -/
theorem Sound.find?_ne_none_of_isFixed (h : m.Sound) (hfixed : m.isFixed (m.walk path) = true) :
    m.find? path ≠ none := by
  simp only [isFixed, decide_eq_true_eq] at hfixed
  rw [find?_eq]
  rcases hfixed with ⟨htree, hroute⟩ | ⟨htree, hroute⟩
  · rw [htree, hroute]
    exact Option.some_ne_none m.root
  · rw [htree, hroute]
    exact (h.places m.here List.mem_cons_self).there

theorem find?_eq_none_iff (htree : m.tree? (m.walk path).tree = some tree) :
    m.find? path = none ↔ tree.listing (m.walk path).route = none := by
  rw [find?_eq, at?, htree, Option.bind_some, Node.listing_eq_none_iff]

theorem listing_below_of_find?_eq_none (htree : m.tree? (m.walk path).tree = some tree)
    (hnone : m.find? path = none) (name : Text) : tree.listing ((m.walk path).route ++ [name]) = none :=
  Node.listing_append_of_eq_none ((find?_eq_none_iff htree).1 hnone) [name]

theorem Sound.not_blocked_of_find? (h : m.Sound) (htree : m.tree? (m.walk path).tree = some tree)
    {node : Node} (hnode : m.find? path = some node) : ¬ tree.listing.Blocked (m.walk path).route := by
  refine (h.trees _ _ htree).isTree.not_blocked fun hnone => ?_
  rw [(find?_eq_none_iff htree).2 hnone] at hnode
  cases hnode

/-- Nothing lies below a file. -/
theorem Sound.listing_below_of_content (h : m.Sound) (htree : m.tree? (m.walk path).tree = some tree)
    {node : Node} {old : Text} (hnode : m.find? path = some node) (hold : node.content = some old)
    (name : Text) : tree.listing ((m.walk path).route ++ [name]) = none := by
  obtain ⟨whole, hwhole, hat⟩ := exists_tree_of_find? hnode
  cases htree.symm.trans hwhole
  have hfile : tree.listing.IsFile (m.walk path).route := by
    rw [Node.isFile_listing_iff hat, Node.isFile, hold, Option.isSome_some]
  exact Classical.not_not.1 fun hname =>
    List.cons_ne_nil _ _ ((h.trees _ _ htree).eq_nil_of_isFile hfile hname)

/-- Growing the way to what is there already leaves the memory as it was. -/
theorem Sound.changeTree_grow_of_find? (h : m.Sound) (htree : m.tree? (m.walk path).tree = some tree)
    (hfind : m.find? path ≠ none) :
    (m.changeTree (m.walk path).tree fun node => (node.grow (m.walk path).route).1) = m := by
  obtain ⟨node, hnode⟩ := Option.ne_none_iff_exists'.1 hfind
  have hgrow := h.grow_of_find? hnode
  rw [h.grow_walk htree] at hgrow
  exact congrArg Prod.fst hgrow

/-- What lies in a node after its way has grown lay in it before. -/
theorem listing_grow_below (hopen : ¬ tree.listing.Blocked route) (name : Text) :
    (tree.grow route).1.listing (route ++ [name]) = tree.listing (route ++ [name]) := by
  rw [Node.listing_grow (Node.grow_snd_iff.2 hopen), Listing.withDirectories_below]

theorem Sound.ends_write (h : m.Sound) {Q : Except Failure Unit → Memory → Prop}
    (htree : m.tree? (m.walk path).tree = some tree)
    (blocked : tree.listing.Blocked (m.walk path).route →
      Q (.error (.ofErrno Errno.notDirectory path)) m)
    (refused : ¬ tree.listing.Blocked (m.walk path).route →
      (m.isFixed (m.walk path) = true ∨ ∃ name, tree.listing ((m.walk path).route ++ [name]) ≠ none) →
      Q (.error (.ofErrno Errno.isDirectory path)) m)
    (done : ¬ tree.listing.Blocked (m.walk path).route → m.isFixed (m.walk path) = false →
      (∀ name, tree.listing ((m.walk path).route ++ [name]) = none) →
      Q (.ok ()) (m.changeTree (m.walk path).tree (Node.overwrite content (m.walk path).route))) :
    Ends (write path content) m Q := by
  unfold write
  refine .bind (h.ends_make htree blocked fun hopen => ?_)
  obtain ⟨sub, hsub⟩ := Node.exists_at?_grow hopen
  have htarget : (m.changeTree (m.walk path).tree fun node => (node.grow (m.walk path).route).1).nodeAt?
      (m.walk path) = some sub := by
    rw [nodeAt?, tree?_changeTree, if_pos rfl, htree]
    exact hsub
  have hoccupied : sub.hasChildren = true ↔
      ∃ name, tree.listing ((m.walk path).route ++ [name]) ≠ none := by
    simp only [Node.hasChildren_iff hsub, listing_grow_below hopen]
  refine .get (.unless (fun hcond => ?_) fun hcond => ?_)
  · rw [isFixed_changeTree, htarget, Option.any_some, Bool.or_eq_true, hoccupied] at hcond
    have hfind : m.find? path ≠ none := by
      rcases hcond with hfixed | ⟨name, hname⟩
      · exact h.find?_ne_none_of_isFixed hfixed
      · exact fun hnone => hname (listing_below_of_find?_eq_none htree hnone name)
    rw [h.changeTree_grow_of_find? htree hfind]
    exact refused hopen hcond
  · rw [isFixed_changeTree, htarget, Option.any_some, Bool.or_eq_true, hoccupied, not_or] at hcond
    refine .set (ends_note.2 ?_)
    rw [changeAt, changeTree_changeTree]
    refine done hopen (by simpa using hcond.1) fun name => ?_
    exact Classical.not_not.1 fun hname => hcond.2 ⟨name, hname⟩

/-- A file is overwritten, unless it is in the place of the working directory. -/
theorem Sound.ends_overwrite (h : m.Sound) {Q : Except Failure Unit → Memory → Prop} {node : Node} {old : Text}
    (hnode : m.find? path = some node) (hold : node.content = some old)
    (fixed : m.isFixed (m.walk path) = true → Q (.error (.ofErrno Errno.isDirectory path)) m)
    (done : m.isFixed (m.walk path) = false →
      Q (.ok ()) (m.changeTree (m.walk path).tree (Node.overwrite content (m.walk path).route))) :
    Ends (write path content) m Q := by
  obtain ⟨tree, htree, -⟩ := exists_tree_of_find? hnode
  refine h.ends_write htree (fun hblocked => ?_) (fun _ hrefused => ?_) fun _ hfree _ => done hfree
  · exact absurd hblocked (h.not_blocked_of_find? htree hnode)
  · rcases hrefused with hfixed | ⟨name, hname⟩
    · exact fixed hfixed
    · exact absurd (h.listing_below_of_content htree hnode hold name) hname

theorem Sound.ends_makeDir (h : m.Sound) {Q : Except Failure Unit → Memory → Prop}
    (htree : m.tree? (m.walk path).tree = some tree)
    (blocked : tree.listing.Blocked (m.walk path).route →
      Q (.error (.ofErrno Errno.notDirectory path)) m)
    (file : tree.listing.IsFile (m.walk path).route → Q (.error (.ofErrno Errno.entryExists path)) m)
    (done : ¬ tree.listing.Blocked (m.walk path).route → ¬ tree.listing.IsFile (m.walk path).route →
      Q (.ok ()) (m.changeTree (m.walk path).tree fun node => (node.grow (m.walk path).route).1)) :
    Ends (makeDir path) m Q := by
  unfold makeDir
  refine .bind (h.ends_make htree blocked fun hopen => ?_)
  obtain ⟨sub, hsub⟩ := Node.exists_at?_grow hopen
  have htarget : (m.changeTree (m.walk path).tree fun node => (node.grow (m.walk path).route).1).nodeAt?
      (m.walk path) = some sub := by
    rw [nodeAt?, tree?_changeTree, if_pos rfl, htree]
    exact hsub
  have hfile : sub.isFile = true ↔ tree.listing.IsFile (m.walk path).route := by
    rw [← Node.isFile_listing_iff hsub, Node.listing_grow (Node.grow_snd_iff.2 hopen)]
    exact Listing.isFile_withDirectories_iff
  refine .get ?_
  split
  · rename_i hcond
    rw [htarget, Option.any_some, hfile] at hcond
    have hfind : m.find? path ≠ none := fun hnone =>
      hcond.ne_none ((find?_eq_none_iff htree).1 hnone)
    rw [h.changeTree_grow_of_find? htree hfind]
    exact ends_throw.2 (file hcond)
  · rename_i hcond
    rw [htarget, Option.any_some, hfile] at hcond
    exact ends_pure.2 (done hopen hcond)

theorem ends_unlink {allowed : Node → Bool} {Q : Except Failure Unit → Memory → Prop}
    (missing : m.find? path = none → Q (.error (.ofErrno Errno.noEntry path)) m)
    (refused : ∀ node, m.find? path = some node → (allowed node = false ∨ (m.walk path).segments = []) →
      Q (.error (.ofErrno Errno.notPermitted path)) m)
    (done : ∀ node name, m.find? path = some node → allowed node = true →
      (m.walk path).segments.getLast? = some name → Q (.ok ()) (m.unlinked path name)) :
    Ends (unlink path allowed) m Q := by
  unfold unlink
  refine .bind (ends_existing missing fun node hnode => .get ?_)
  dsimp only
  split
  · exact ends_setStore.2 (done node _ hnode ‹_› ‹_›)
  · rename_i hother
    refine ends_throw.2 (refused node hnode ?_)
    cases hallowed : allowed node with
    | false => exact .inl rfl
    | true =>
      refine .inr (List.getLast?_eq_none_iff.1 ?_)
      cases hlast : (m.walk path).segments.getLast? with
      | none => rfl
      | some name => exact absurd hlast (hother name hallowed)

theorem Sound.ends_touch (h : m.Sound) {Q : Except Failure Unit → Memory → Prop}
    (htree : m.tree? (m.walk path).tree = some tree)
    (directory : ∀ node, m.find? path = some node → node.isFile = false →
      Q (.error (.ofErrno Errno.isDirectory path)) m)
    (there : ∀ node, m.find? path = some node → node.isFile = true → Q (.ok ()) m)
    (blocked : m.find? path = none → tree.listing.Blocked (m.walk path).route →
      Q (.error (.ofErrno Errno.notDirectory path)) m)
    (created : m.find? path = none → ¬ tree.listing.Blocked (m.walk path).route →
      m.isFixed (m.walk path) = false →
      Q (.ok ()) (m.changeTree (m.walk path).tree (Node.overwrite [] (m.walk path).route))) :
    Ends (Storage.touch path) m Q := by
  refine .get ?_
  split
  · rename_i node hnode
    split
    · rename_i hdirectory
      exact ends_throw.2 (directory node hnode (by simpa [Node.isDirectory] using hdirectory))
    · rename_i hfile
      exact ends_pure.2 (there node hnode (by simpa [Node.isDirectory] using hfile))
  · rename_i hnone
    refine h.ends_write htree (blocked hnone) (fun hopen hrefused => ?_) fun hopen hfree _ =>
      created hnone hopen hfree
    rcases hrefused with hfixed | ⟨name, hname⟩
    · exact absurd hnone (h.find?_ne_none_of_isFixed hfixed)
    · exact absurd (listing_below_of_find?_eq_none htree hnone name) hname

theorem ends_enter {Q : Except Failure Unit → Memory → Prop}
    (missing : m.find? path = none → Q (.error (.ofErrno Errno.noEntry path)) m)
    (file : ∀ node, m.find? path = some node → node.isFile = true →
      Q (.error (.ofErrno Errno.notDirectory path)) m)
    (done : ∀ node, m.find? path = some node → node.isFile = false → Q (.ok ()) (m.entered path)) :
    Ends (Storage.enter path) m Q := by
  refine .bind (ends_existing missing fun node hnode => .unless (file node hnode) fun hdirectory => ?_)
  exact .get (ends_setStore.2 (done node hnode (by simpa using hdirectory)))

theorem ends_setMode {mode : Int} {Q : Except Failure Unit → Memory → Prop}
    (missing : m.find? path = none → Q (.error (.ofErrno Errno.noEntry path)) m)
    (done : ∀ node, m.find? path = some node →
      Q (.ok ()) (m.changeAt (m.walk path) fun node => node.setMode mode)) :
    Ends (Storage.setMode path mode) m Q :=
  .bind (ends_existing missing fun node hnode => .get (ends_setStore.2 (done node hnode)))

theorem ends_mode {Q : Except Failure Int → Memory → Prop}
    (missing : m.find? path = none → Q (.error (.ofErrno Errno.noEntry path)) m)
    (found : ∀ node, m.find? path = some node → Q (.ok node.mode) m) :
    Ends (Storage.mode path) m Q :=
  .bind (ends_existing missing fun node hnode => ends_pure.2 (found node hnode))

theorem ends_entries {Q : Except Failure (List Text) → Memory → Prop}
    (missing : m.find? path = none → Q (.error (.ofErrno Errno.noEntry path)) m)
    (file : ∀ node, m.find? path = some node → node.isFile = true →
      Q (.error (.ofErrno Errno.notDirectory path)) m)
    (found : ∀ node, m.find? path = some node → node.isFile = false → Q (.ok node.names) m) :
    Ends (Storage.entries path) m Q :=
  .bind (ends_existing missing fun node hnode => .unless (file node hnode) fun hdirectory =>
    ends_pure.2 (found node hnode (by simpa using hdirectory)))

/-! ## Edits -/

variable {files lines : Settings} {e : Edit} {node : Node} {old : Text}

theorem ends_readLines {Q : Except Failure (List Text) → Memory → Prop}
    (missing : m.find? path = none → Q (.error (.ofErrno Errno.noEntry path)) m)
    (directory : ∀ node, m.find? path = some node → node.content = none →
      Q (.error (.ofErrno Errno.isDirectory path)) m)
    (found : ∀ node content, m.find? path = some node → node.content = some content →
      Q (.ok (Line.split files.newline.text content)) m) :
    Ends (Storage.readLines files path) m Q :=
  .bind (ends_file missing directory fun node content hnode hcontent =>
    ends_pure.2 (found node content hnode hcontent))

/-- An edit of a file that is there. -/
theorem Sound.ends_rewrite (h : m.Sound) {Q : Except Failure Unit → Memory → Prop}
    (hnode : m.find? path = some node) (hold : node.content = some old)
    (unspliced : ∀ failure, e.splice lines path (Line.split files.newline.text old) = .error failure →
      Q (.error failure) m)
    (fixed : ∀ splice, e.splice lines path (Line.split files.newline.text old) = .ok splice →
      m.isFixed (m.walk path) = true → Q (.error (.ofErrno Errno.isDirectory path)) m)
    (done : ∀ splice, e.splice lines path (Line.split files.newline.text old) = .ok splice →
      m.isFixed (m.walk path) = false →
      Q (.ok ()) (m.changeTree (m.walk path).tree
        (Node.overwrite (splice.apply (Line.split files.newline.text old)).flatten (m.walk path).route))) :
    Ends (Storage.rewrite files lines path e) m Q := by
  refine Storage.ends_rewrite (.map ((ends_read hnode hold files.encoding).mono ?_))
  rintro _ _ ⟨rfl, rfl⟩
  dsimp only [Except.map]
  cases hsplice : e.splice lines path (Line.split files.newline.text old) with
  | error failure => exact unspliced failure hsplice
  | ok splice => exact h.ends_overwrite hnode hold (fixed splice hsplice) (done splice hsplice)

/-- An edit of a path with no file, when it does not create one. -/
theorem ends_rewrite_of_no_file {Q : Except Failure Unit → Memory → Prop}
    (missing : m.find? path = none → Q (.error (.ofErrno Errno.noEntry path)) m)
    (directory : ∀ node, m.find? path = some node → node.content = none →
      Q (.error (.ofErrno Errno.isDirectory path)) m)
    (hnot : ∀ node, m.find? path = some node → node.content = none) :
    Ends (Storage.rewrite files lines path e) m Q := by
  refine Storage.ends_rewrite (ends_readLines missing directory fun node content hnode hcontent => ?_)
  rw [hnot node hnode] at hcontent
  cases hcontent

theorem walk_changeTree (m : Memory) (tree : Option Nat) (f : Node → Node) (path : Text) :
    (m.changeTree tree f).walk path = m.walk path := by
  simp only [walk, absoluteSegments, pwd, here_changeTree]

/-- What was written is found again. -/
theorem find?_overwrite (htree : m.tree? (m.walk path).tree = some tree)
    (hopen : ¬ tree.listing.Blocked (m.walk path).route) (content : Text) :
    ∃ node, (m.changeTree (m.walk path).tree (Node.overwrite content (m.walk path).route)).find? path =
      some node ∧ node.content = some content := by
  have hlisting : (tree.overwrite content (m.walk path).route).listing (m.walk path).route =
      some (.file Node.fileMode content) := by
    rw [Node.listing_overwrite hopen, Listing.write, Listing.put, if_pos rfl]
  obtain ⟨node, hnode, hcontent⟩ := Node.exists_file_of_listing hlisting
  refine ⟨node, ?_, hcontent⟩
  rw [find?_eq, walk_changeTree, at?, tree?_changeTree, if_pos rfl, htree]
  exact hnode

/-- An edit of the empty file that it has created writes the file once more, in the same place. -/
theorem Sound.ends_rewrite_created (h : m.Sound) {Q : Except Failure Unit → Memory → Prop}
    (htree : m.tree? (m.walk path).tree = some tree) (hcreates : e.creates = true) (hnone : m.find? path = none)
    (hopen : ¬ tree.listing.Blocked (m.walk path).route) (hfree : m.isFixed (m.walk path) = false)
    (created : ∀ splice, e.splice lines path [] = .ok splice →
      Q (.ok ()) (m.changeTree (m.walk path).tree
        (Node.overwrite (splice.apply []).flatten (m.walk path).route))) :
    Ends (Storage.rewrite files lines path e)
      (m.changeTree (m.walk path).tree (Node.overwrite [] (m.walk path).route)) Q := by
  have hbelow := listing_below_of_find?_eq_none htree hnone
  have hchange : Change (fun _ => False) m _ := .write m path [] htree hopen hfree hbelow
  obtain ⟨node, hnode, hcontent⟩ := find?_overwrite htree hopen []
  refine (hchange.sound h).ends_rewrite hnode hcontent (fun failure hfailure => ?_)
    (fun splice _ hfixed => ?_) fun splice hsplice _ => ?_
  · obtain ⟨splice, hsplice⟩ := Edit.splice_of_creates hcreates lines path (Line.split files.newline.text [])
    rw [hsplice] at hfailure
    cases hfailure
  · rw [isFixed_changeTree, walk_changeTree, hfree] at hfixed
    cases hfixed
  · have hlast : ∀ whole, m.tree? (m.walk path).tree = some whole →
        Node.overwrite (splice.apply []).flatten (m.walk path).route
          (Node.overwrite [] (m.walk path).route whole) =
        Node.overwrite (splice.apply []).flatten (m.walk path).route whole := by
      intro whole hwhole
      obtain rfl : tree = whole := Option.some.inj (htree.symm.trans hwhole)
      exact (h.trees _ _ htree).overwrite_overwrite (fun s hs => h.plain_of_mem_route hs) hopen hbelow _ _
    rw [Line.split_nil] at hsplice ⊢
    rw [walk_changeTree, changeTree_changeTree, changeTree_congr hlast]
    exact created splice hsplice

/-- **How an edit ends.** It fails and leaves the memory as it was, although it may be two operations
that write, or it writes the spliced lines. -/
theorem Sound.ends_edit (h : m.Sound) {Q : Except Failure Unit → Memory → Prop}
    (htree : m.tree? (m.walk path).tree = some tree)
    (missing : e.creates = false → m.find? path = none → Q (.error (.ofErrno Errno.noEntry path)) m)
    (directory : ∀ node, m.find? path = some node → node.content = none →
      Q (.error (.ofErrno Errno.isDirectory path)) m)
    (blocked : e.creates = true → m.find? path = none → tree.listing.Blocked (m.walk path).route →
      Q (.error (.ofErrno Errno.notDirectory path)) m)
    (unspliced : ∀ node old failure, m.find? path = some node → node.content = some old →
      e.splice lines path (Line.split files.newline.text old) = .error failure →
      Q (.error failure) m)
    (fixed : ∀ node old splice, m.find? path = some node → node.content = some old →
      e.splice lines path (Line.split files.newline.text old) = .ok splice →
      m.isFixed (m.walk path) = true → Q (.error (.ofErrno Errno.isDirectory path)) m)
    (done : ∀ node old splice, m.find? path = some node → node.content = some old →
      e.splice lines path (Line.split files.newline.text old) = .ok splice →
      m.isFixed (m.walk path) = false →
      Q (.ok ()) (m.changeTree (m.walk path).tree
        (Node.overwrite (splice.apply (Line.split files.newline.text old)).flatten (m.walk path).route)))
    (created : ∀ splice, e.creates = true → m.find? path = none →
      ¬ tree.listing.Blocked (m.walk path).route → m.isFixed (m.walk path) = false →
      e.splice lines path [] = .ok splice →
      Q (.ok ()) (m.changeTree (m.walk path).tree
        (Node.overwrite (splice.apply []).flatten (m.walk path).route))) :
    Ends (Storage.edit files lines path e) m Q := by
  have hfile : ∀ node old, m.find? path = some node → node.content = some old →
      Ends (Storage.rewrite files lines path e) m Q := fun node old hnode hold =>
    h.ends_rewrite hnode hold (fun failure hfailure => unspliced node old failure hnode hold hfailure)
      (fun splice hsplice hfixed => fixed node old splice hnode hold hsplice hfixed)
      fun splice hsplice hfree => done node old splice hnode hold hsplice hfree
  rw [Storage.edit_eq]
  split
  · rename_i hcreates
    refine .bind (h.ends_touch htree (fun node hnode hno => ?_) (fun node hnode hisFile => ?_)
      (blocked hcreates) fun hnone hopen hfree => ?_)
    · exact directory node hnode (by simpa [Node.isFile] using hno)
    · obtain ⟨old, hold⟩ := Option.isSome_iff_exists.1 hisFile
      exact hfile node old hnode hold
    · exact h.ends_rewrite_created htree hcreates hnone hopen hfree fun splice hsplice =>
        created splice hcreates hnone hopen hfree hsplice
  · rename_i hcreates
    have hnot : ∀ hno : ∀ node, m.find? path = some node → node.content = none,
        Ends (Storage.rewrite files lines path e) m Q := fun hno =>
      ends_rewrite_of_no_file (missing (by simpa using hcreates)) directory hno
    cases hfind : m.find? path with
    | none => exact hnot fun node hnode => by rw [hfind] at hnode; cases hnode
    | some node =>
      cases hcontent : node.content with
      | some old => exact hfile node old hfind hcontent
      | none =>
        refine hnot fun other hother => ?_
        rw [hfind] at hother
        cases hother
        exact hcontent

end Memory

end Linework
