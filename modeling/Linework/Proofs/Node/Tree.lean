import Linework.Node
import Linework.Proofs.Path.Segments

/-!
# Trees of nodes

What a look-up finds after a child was put, taken out or changed, and the shape that every node of
a tree keeps: a file has no children, and children have names of their own that are plain
segments. A tree is `Sound` when every node that can be reached in it is `Tidy`. Changes at the end of a
route keep that (`Sound.change`, `Sound.grow`).
-/

namespace Linework.Node

variable {node child : Node} {name : Text}

theorem segment_of_get? (h : node.get? name = some child) : child.segment = name := by
  simpa using List.find?_some h

theorem mem_of_get? (h : node.get? name = some child) : child ∈ node.children :=
  List.mem_of_find?_eq_some h

@[simp] theorem put_segment (node child : Node) : (node.put child).segment = node.segment := rfl

@[simp] theorem put_isFile (node child : Node) : (node.put child).isFile = node.isFile := rfl

/-- Replacing the children of one name is not seen under another. -/
theorem find?_map_replace (children : List Node) (child : Node) (name : Text) :
    (children.map fun old => if old.segment = child.segment then child else old).find?
        (fun old => old.segment = name) =
      if name = child.segment then
        (children.find? fun old => old.segment = name).map fun _ => child
      else children.find? fun old => old.segment = name := by
  induction children with
  | nil => simp
  | cons first rest ih =>
    rw [List.map_cons, List.find?_cons, List.find?_cons, ih]
    by_cases hchild : first.segment = child.segment
    · by_cases hname : name = child.segment
      · simp [hchild, hname]
      · simp [hchild, hname, Ne.symm hname]
    · by_cases hname : first.segment = name
      · have hne : name ≠ child.segment := hname ▸ hchild
        simp [hname, hne]
      · simp [hchild, hname]

theorem get?_put (node child : Node) (name : Text) :
    (node.put child).get? name = if name = child.segment then some child else node.get? name := by
  unfold put get?
  dsimp only
  cases hfound : node.children.find? fun old => old.segment = child.segment with
  | some old =>
    rw [Option.isSome_some, if_pos rfl, find?_map_replace]
    split
    · rename_i hname
      rw [hname, hfound, Option.map_some]
    · rfl
  | none =>
    rw [Option.isSome_none, if_neg (by simp), List.find?_append]
    split
    · rename_i hname
      rw [hname, hfound]
      simp
    · rename_i hname
      simp [Ne.symm hname]

theorem get?_erase (node : Node) (erased name : Text) :
    (node.erase erased).get? name = if name = erased then none else node.get? name := by
  unfold erase get?
  rw [List.find?_filter]
  split
  · rename_i hname
    simp [hname]
  · rename_i hname
    congr 1
    funext old
    by_cases h : old.segment = name
    · simp [h, hname]
    · simp [h]

theorem getOrFresh_segment (node : Node) (name : Text) : (node.getOrFresh name).segment = name := by
  unfold getOrFresh
  cases h : node.get? name with
  | none => rfl
  | some child => exact segment_of_get? h

/-! ## Routes -/

@[simp] theorem at?_nil (node : Node) : node.at? [] = some node := rfl

theorem at?_cons (node : Node) (name : Text) (rest : List Text) :
    node.at? (name :: rest) = (node.get? name).bind (at? rest) := rfl

theorem at?_append (route rest : List Text) (node : Node) :
    node.at? (route ++ rest) = (node.at? route).bind (at? rest) := by
  induction route generalizing node with
  | nil => rfl
  | cons name more ih =>
    rw [List.cons_append, at?_cons, at?_cons]
    cases node.get? name with
    | none => rfl
    | some child => exact ih child

theorem at?_put (node child : Node) (name : Text) (rest : List Text) :
    (node.put child).at? (name :: rest) =
      if name = child.segment then child.at? rest else node.at? (name :: rest) := by
  rw [at?_cons, get?_put]
  split <;> rfl

theorem change_segment {f : Node → Node} (hf : ∀ n, (f n).segment = n.segment) (route : List Text)
    (node : Node) : (change f route node).segment = node.segment := by
  cases route with
  | nil => exact hf node
  | cons name rest =>
    rw [change]
    split <;> rfl

theorem grow_segment (route : List Text) (node : Node) : (node.grow route).1.segment = node.segment := by
  cases route with
  | nil => rfl
  | cons name rest =>
    rw [grow]
    split <;> rfl

/-- What lies at the end of the changed route, or beyond. -/
theorem at?_change_append {f : Node → Node} (hf : ∀ n, (f n).segment = n.segment)
    (route rest : List Text) (node : Node) :
    (change f route node).at? (route ++ rest) = (node.at? route).bind fun n => (f n).at? rest := by
  induction route generalizing node with
  | nil => rfl
  | cons name more ih =>
    rw [change, at?_cons]
    cases hget : node.get? name with
    | none => simp [at?_cons, hget]
    | some child =>
      dsimp only
      have hname : (change f more child).segment = name := by
        rw [change_segment hf, segment_of_get? hget]
      rw [List.cons_append, at?_put, if_pos hname.symm]
      exact ih child

/-! ## Sound trees -/

/-- What holds of a single node: a file has no children, the children have plain names of their
own, and the mode is one of nine bits. -/
structure Tidy (node : Node) : Prop where
  exclusive : node.isFile = true → node.children = []
  distinct : (node.children.map segment).Nodup
  plain : ∀ child ∈ node.children, Path.Plain child.segment
  mode_nonneg : 0 ≤ node.mode
  mode_lt : node.mode < 512

/-- Every node that can be reached is tidy. -/
def Sound (node : Node) : Prop := ∀ route sub, node.at? route = some sub → sub.Tidy

namespace Sound

theorem tidy (h : node.Sound) : node.Tidy := h [] node rfl

theorem at? (h : node.Sound) {route : List Text} {sub : Node} (hsub : node.at? route = some sub) :
    sub.Sound := fun rest below hbelow => h (route ++ rest) below (by rw [at?_append, hsub]; exact hbelow)

theorem get? (h : node.Sound) (hchild : node.get? name = some child) : child.Sound := by
  have hat : node.at? [name] = some child := by
    rw [at?_cons, hchild]
    rfl
  exact h.at? hat

theorem of_children (htidy : node.Tidy)
    (hchildren : ∀ name child, node.get? name = some child → child.Sound) : node.Sound := by
  intro route sub hsub
  cases route with
  | nil =>
    cases hsub
    exact htidy
  | cons name rest =>
    obtain ⟨child, hchild, hrest⟩ := Option.bind_eq_some_iff.1 hsub
    exact hchildren name child hchild rest sub hrest

theorem isFile_eq_false (h : node.Sound) (hchild : node.get? name = some child) :
    node.isFile = false := by
  cases hfile : node.isFile with
  | false => rfl
  | true =>
    have hmem := mem_of_get? hchild
    rw [h.tidy.exclusive hfile] at hmem
    cases hmem

theorem plain_of_get? (h : node.Sound) (hchild : node.get? name = some child) : Path.Plain name :=
  segment_of_get? hchild ▸ h.tidy.plain child (mem_of_get? hchild)

/-- Whatever leads to a node is made of plain segments. -/
theorem plain_of_at? (h : node.Sound) {route : List Text} {sub : Node} (hsub : node.at? route = some sub) :
    ∀ s ∈ route, Path.Plain s := by
  induction route generalizing node with
  | nil => exact fun s hs => nomatch hs
  | cons name rest ih =>
    obtain ⟨child, hchild, hrest⟩ := Option.bind_eq_some_iff.1 hsub
    intro s hs
    rcases List.mem_cons.1 hs with rfl | hs
    · exact h.plain_of_get? hchild
    · exact ih (h.get? hchild) hrest s hs

end Sound

theorem get?_eq_none_iff : node.get? name = none ↔ name ∉ node.children.map segment := by
  simp [get?, List.find?_eq_none]

theorem map_replace_of_not_mem {children : List Node} {child : Node}
    (h : child.segment ∉ children.map segment) :
    (children.map fun old => if old.segment = child.segment then child else old) = children := by
  refine (List.map_congr_left fun old hold => ?_).trans (List.map_id children)
  rw [if_neg, id]
  intro heq
  exact h (heq ▸ List.mem_map_of_mem hold)

theorem put_of_isSome (h : (node.get? child.segment).isSome = true) :
    node.put child =
      { node with
        children := node.children.map fun old => if old.segment = child.segment then child else old } := by
  unfold put
  rw [if_pos h]

/-- Putting a child where it is already changes nothing. -/
theorem put_eq_self (hdistinct : (node.children.map segment).Nodup)
    (h : node.get? child.segment = some child) : node.put child = node := by
  have hmap : ∀ children : List Node, (children.map segment).Nodup →
      children.find? (fun old => old.segment = child.segment) = some child →
      (children.map fun old => if old.segment = child.segment then child else old) = children := by
    intro children
    induction children with
    | nil => simp
    | cons first rest ih =>
      intro hnodup hfind
      rw [List.map_cons, List.nodup_cons] at hnodup
      rw [List.map_cons]
      rw [List.find?_cons] at hfind
      by_cases hfirst : first.segment = child.segment
      · simp only [hfirst, decide_true, Option.some.injEq] at hfind
        rw [if_pos hfirst, map_replace_of_not_mem (hfirst ▸ hnodup.1), hfind]
      · simp only [hfirst, decide_false] at hfind
        rw [if_neg hfirst, ih hnodup.2 hfind]
  rw [put_of_isSome (by rw [h, Option.isSome_some]), hmap _ hdistinct h]
  cases node
  rfl

/-- The last child that was put under a name stays. -/
theorem put_put {first last : Node} (h : first.segment = last.segment) :
    (node.put first).put last = node.put last := by
  have hsome : ((node.put first).get? last.segment).isSome = true := by
    rw [get?_put, if_pos h.symm, Option.isSome_some]
  rw [put_of_isSome hsome]
  unfold put
  dsimp only
  rw [h]
  congr 1
  split
  · rw [List.map_map]
    refine List.map_congr_left fun old _ => ?_
    by_cases hold : old.segment = last.segment <;> simp [hold, h]
  · rename_i hnone
    rw [List.map_append, map_replace_of_not_mem (get?_eq_none_iff.1 (by simpa using hnone))]
    simp [h]

/-- Two changes at a route, one after the other. -/
theorem change_change {f g : Node → Node} (hf : ∀ n, (f n).segment = n.segment)
    (hg : ∀ n, (g n).segment = n.segment) (route : List Text) (node : Node) :
    change g route (change f route node) = change (fun n => g (f n)) route node := by
  induction route generalizing node with
  | nil => rfl
  | cons name rest ih =>
    cases hget : node.get? name with
    | none => simp [change, hget]
    | some child =>
      have hname : (change f rest child).segment = name := by
        rw [change_segment hf, segment_of_get? hget]
      have hput : (node.put (change f rest child)).get? name = some (change f rest child) := by
        rw [get?_put, if_pos hname.symm]
      simp only [change, hget, hput]
      rw [put_put (change_segment hg rest _).symm, ih]

theorem mem_put {old : Node} (h : old ∈ (node.put child).children) :
    old ∈ node.children ∨ old = child := by
  unfold put at h
  dsimp only at h
  split at h
  · obtain ⟨was, hwas, rfl⟩ := List.mem_map.1 h
    split
    · exact .inr rfl
    · exact .inl hwas
  · simpa using h

theorem map_segment_put (node child : Node) :
    (node.put child).children.map segment =
      if (node.get? child.segment).isSome then node.children.map segment
      else node.children.map segment ++ [child.segment] := by
  unfold put
  dsimp only
  split
  · rw [List.map_map]
    refine List.map_congr_left fun old _ => ?_
    by_cases hold : old.segment = child.segment <;> simp [hold]
  · simp

theorem Tidy.put (h : node.Tidy) (hdir : node.isFile = false) (hplain : Path.Plain child.segment) :
    (node.put child).Tidy where
  exclusive hfile := by simp [hdir] at hfile
  distinct := by
    rw [map_segment_put]
    split
    · exact h.distinct
    · rename_i hnone
      have hnotMem := get?_eq_none_iff.1 (by simpa using hnone)
      rw [List.nodup_append]
      refine ⟨h.distinct, by simp, ?_⟩
      intro one hone other hother heq
      rw [List.mem_singleton] at hother
      exact hnotMem (hother ▸ heq ▸ hone)
  plain old hold := by
    rcases mem_put hold with hold | rfl
    · exact h.plain old hold
    · exact hplain
  mode_nonneg := h.mode_nonneg
  mode_lt := h.mode_lt

theorem Sound.put (h : node.Sound) (hdir : node.isFile = false) (hchild : child.Sound)
    (hplain : Path.Plain child.segment) : (node.put child).Sound := by
  refine .of_children (h.tidy.put hdir hplain) fun name other hother => ?_
  rw [get?_put] at hother
  split at hother
  · cases hother
    exact hchild
  · exact h.get? hother

theorem Tidy.erase (h : node.Tidy) (name : Text) : (node.erase name).Tidy where
  exclusive hfile := by simp [Node.erase, h.exclusive hfile]
  distinct := h.distinct.sublist (List.filter_sublist.map segment)
  plain old hold := h.plain old (List.mem_filter.1 hold).1
  mode_nonneg := h.mode_nonneg
  mode_lt := h.mode_lt

theorem Sound.erase (h : node.Sound) (name : Text) : (node.erase name).Sound := by
  refine .of_children (h.tidy.erase name) fun other child hchild => ?_
  rw [get?_erase] at hchild
  split at hchild
  · cases hchild
  · exact h.get? hchild

theorem permissions_bounds (mode : Int) : 0 ≤ permissions mode ∧ permissions mode < 512 := by
  unfold permissions
  omega

theorem Sound.setMode (h : node.Sound) (mode : Int) : (node.setMode mode).Sound :=
  .of_children
    { exclusive := h.tidy.exclusive
      distinct := h.tidy.distinct
      plain := h.tidy.plain
      mode_nonneg := (permissions_bounds mode).1
      mode_lt := (permissions_bounds mode).2 }
    fun _ _ hchild => h.get? hchild

theorem Sound.write (h : node.Sound) (hempty : node.children = []) (content : Text) :
    (node.write content).Sound :=
  .of_children
    { exclusive := fun _ => hempty
      distinct := h.tidy.distinct
      plain := h.tidy.plain
      mode_nonneg := by simp [Node.write, fileMode]
      mode_lt := by simp [Node.write, fileMode] }
    fun _ _ hchild => h.get? hchild

theorem sound_fresh (name : Text) : (fresh name).Sound :=
  .of_children
    { exclusive := fun _ => rfl
      distinct := List.nodup_nil
      plain := fun _ hmem => nomatch hmem
      mode_nonneg := by simp [fresh, directoryMode]
      mode_lt := by simp [fresh, directoryMode] }
    fun _ _ hchild => nomatch mem_of_get? hchild

/-- A tree stays sound when the node at the end of a route does. -/
theorem Sound.change {f : Node → Node} (hf : ∀ n, (f n).segment = n.segment) {route : List Text}
    (h : node.Sound) (hsub : ∀ sub, node.at? route = some sub → (f sub).Sound) :
    (change f route node).Sound := by
  induction route generalizing node with
  | nil => exact hsub node rfl
  | cons name rest ih =>
    rw [Node.change]
    split
    · rename_i child hchild
      have hname : (Node.change f rest child).segment = name := by
        rw [change_segment hf, segment_of_get? hchild]
      refine h.put (h.isFile_eq_false hchild) (ih (h.get? hchild) fun sub hat => ?_) ?_
      · exact hsub sub (by rw [at?_cons, hchild]; exact hat)
      · exact hname ▸ h.plain_of_get? hchild
    · exact h

theorem Sound.getOrFresh (h : node.Sound) (name : Text) : (node.getOrFresh name).Sound := by
  unfold Node.getOrFresh
  cases hget : node.get? name with
  | none => exact sound_fresh name
  | some child => exact h.get? hget

theorem Sound.grow (h : node.Sound) {route : List Text} (hplain : ∀ s ∈ route, Path.Plain s) :
    (node.grow route).1.Sound := by
  induction route generalizing node with
  | nil => exact h
  | cons name rest ih =>
    rw [Node.grow]
    split
    · exact h
    · rename_i hfile
      refine h.put (by simpa using hfile)
        (ih (h.getOrFresh name) fun s hs => hplain s (List.mem_cons_of_mem _ hs)) ?_
      rw [grow_segment, getOrFresh_segment]
      exact hplain name List.mem_cons_self

end Linework.Node
