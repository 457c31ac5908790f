import Linework.Proofs.Node.Tree

/-!
# Listings

A tree seen as a flat map from routes to entries, without nodes in nodes. A listing is all that an
operation on a tree can be told by: writing, creating directories, removing and changing
permissions are point updates of it (`listing_change`, `listing_grow`), and a route grows exactly
when no file stands in its way (`grow_snd_iff`).
-/

namespace Linework

/-- What is at a route. -/
inductive Entry where
  | directory (mode : Int)
  | file (mode : Int) (content : Text)
  deriving DecidableEq, Repr

namespace Entry

def mode : Entry → Int
  | directory mode | file mode _ => mode

def setMode (mode : Int) : Entry → Entry
  | directory _ => directory mode
  | file _ content => file mode content

end Entry

/-- A flat map from routes to entries. -/
abbrev Listing := List Text → Option Entry

namespace Listing

variable (l : Listing) (route : List Text)

def IsFile : Prop := ∃ mode content, l route = some (.file mode content)

def IsDirectory : Prop := ∃ mode, l route = some (.directory mode)

/-- A file stands in the way to a route. -/
def Blocked : Prop := ∃ above, above <+: route ∧ above ≠ route ∧ l.IsFile above

/-- A directory with something in it. -/
def IsOccupied : Prop := l.IsDirectory route ∧ ∃ name, l (route ++ [name]) ≠ none

/-- The listing with directories at a route and on the way to it, where nothing was. -/
def withDirectories : Listing := fun r =>
  if r <+: route ∧ l r = none then some (.directory Node.directoryMode) else l r

/-- The listing with another entry at a route. -/
def put (entry : Entry) : Listing := fun r => if r = route then some entry else l r

/-- The listing once a file has been written. -/
def write (content : Text) : Listing := (l.withDirectories route).put route (.file Node.fileMode content)

/-- The listing without the entry at a route. -/
def erase : Listing := fun r => if r = route then none else l r

/-- The listing without the entry at a route and all below it. -/
def eraseBelow : Listing := fun r => if route <+: r then none else l r

/-- The listing with other permissions at a route. -/
def setMode (mode : Int) : Listing := fun r => if r = route then (l r).map (Entry.setMode mode) else l r

variable {l route}

theorem IsFile.ne_none (h : l.IsFile route) : l route ≠ none := by
  obtain ⟨mode, content, h⟩ := h
  simp [h]

theorem IsDirectory.ne_none (h : l.IsDirectory route) : l route ≠ none := by
  obtain ⟨mode, h⟩ := h
  simp [h]

theorem IsFile.not_isDirectory (h : l.IsFile route) : ¬ l.IsDirectory route := by
  obtain ⟨mode, content, h⟩ := h
  simp [IsDirectory, h]

theorem cases_entry (l : Listing) (route : List Text) :
    l route = none ∨ l.IsFile route ∨ l.IsDirectory route := by
  cases h : l route with
  | none => exact .inl rfl
  | some entry =>
    cases entry with
    | directory mode => exact .inr (.inr ⟨mode, h⟩)
    | file mode content => exact .inr (.inl ⟨mode, content, h⟩)

theorem withDirectories_of_ne_none {r : List Text} (h : l r ≠ none) : l.withDirectories route r = l r := by
  rw [withDirectories, if_neg fun hr => h hr.2]

theorem withDirectories_ne_none {r : List Text} (h : l r ≠ none) : l.withDirectories route r ≠ none := by
  rwa [withDirectories_of_ne_none h]

/-- Whatever is missing on the way is made. -/
theorem withDirectories_above_ne_none {above : List Text} (hpre : above <+: route) :
    l.withDirectories route above ≠ none := by
  unfold withDirectories
  split
  · exact Option.some_ne_none _
  · rename_i hthere
    exact fun hnone => hthere ⟨hpre, hnone⟩

theorem withDirectories_below (l : Listing) (route : List Text) (name : Text) :
    l.withDirectories route (route ++ [name]) = l (route ++ [name]) := by
  rw [withDirectories, if_neg]
  rintro ⟨hpre, -⟩
  have hlength := hpre.length_le
  rw [List.length_append, List.length_singleton] at hlength
  omega

theorem isFile_withDirectories_iff {r : List Text} :
    (l.withDirectories route).IsFile r ↔ l.IsFile r := by
  unfold IsFile withDirectories
  split
  · rename_i h
    simp [h.2]
  · rfl

theorem write_ne_none {content : Text} {r : List Text} (h : l r ≠ none) :
    l.write route content r ≠ none := by
  rw [write, put]
  split
  · simp
  · exact withDirectories_ne_none h

theorem isFile_write_iff {content : Text} {r : List Text} :
    (l.write route content).IsFile r ↔ r = route ∨ l.IsFile r := by
  by_cases hr : r = route
  · simp [IsFile, write, put, hr]
  · rw [IsFile, write, put, if_neg hr, or_iff_right hr]
    exact isFile_withDirectories_iff

theorem isFile_setMode_iff {mode : Int} {r : List Text} :
    (l.setMode route mode).IsFile r ↔ l.IsFile r := by
  unfold IsFile setMode
  split
  · cases hr : l r with
    | none => simp
    | some entry => cases entry <;> simp [Entry.setMode]
  · rfl

/-- Nothing lies below nothing, and nothing below a file. -/
structure IsTree (l : Listing) : Prop where
  closed : ∀ route rest, l (route ++ rest) ≠ none → l route ≠ none
  leaf : ∀ route rest, l.IsFile route → l (route ++ rest) ≠ none → rest = []

namespace IsTree

theorem not_blocked (h : l.IsTree) (hroute : l route ≠ none) : ¬ l.Blocked route := by
  rintro ⟨above, ⟨rest, rfl⟩, hne, hfile⟩
  rw [h.leaf above rest hfile hroute, List.append_nil] at hne
  exact hne rfl

theorem eq_none_of_blocked (h : l.IsTree) (hblocked : l.Blocked route) : l route = none :=
  Classical.not_not.1 fun hsome => h.not_blocked hsome hblocked

theorem eq_none_below (h : l.IsTree) (hnone : l route = none) (rest : List Text) :
    l (route ++ rest) = none :=
  Classical.not_not.1 fun hsome => h.closed route rest hsome hnone

/-- No file stands in the way where the directories end at a free name. -/
theorem not_blocked_of_free (h : l.IsTree) {front : List Text} {name : Text} (hfront : l.IsDirectory front)
    (hnone : l (front ++ [name]) = none) (more : List Text) : ¬ l.Blocked (front ++ [name] ++ more) := by
  rintro ⟨above, hpre, -, hfile⟩
  rcases List.prefix_or_prefix_of_prefix hpre (List.prefix_append _ _) with hshort | ⟨rest, rfl⟩
  · rcases List.prefix_concat_iff.1 hshort with rfl | ⟨rest, rfl⟩
    · exact hfile.ne_none hnone
    · obtain rfl := h.leaf above rest hfile hfront.ne_none
      rw [List.append_nil] at hfront
      exact hfile.not_isDirectory hfront
  · exact hfile.ne_none (h.eq_none_below hnone rest)

theorem below_eq_none (h : l.IsTree) (hfile : l.IsFile route) (name : Text) :
    l (route ++ [name]) = none := by
  refine Classical.not_not.1 fun hname => ?_
  cases h.leaf route [name] hfile hname

/-- What lies above something is a directory. -/
theorem isDirectory_above (h : l.IsTree) {rest : List Text} (hrest : rest ≠ [])
    (hroute : l (route ++ rest) ≠ none) : l.IsDirectory route := by
  rcases l.cases_entry route with hnone | hfile | hdirectory
  · exact absurd hnone (h.closed route rest hroute)
  · exact absurd (h.leaf route rest hfile hroute) hrest
  · exact hdirectory

/-- A file has nothing below it that goes with it. -/
theorem eraseBelow_of_isFile (h : l.IsTree) (hfile : l.IsFile route) :
    l.eraseBelow route = l.erase route := by
  funext r
  unfold Listing.eraseBelow Listing.erase
  by_cases hpre : route <+: r
  · obtain ⟨rest, rfl⟩ := hpre
    rw [if_pos (List.prefix_append _ _)]
    split
    · rfl
    · rename_i hne
      refine Eq.symm (Classical.not_not.1 fun hsome => hne ?_)
      rw [h.leaf route rest hfile hsome, List.append_nil]
  · rw [if_neg hpre, if_neg]
    rintro rfl
    exact hpre (List.prefix_refl _)

/-- An entry is put into a directory, with nothing below it. -/
theorem put (h : l.IsTree) {front : List Text} {name : Text} (hfront : l.IsDirectory front)
    (hbelow : ∀ next, l (front ++ [name] ++ [next]) = none) (entry : Entry) :
    (l.put (front ++ [name]) entry).IsTree where
  closed route rest hrest := by
    unfold Listing.put at hrest ⊢
    split
    · simp
    · split at hrest
      · rename_i hne heq
        obtain ⟨more, rfl⟩ := (List.prefix_concat_iff.1 ⟨rest, heq⟩).resolve_left hne
        exact h.closed route more hfront.ne_none
      · exact h.closed route rest hrest
  leaf route rest hfile hrest := by
    have hmiss : route ++ rest ≠ front ++ [name] → l (route ++ rest) ≠ none := by
      intro hne
      rwa [Listing.put, if_neg hne] at hrest
    by_cases hroute : route = front ++ [name]
    · subst hroute
      cases rest with
      | nil => rfl
      | cons next more =>
        have hthere := hmiss fun heq => by simp at heq
        rw [List.append_cons] at hthere
        exact absurd (hbelow next) (h.closed _ more hthere)
    · rw [IsFile, Listing.put, if_neg hroute] at hfile
      by_cases hend : route ++ rest = front ++ [name]
      · obtain ⟨more, rfl⟩ := (List.prefix_concat_iff.1 ⟨rest, hend⟩).resolve_left hroute
        obtain rfl := h.leaf route more hfile hfront.ne_none
        rw [List.append_nil] at hfront
        exact absurd hfront (IsFile.not_isDirectory hfile)
      · exact h.leaf route rest hfile (hmiss hend)

theorem eraseBelow (h : l.IsTree) (gone : List Text) : (l.eraseBelow gone).IsTree where
  closed route rest hrest := by
    unfold Listing.eraseBelow at hrest ⊢
    split at hrest
    · exact absurd rfl hrest
    · rename_i hkept
      rw [if_neg fun hgone => hkept (hgone.trans (List.prefix_append _ _))]
      exact h.closed route rest hrest
  leaf route rest hfile hrest := by
    unfold IsFile Listing.eraseBelow at hfile
    unfold Listing.eraseBelow at hrest
    split at hfile
    · obtain ⟨mode, content, hnone⟩ := hfile
      cases hnone
    · split at hrest
      · exact absurd rfl hrest
      · exact h.leaf route rest hfile hrest

end IsTree

/-- Below a directory, the directories on the way to a route end at the route or before it. -/
theorem exists_edge {base : List Text} (hbase : l.IsDirectory base) (rest : List Text) :
    l.IsDirectory (base ++ rest) ∨
      ∃ front name more, base ++ rest = front ++ name :: more ∧ base <+: front ∧ l.IsDirectory front ∧
        ¬ l.IsDirectory (front ++ [name]) := by
  induction rest generalizing base with
  | nil => exact .inl (by rwa [List.append_nil])
  | cons name more ih =>
    by_cases hnext : l.IsDirectory (base ++ [name])
    · rcases ih hnext with hdirectory | ⟨front, last, others, heq, hpre, hfront, hlast⟩
      · exact .inl (by rwa [List.append_cons])
      · refine .inr ⟨front, last, others, ?_, (List.prefix_append _ _).trans hpre, hfront, hlast⟩
        rw [List.append_cons, heq]
    · exact .inr ⟨base, name, more, rfl, List.prefix_refl _, hbase, hnext⟩

/-- A free name in a directory becomes a directory. -/
theorem IsTree.withDirectories_of_free (h : l.IsTree) {front : List Text} {name : Text}
    (hfront : l.IsDirectory front)
    (hnone : l (front ++ [name]) = none) :
    l.withDirectories (front ++ [name]) = l.put (front ++ [name]) (.directory Node.directoryMode) := by
  funext r
  unfold withDirectories Listing.put
  by_cases hr : r = front ++ [name]
  · rw [if_pos ⟨hr ▸ List.prefix_refl _, hr ▸ hnone⟩, if_pos hr]
  · rw [if_neg hr, if_neg]
    rintro ⟨hpre, hfree⟩
    rcases List.prefix_concat_iff.1 hpre with heq | ⟨more, rfl⟩
    · exact hr heq
    · exact h.closed r more hfront.ne_none hfree

theorem IsTree.withDirectories_of_isDirectory (h : l.IsTree) (hroute : l.IsDirectory route) :
    l.withDirectories route = l := by
  funext r
  rw [withDirectories, if_neg]
  rintro ⟨⟨rest, rfl⟩, hfree⟩
  exact h.closed r rest hroute.ne_none hfree

theorem withDirectories_concat (l : Listing) (front : List Text) (name : Text) :
    (l.withDirectories front).withDirectories (front ++ [name]) = l.withDirectories (front ++ [name]) := by
  funext r
  simp only [withDirectories, List.prefix_concat_iff]
  by_cases hpre : r <+: front <;> by_cases hnone : l r = none <;> simp [hpre, hnone]

/-- A file is written into a directory. -/
theorem write_concat (l : Listing) (front : List Text) (name content : Text) :
    l.write (front ++ [name]) content =
      (l.withDirectories front).put (front ++ [name]) (.file Node.fileMode content) := by
  funext r
  simp only [write, put, withDirectories, List.prefix_concat_iff]
  split
  · rfl
  · rename_i hr
    simp [hr]

theorem put_put (l : Listing) (route : List Text) (first last : Entry) :
    (l.put route first).put route last = l.put route last := by
  funext r
  unfold put
  split <;> simp_all

theorem write_write (l : Listing) (route : List Text) (first last : Text) :
    (l.write route first).write route last = l.write route last := by
  have hthere : (l.write route first).withDirectories route = l.write route first := by
    funext r
    rw [withDirectories, if_neg]
    rintro ⟨hpre, hnone⟩
    unfold write put at hnone
    split at hnone
    · cases hnone
    · unfold withDirectories at hnone
      split at hnone
      · cases hnone
      · rename_i hfree
        exact hfree ⟨hpre, hnone⟩
  rw [write, hthere, write, put_put, write]

theorem isDirectory_withDirectories_above {above : List Text} (hpre : above <+: route) (hno : ¬ l.IsFile above) :
    (l.withDirectories route).IsDirectory above := by
  unfold IsDirectory withDirectories
  rcases l.cases_entry above with hnone | hfile | ⟨mode, hmode⟩
  · simp [hpre, hnone]
  · exact absurd hfile hno
  · simp [hmode]

theorem isDirectory_withDirectories (hno : ¬ l.IsFile route) : (l.withDirectories route).IsDirectory route :=
  isDirectory_withDirectories_above (List.prefix_refl route) hno

/-- No file is on a way that is open, at its end or before. -/
theorem not_isFile_above {above : List Text} (hopen : ¬ l.Blocked route) (hno : ¬ l.IsFile route)
    (hpre : above <+: route) : ¬ l.IsFile above := by
  intro hfile
  by_cases heq : above = route
  · exact hno (heq ▸ hfile)
  · exact hopen ⟨above, hpre, heq, hfile⟩

/-- Nothing blocks the way to a route of no names. -/
theorem not_blocked_nil : ¬ l.Blocked [] := fun ⟨_, hp, hne, _⟩ => hne (List.prefix_nil.1 hp)

theorem blocked_concat {name : Text} :
    l.Blocked (route ++ [name]) ↔ l.Blocked route ∨ l.IsFile route := by
  constructor
  · rintro ⟨above, hpre, hne, hfile⟩
    have habove := (List.prefix_concat_iff.1 hpre).resolve_left hne
    by_cases heq : above = route
    · exact .inr (heq ▸ hfile)
    · exact .inl ⟨above, habove, heq, hfile⟩
  · rintro (⟨above, hpre, -, hfile⟩ | hfile)
    · refine ⟨above, hpre.trans (List.prefix_append _ _), fun heq => ?_, hfile⟩
      have hlength := hpre.length_le
      rw [heq, List.length_append, List.length_singleton] at hlength
      omega
    · exact ⟨route, List.prefix_append _ _, by simp, hfile⟩

theorem blocked_cons {name : Text} {rest : List Text} :
    l.Blocked (name :: rest) ↔ l.IsFile [] ∨ Blocked (fun r => l (name :: r)) rest := by
  constructor
  · rintro ⟨above, hp, hne, hfile⟩
    cases above with
    | nil => exact .inl hfile
    | cons first more =>
      obtain ⟨rfl, hmore⟩ := List.cons_prefix_cons.1 hp
      exact .inr ⟨more, hmore, fun h => hne (h ▸ rfl), hfile⟩
  · rintro (hfile | ⟨above, hp, hne, hfile⟩)
    · exact ⟨[], List.nil_prefix, by simp, hfile⟩
    · exact ⟨name :: above, List.cons_prefix_cons.2 ⟨rfl, hp⟩, by simpa using hne, hfile⟩

end Listing

/-- Sorted texts are in order. -/
theorem Text.pairwise_sorted (texts : List Text) : (Text.sorted texts).Pairwise fun a b => ¬ b < a := by
  have htrans : ∀ a b c : Text, !decide (b < a) → !decide (c < b) → !decide (c < a) := by
    intro a b c hab hbc
    simp only [Bool.not_eq_true', decide_eq_false_iff_not] at hab hbc ⊢
    exact List.le_trans hab hbc
  have htotal : ∀ a b : Text, !decide (b < a) || !decide (a < b) := by
    intro a b
    simp only [Bool.or_eq_true, Bool.not_eq_true', decide_eq_false_iff_not]
    exact List.le_total a b
  exact (List.pairwise_mergeSort htrans htotal texts).imp fun hab => by simpa using hab

/-- Texts without repetition come out of sorting in strict order. -/
theorem Text.pairwise_sorted_of_nodup {texts : List Text} (h : texts.Nodup) :
    (Text.sorted texts).Pairwise (· < ·) := by
  have hnodup : (Text.sorted texts).Nodup := (List.mergeSort_perm _ _).nodup_iff.2 h
  refine (Text.pairwise_sorted _).imp₂ (fun a b hle hne => ?_) hnodup
  exact Classical.not_not.1 fun hno => hne (Std.Trichotomous.trichotomous a b hno hle)

namespace Node

variable {node child : Node}

/-- What a node is by itself. -/
def entry (node : Node) : Entry :=
  match node.content with
  | some content => .file node.mode content
  | none => .directory node.mode

/-- The flat map of a tree. -/
def listing (node : Node) : Listing := fun route => (node.at? route).map entry

theorem mode_entry (node : Node) : node.entry.mode = node.mode := by
  unfold entry
  cases node.content <;> rfl

theorem listing_nil (node : Node) : node.listing [] = some node.entry := rfl

theorem listing_cons (node : Node) (name : Text) (rest : List Text) :
    node.listing (name :: rest) = (node.get? name).bind fun child => child.listing rest := by
  rw [listing, at?_cons]
  cases node.get? name <;> rfl

theorem isFile_nil_listing : node.listing.IsFile [] ↔ node.isFile = true := by
  rw [Listing.IsFile, listing_nil, entry, isFile]
  cases node.content <;> simp

theorem isFile_eq_false_iff : node.isFile = false ↔ ¬ node.listing.IsFile [] := by
  rw [isFile_nil_listing, Bool.not_eq_true]

theorem entry_of_isFile_eq_false (h : node.isFile = false) : node.entry = .directory node.mode := by
  rw [isFile, Option.isSome_eq_false_iff, Option.isNone_iff_eq_none] at h
  rw [entry, h]

theorem exists_entry_of_isFile (h : node.isFile = true) : ∃ content, node.entry = .file node.mode content := by
  obtain ⟨content, hcontent⟩ := Option.isSome_iff_exists.1 h
  exact ⟨content, by rw [entry, hcontent]⟩

theorem isFile_listing_iff {route : List Text} {sub : Node} (h : node.at? route = some sub) :
    node.listing.IsFile route ↔ sub.isFile = true := by
  rw [← isFile_nil_listing]
  simp [Listing.IsFile, listing, h]

theorem isDirectory_listing_iff {route : List Text} {sub : Node} (h : node.at? route = some sub) :
    node.listing.IsDirectory route ↔ sub.isFile = false := by
  simp only [Listing.IsDirectory, listing, h, Option.map_some, entry, isFile]
  cases sub.content <;> simp

theorem listing_eq_none_iff {route : List Text} : node.listing route = none ↔ node.at? route = none := by
  simp [listing]

theorem listing_put (node child : Node) (route : List Text) :
    (node.put child).listing route =
      match route with
      | [] => some node.entry
      | name :: rest => if name = child.segment then child.listing rest else node.listing (name :: rest) := by
  cases route with
  | nil => rfl
  | cons name rest =>
    simp only [listing, at?_put]
    split <;> rfl

/-- A change at a route is seen there and below only. -/
theorem listing_change {f : Node → Node} (hf : ∀ n, (f n).segment = n.segment)
    (route other : List Text) (node : Node) :
    (change f route node).listing other =
      if route <+: other then
        (node.at? route).bind fun n => (f n).listing (other.drop route.length)
      else node.listing other := by
  split
  · rename_i hpre
    obtain ⟨rest, rfl⟩ := hpre
    rw [List.drop_left, listing, at?_change_append hf]
    cases node.at? route <;> rfl
  · rename_i hpre
    induction route generalizing node other with
    | nil => exact absurd List.nil_prefix hpre
    | cons name more ih =>
      rw [change]
      cases hget : node.get? name with
      | none => rfl
      | some child =>
        dsimp only
        have hname : (change f more child).segment = name := by
          rw [change_segment hf, segment_of_get? hget]
        rw [listing_put]
        cases other with
        | nil => rfl
        | cons first rest =>
          dsimp only
          split
          · rename_i hfirst
            obtain rfl : first = name := hfirst.trans hname
            rw [listing_cons, hget, Option.bind_some]
            exact ih rest child fun hp => hpre (List.cons_prefix_cons.2 ⟨rfl, hp⟩)
          · rfl

theorem listing_erase (node : Node) (name : Text) (route : List Text) :
    (node.erase name).listing route = if [name] <+: route then none else node.listing route := by
  cases route with
  | nil => simp [listing_nil, entry, erase]
  | cons first rest =>
    rw [listing_cons, get?_erase, listing_cons]
    by_cases h : first = name
    · simp [h]
    · simp [h, Ne.symm h]

/-- Taking a child out takes away all that is below it. -/
theorem listing_change_erase (route : List Text) (name : Text) (node : Node) :
    (change (fun n => n.erase name) route node).listing = node.listing.eraseBelow (route ++ [name]) := by
  funext other
  rw [listing_change (f := fun n => n.erase name) fun _ => rfl, Listing.eraseBelow]
  by_cases hroute : route <+: other
  · obtain ⟨rest, rfl⟩ := hroute
    rw [if_pos (List.prefix_append _ _), List.drop_left]
    simp only [listing_erase, List.prefix_append_right_inj]
    rw [listing, at?_append]
    cases node.at? route with
    | none => simp
    | some sub => rfl
  · rw [if_neg hroute, if_neg]
    exact fun h => hroute ((List.prefix_append _ _).trans h)

/-- A change that leaves the children alone is seen at its route only. -/
theorem listing_change_entry {f : Node → Node} (hf : ∀ n, (f n).segment = n.segment)
    (hchildren : ∀ n, (f n).children = n.children) (route : List Text) (node : Node) :
    (change f route node).listing =
      fun r => if r = route then (node.at? route).map fun n => (f n).entry else node.listing r := by
  funext other
  rw [listing_change hf]
  by_cases hroute : route <+: other
  · obtain ⟨rest, rfl⟩ := hroute
    rw [if_pos (List.prefix_append _ _), List.drop_left]
    cases rest with
    | nil =>
      rw [List.append_nil, if_pos rfl]
      cases node.at? route <;> rfl
    | cons name more =>
      rw [if_neg (by simp), listing, at?_append]
      cases node.at? route with
      | none => rfl
      | some sub =>
        rw [Option.bind_some, Option.bind_some, listing_cons, get?, hchildren, at?_cons, get?]
        cases sub.children.find? fun child => child.segment = name <;> rfl
  · rw [if_neg hroute, if_neg]
    rintro rfl
    exact hroute (List.prefix_refl _)

theorem listing_change_write {route : List Text} {node sub : Node} (hsub : node.at? route = some sub)
    (content : Text) :
    (change (fun n => n.write content) route node).listing =
      node.listing.put route (.file fileMode content) := by
  rw [listing_change_entry (f := fun n => n.write content) (fun _ => rfl) fun _ => rfl, hsub]
  rfl

theorem entry_setMode (node : Node) (mode : Int) :
    (node.setMode mode).entry = node.entry.setMode (permissions mode) := by
  unfold entry setMode
  cases node.content <;> rfl

theorem listing_change_setMode (route : List Text) (node : Node) (mode : Int) :
    (change (fun n => n.setMode mode) route node).listing =
      node.listing.setMode route (permissions mode) := by
  rw [listing_change_entry (f := fun n => n.setMode mode) (fun _ => rfl) fun _ => rfl]
  funext r
  rw [Listing.setMode]
  split
  · rename_i hr
    simp [hr, listing, entry_setMode, Function.comp_def]
  · rfl

theorem listing_fresh (name : Text) (route : List Text) :
    (fresh name).listing route = if route = [] then some (.directory directoryMode) else none := by
  cases route with
  | nil => rfl
  | cons first rest => simp [listing_cons, fresh, get?]

/-! ## Growing -/

theorem listing_getOrFresh (node : Node) (name : Text) (rest : List Text) :
    (node.getOrFresh name).listing rest =
      if rest = [] ∧ node.listing [name] = none then some (.directory directoryMode)
      else node.listing (name :: rest) := by
  unfold getOrFresh
  rw [listing_cons, listing_cons]
  cases node.get? name with
  | none =>
    rw [Option.getD_none, listing_fresh]
    simp
  | some child => simp [listing_nil]

/-- A route grows exactly when no file stands in its way. -/
theorem grow_snd_iff {node : Node} {route : List Text} :
    (node.grow route).2 = true ↔ ¬ node.listing.Blocked route := by
  induction route generalizing node with
  | nil => simp [grow, Listing.not_blocked_nil]
  | cons name rest ih =>
    rw [Listing.blocked_cons, isFile_nil_listing, grow]
    split
    · rename_i hfile
      simp [hfile]
    · rename_i hfile
      have hbelow : (node.getOrFresh name).listing.Blocked rest ↔
          Listing.Blocked (fun r => node.listing (name :: r)) rest := by
        refine exists_congr fun above => and_congr_right fun _ => and_congr_right fun _ => ?_
        simp only [Listing.IsFile, listing_getOrFresh]
        split
        · rename_i h
          simp [h.1, h.2]
        · rfl
      simp [hfile, ih, hbelow]

/-- Growing a route puts directories where nothing was. -/
theorem listing_grow {node : Node} {route : List Text} (h : (node.grow route).2 = true) :
    (node.grow route).1.listing = node.listing.withDirectories route := by
  induction route generalizing node with
  | nil =>
    funext r
    rw [Listing.withDirectories, if_neg]
    · rfl
    · rintro ⟨hr, hnone⟩
      rw [List.prefix_nil.1 hr, listing_nil] at hnone
      cases hnone
  | cons name rest ih =>
    rw [grow] at h ⊢
    split at h
    · cases h
    · rename_i hfile
      rw [if_neg hfile]
      dsimp only at h ⊢
      funext r
      rw [listing_put, grow_segment, getOrFresh_segment, ih h]
      cases r with
      | nil => simp [Listing.withDirectories, listing_nil]
      | cons first more =>
        by_cases hfirst : first = name
        · subst hfirst
          simp only [if_true, Listing.withDirectories, listing_getOrFresh, List.cons_prefix_cons,
            true_and]
          by_cases hmore : more = []
          · by_cases hnone : node.listing [first] = none <;> simp [hmore, hnone]
          · simp [hmore]
        · simp [hfirst, Listing.withDirectories, List.cons_prefix_cons]

/-- Growing passes over nodes that are there already. -/
theorem Sound.grow_append (h : node.Sound) {start : List Text} {sub : Node}
    (hsub : node.at? start = some sub) (route : List Text) :
    node.grow (start ++ route) =
      (Node.change (fun n => (n.grow route).1) start node, (sub.grow route).2) := by
  induction start generalizing node with
  | nil =>
    cases hsub
    rfl
  | cons name rest ih =>
    obtain ⟨child, hchild, hrest⟩ := Option.bind_eq_some_iff.1 hsub
    have hget : node.getOrFresh name = child := by rw [Node.getOrFresh, hchild, Option.getD_some]
    rw [List.cons_append, Node.grow, if_neg (by simp [h.isFile_eq_false hchild]), hget,
      ih (h.get? hchild) hrest, Node.change, hchild]

/-- A route with a file in its way does not grow at all. -/
theorem Sound.grow_of_blocked (h : node.Sound) {route : List Text}
    (hblocked : (node.grow route).2 = false) :
    (node.grow route).1 = node := by
  induction route generalizing node with
  | nil => cases hblocked
  | cons name rest ih =>
    rw [Node.grow] at hblocked ⊢
    split
    · rfl
    · rename_i hfile
      rw [if_neg hfile] at hblocked
      dsimp only at hblocked ⊢
      cases hget : node.get? name with
      | none =>
        have hfresh : (node.getOrFresh name).listing.Blocked rest := by
          refine Classical.not_not.1 fun hnot => ?_
          rw [grow_snd_iff.2 hnot] at hblocked
          cases hblocked
        obtain ⟨above, -, -, hisFile⟩ := hfresh
        rw [Node.getOrFresh, hget, Option.getD_none] at hisFile
        obtain ⟨mode, content, hlisting⟩ := hisFile
        rw [listing_fresh] at hlisting
        split at hlisting <;> cases hlisting
      | some child =>
        have hor : node.getOrFresh name = child := by rw [Node.getOrFresh, hget, Option.getD_some]
        rw [hor] at hblocked ⊢
        rw [ih (h.get? hget) hblocked]
        exact put_eq_self h.tidy.distinct (by rw [segment_of_get? hget, hget])

theorem Sound.change_eq_self (h : node.Sound) {f : Node → Node} {route : List Text} {sub : Node}
    (hsub : node.at? route = some sub) (hf : f sub = sub) : Node.change f route node = node := by
  induction route generalizing node with
  | nil =>
    cases hsub
    exact hf
  | cons name rest ih =>
    obtain ⟨child, hchild, hrest⟩ := Option.bind_eq_some_iff.1 hsub
    rw [Node.change, hchild]
    dsimp only
    rw [ih (h.get? hchild) hrest]
    exact put_eq_self h.tidy.distinct (by rw [segment_of_get? hchild, hchild])

/-- Growing a route that is there already changes nothing. -/
theorem Sound.grow_of_at? (h : node.Sound) {route : List Text} {sub : Node}
    (hsub : node.at? route = some sub) : node.grow route = (node, true) := by
  have := h.grow_append hsub []
  rw [List.append_nil] at this
  rw [this, h.change_eq_self hsub rfl]
  rfl

theorem children_eq_nil_iff : node.children = [] ↔ ∀ name, node.listing [name] = none := by
  constructor
  · intro h name
    rw [listing_cons, get?, h]
    rfl
  · intro h
    cases hchildren : node.children with
    | nil => rfl
    | cons first rest =>
      have hfirst := h first.segment
      rw [listing_cons, get?, hchildren, List.find?_cons] at hfirst
      simp [listing_nil] at hfirst

theorem listing_append {route rest : List Text} {sub : Node} (hsub : node.at? route = some sub) :
    node.listing (route ++ rest) = sub.listing rest := by
  rw [listing, at?_append, hsub]
  rfl

/-- Nothing lies below nothing. -/
theorem listing_append_of_eq_none {route : List Text} (h : node.listing route = none) (rest : List Text) :
    node.listing (route ++ rest) = none := by
  rw [listing_eq_none_iff] at h ⊢
  rw [at?_append, h]
  rfl

theorem hasChildren_iff {route : List Text} {sub : Node} (hsub : node.at? route = some sub) :
    sub.hasChildren = true ↔ ∃ name, node.listing (route ++ [name]) ≠ none := by
  simp only [listing_append hsub]
  rw [hasChildren, Bool.not_eq_true', ← Bool.not_eq_true, List.isEmpty_iff, children_eq_nil_iff]
  simp

/-- Nothing lies below a file. -/
theorem Sound.eq_nil_of_isFile (h : node.Sound) {route rest : List Text}
    (hfile : node.listing.IsFile route) (hrest : node.listing (route ++ rest) ≠ none) : rest = [] := by
  cases rest with
  | nil => rfl
  | cons name more =>
    exfalso
    cases hsub : node.at? route with
    | none => exact hfile.ne_none (listing_eq_none_iff.2 hsub)
    | some sub =>
      have hnil := (h.at? hsub).tidy.exclusive ((isFile_listing_iff hsub).1 hfile)
      apply hrest
      rw [listing_append hsub, listing_cons, Node.get?, hnil]
      rfl

theorem Sound.isTree (h : node.Sound) : node.listing.IsTree where
  closed _ rest hrest hnone := hrest (listing_append_of_eq_none hnone rest)
  leaf _ _ := h.eq_nil_of_isFile

theorem exists_file_of_listing {route : List Text} {mode : Int} {content : Text}
    (h : node.listing route = some (.file mode content)) :
    ∃ sub, node.at? route = some sub ∧ sub.content = some content := by
  obtain ⟨sub, hsub, hentry⟩ := Option.map_eq_some_iff.1 h
  refine ⟨sub, hsub, ?_⟩
  unfold entry at hentry
  split at hentry
  · cases hentry
    assumption
  · cases hentry

/-! ## Names -/

/-- The names in a directory come in order, each of them once. -/
theorem Tidy.pairwise_names (h : node.Tidy) : node.names.Pairwise (· < ·) :=
  Text.pairwise_sorted_of_nodup h.distinct

theorem mem_names_iff {route : List Text} {sub : Node} (hsub : node.at? route = some sub) {name : Text} :
    name ∈ sub.names ↔ node.listing (route ++ [name]) ≠ none := by
  rw [names, Text.sorted, List.mem_mergeSort, listing_append hsub, listing_cons, Ne,
    Option.bind_eq_none_iff]
  rw [← Classical.not_not (a := name ∈ _), ← get?_eq_none_iff]
  cases sub.get? name <;> simp [listing_nil]

/-! ## Writing -/

/-- The tree with a file at a route, and directories on the way to it. -/
def overwrite (content : Text) (route : List Text) (node : Node) : Node :=
  change (fun n => n.write content) route (node.grow route).1

theorem exists_at?_grow {route : List Text} (hopen : ¬ node.listing.Blocked route) :
    ∃ sub, (node.grow route).1.at? route = some sub := by
  have hsome : (node.grow route).1.listing route ≠ none := by
    rw [listing_grow (grow_snd_iff.2 hopen), Listing.withDirectories]
    split
    · simp
    · rename_i h
      exact fun hnone => h ⟨List.prefix_refl _, hnone⟩
  exact Option.ne_none_iff_exists'.1 (mt listing_eq_none_iff.2 hsome)

theorem listing_overwrite {route : List Text} (hopen : ¬ node.listing.Blocked route) (content : Text) :
    (node.overwrite content route).listing = node.listing.write route content := by
  obtain ⟨sub, hsub⟩ := exists_at?_grow hopen
  rw [overwrite, listing_change_write hsub, listing_grow (grow_snd_iff.2 hopen), Listing.write]

theorem Sound.overwrite (h : node.Sound) {route : List Text} (hplain : ∀ s ∈ route, Path.Plain s)
    (hopen : ¬ node.listing.Blocked route) (hempty : ∀ name, node.listing (route ++ [name]) = none)
    (content : Text) : (node.overwrite content route).Sound := by
  refine (h.grow hplain).change (f := fun n => n.write content) (fun _ => rfl) fun sub hsub => ?_
  refine ((h.grow hplain).at? hsub).write ?_ content
  rw [children_eq_nil_iff]
  intro name
  rw [← listing_append hsub, listing_grow (grow_snd_iff.2 hopen), Listing.withDirectories_below]
  exact hempty name

/-- What is written last stays. -/
theorem Sound.overwrite_overwrite (h : node.Sound) {route : List Text} (hplain : ∀ s ∈ route, Path.Plain s)
    (hopen : ¬ node.listing.Blocked route) (hempty : ∀ name, node.listing (route ++ [name]) = none)
    (first last : Text) :
    (node.overwrite first route).overwrite last route = node.overwrite last route := by
  have hsome : (node.overwrite first route).listing route ≠ none := by
    simp [listing_overwrite hopen, Listing.write, Listing.put]
  obtain ⟨sub, hsub⟩ := Option.ne_none_iff_exists'.1 (mt listing_eq_none_iff.2 hsome)
  have hgrow := (h.overwrite hplain hopen hempty first).grow_of_at? hsub
  rw [Node.overwrite, hgrow]
  dsimp only
  rw [Node.overwrite, change_change (f := fun n => n.write first) (g := fun n => n.write last)
    (fun _ => rfl) fun _ => rfl]
  rfl

end Node

end Linework
