import Linework.Proofs.Edit.Append
import Linework.Proofs.Memory.Reachable

/-!
# Additions to a file in a memory

An addition creates a file that is missing, then reads it and writes it anew. Where a file can be written
(`Takes`), that fills the place of the path and nothing else (`Takes.ends_append`), and the file can be written
again; where it cannot, every addition fails alike and changes nothing (`Sound.takes_or_refuses`). So two
additions leave a memory as one addition of both does (`Reachable.append_append`).
-/

namespace Linework

namespace Memory

open Op

variable {m : Memory} {settings : Settings} {path old next last : Text} {first second contents : List Text}

/-- The memory with a content in the place of a path. -/
def filled (m : Memory) (path content : Text) : Memory :=
  m.changeTree (m.walk path).tree (Node.overwrite content (m.walk path).route)

/-- A path with a place for a file, which holds a content or is missing; a missing file counts as empty. -/
structure Takes (m : Memory) (path old : Text) : Prop where
  sound : m.Sound
  place : ∃ tree, m.tree? (m.walk path).tree = some tree ∧ ¬ tree.listing.Blocked (m.walk path).route ∧
    ∀ name, tree.listing ((m.walk path).route ++ [name]) = none
  free : m.isFixed (m.walk path) = false
  holds : (m.find? path = none ∧ old = []) ∨ ∃ node, m.find? path = some node ∧ node.content = some old

/-- What fills a place last stays. -/
theorem Takes.filled_filled (h : Takes m path old) (first last : Text) :
    (m.filled path first).filled path last = m.filled path last := by
  obtain ⟨tree, htree, hopen, hbelow⟩ := h.place
  have hlast : ∀ whole, m.tree? (m.walk path).tree = some whole →
      Node.overwrite last (m.walk path).route (Node.overwrite first (m.walk path).route whole) =
        Node.overwrite last (m.walk path).route whole := by
    intro whole hwhole
    obtain rfl : tree = whole := Option.some.inj (htree.symm.trans hwhole)
    exact (h.sound.trees _ _ htree).overwrite_overwrite (fun s hs => h.sound.plain_of_mem_route hs) hopen hbelow _ _
  simp only [filled, walk_changeTree, changeTree_changeTree]
  exact changeTree_congr hlast

/-- A place that was filled takes a file again. -/
theorem Takes.filled (h : Takes m path old) (content : Text) : Takes (m.filled path content) path content := by
  obtain ⟨tree, htree, hopen, hbelow⟩ := h.place
  have hchange : Change (fun _ => False) m (m.filled path content) := .write m path content htree hopen h.free hbelow
  have hsound := hchange.sound h.sound
  obtain ⟨node, hnode, hcontent⟩ := find?_overwrite htree hopen content
  obtain ⟨whole, hwhole, -⟩ := hsound.exists_tree path
  refine ⟨hsound, ⟨whole, hwhole, hsound.not_blocked_of_find? hwhole hnode, ?_⟩, ?_, .inr ⟨node, hnode, hcontent⟩⟩
  · exact hsound.listing_below_of_content hwhole hnode hcontent
  · rw [Memory.filled, isFixed_changeTree, walk_changeTree]
    exact h.free

theorem Takes.ends_read (h : Takes m path old) (content : Text) (encoding : Text) :
    Ends (Storage.read encoding path) (m.filled path content) fun result _ => result = .ok content := by
  obtain ⟨hnone, -⟩ | ⟨node, hnode, hcontent⟩ := (h.filled content).holds
  · obtain ⟨tree, htree, hopen, -⟩ := h.place
    obtain ⟨node, hnode, -⟩ := find?_overwrite htree hopen content
    rw [Memory.filled, hnode] at hnone
    cases hnone
  · exact (Memory.ends_read hnode hcontent encoding).mono fun _ _ hread => hread.1

/-- **An addition** fills the place of the path with what it makes of the content there. -/
theorem Takes.ends_append (h : Takes m path old)
    (hnext : Edit.rewritten settings path (.append contents) old = .ok next) :
    Ends (Storage.edit settings settings path (.append contents)) m fun result after =>
      result = .ok () ∧ after = m.filled path next := by
  obtain ⟨tree, htree, hopen, -⟩ := h.place
  obtain ⟨splice, hsplice, hflat⟩ := exists_of_bind_eq_ok hnext
  have hflat := Except.ok.inj hflat
  apply h.sound.ends_edit htree
  case missing => nofun
  case directory =>
    intro node hnode hnone
    rcases h.holds with ⟨hmissing, -⟩ | ⟨other, hother, hcontent⟩
    · rw [hnode] at hmissing
      cases hmissing
    · cases hnode.symm.trans hother
      rw [hcontent] at hnone
      cases hnone
  case blocked => exact fun _ _ hblocked => absurd hblocked hopen
  case unspliced =>
    intro node other failure _ _ hfailure
    obtain ⟨found, hfound⟩ := Edit.splice_of_creates (e := .append contents) rfl settings path
      (Line.split settings.newline.text other)
    rw [hfound] at hfailure
    cases hfailure
  case fixed =>
    intro node other found _ _ _ hfixed
    rw [h.free] at hfixed
    cases hfixed
  case done =>
    intro node other found hnode hother hfound _
    rcases h.holds with ⟨hmissing, -⟩ | ⟨same, hsame, hcontent⟩
    · rw [hnode] at hmissing
      cases hmissing
    · cases hnode.symm.trans hsame
      cases hcontent.symm.trans hother
      cases hsplice.symm.trans hfound
      exact ⟨rfl, by rw [hflat, Memory.filled]⟩
  case created =>
    intro found _ hmissing _ _ hfound
    rcases h.holds with ⟨-, rfl⟩ | ⟨node, hnode, -⟩
    · rw [Line.split_nil] at hsplice hflat
      cases hsplice.symm.trans hfound
      exact ⟨rfl, by rw [hflat, Memory.filled]⟩
    · rw [hmissing] at hnode
      cases hnode

theorem edit_append (settings : Settings) (path : Text) (contents : List Text) :
    (Storage.edit settings settings path (.append contents) : Op Memory Unit) =
      Storage.touch path >>= fun _ => Storage.rewrite settings settings path (.append contents) := rfl

/-- Where a path has no place for a file, every addition fails in the same way. -/
theorem Sound.takes_or_refuses (h : m.Sound) (settings : Settings) (path : Text) :
    (∃ old, Takes m path old) ∨
      ∃ failure, ∀ contents, Ends (Storage.edit settings settings path (.append contents)) m
        fun result after => result = .error failure ∧ after = m := by
  obtain ⟨tree, htree, -⟩ := h.exists_tree path
  cases hfind : m.find? path with
  | none =>
    have hno : ∀ node, m.find? path ≠ some node := fun node => by simp [hfind]
    by_cases hblocked : tree.listing.Blocked (m.walk path).route
    · refine .inr ⟨.ofErrno Errno.notDirectory path, fun contents => ?_⟩
      rw [edit_append]
      exact .bind (h.ends_touch htree (fun node hnode => absurd hnode (hno node))
        (fun node hnode => absurd hnode (hno node)) (fun _ _ => ⟨rfl, rfl⟩) fun _ hopen => absurd hblocked hopen)
    · have hfree : m.isFixed (m.walk path) = false := by
        rw [← Bool.not_eq_true]
        exact fun hfixed => h.find?_ne_none_of_isFixed hfixed hfind
      have hbelow := listing_below_of_find?_eq_none htree hfind
      exact .inl ⟨[], h, ⟨tree, htree, hblocked, hbelow⟩, hfree, .inl ⟨hfind, rfl⟩⟩
  | some node =>
    have hthere : m.find? path ≠ none := by simp [hfind]
    have hsame : ∀ other, m.find? path = some other → other = node := fun other hother =>
      Option.some.inj (hother.symm.trans hfind)
    cases hcontent : node.content with
    | none =>
      refine .inr ⟨.ofErrno Errno.isDirectory path, fun contents => ?_⟩
      rw [edit_append]
      refine .bind (h.ends_touch htree (fun _ _ _ => ⟨rfl, rfl⟩) (fun other hother hfile => ?_)
        (fun hnone => absurd hnone hthere) fun hnone => absurd hnone hthere)
      rw [hsame other hother, Node.isFile, hcontent] at hfile
      cases hfile
    | some old =>
      cases hfixed : m.isFixed (m.walk path) with
      | false =>
        have hopen := h.not_blocked_of_find? htree hfind
        have hbelow := h.listing_below_of_content htree hfind hcontent
        exact .inl ⟨old, h, ⟨tree, htree, hopen, hbelow⟩, hfixed, .inr ⟨node, hfind, hcontent⟩⟩
      | true =>
        refine .inr ⟨.ofErrno Errno.isDirectory path, fun contents => ?_⟩
        rw [edit_append]
        refine .bind (h.ends_touch htree (fun other hother hfile => ?_) (fun _ _ _ => ?_)
          (fun hnone => absurd hnone hthere) fun hnone => absurd hnone hthere)
        · rw [hsame other hother, Node.isFile, hcontent] at hfile
          cases hfile
        · rw [andThen_ok]
          refine h.ends_rewrite hfind hcontent (fun failure hfailure => ?_) (fun _ _ _ => ⟨rfl, rfl⟩) fun _ _ hfree => ?_
          · cases hfailure
          · rw [hfixed] at hfree
            cases hfree

/-- **Two additions leave a memory as one addition of both**, whatever the file holds and whether or not it is
there, if the second does not start with an empty row: the same result and the same entries everywhere. They fail
together, or the file is then read as what one addition makes of its content, a missing file counting as empty. -/
theorem Reachable.append_append (h : m.Reachable) (settings : Settings) (path : Text) (first second : List Text)
    (hsecond : (second.flatMap Line.insertedRows).head? ≠ some []) :
    let twice : Op Memory Unit := do
      Storage.edit settings settings path (.append first)
      Storage.edit settings settings path (.append second)
    let once : Op Memory Unit := Storage.edit settings settings path (.append (first ++ second))
    (Op.outcome twice m).1 = (Op.outcome once m).1 ∧
      (Op.outcome twice m).2.store = (Op.outcome once m).2.store ∧
      ((∃ failure, (Op.outcome once m).1 = .error failure ∧ (Op.outcome once m).2.store = m) ∨
        ∃ old last, ((Op.outcome (Storage.read settings.encoding path) m).1 = .ok old ∨
            (Op.outcome (Storage.hasEntry path) m).1 = .ok false ∧ old = []) ∧
          (Op.outcome once m).1 = .ok () ∧
          Edit.rewritten settings path (.append (first ++ second)) old = .ok last ∧
          (Op.outcome (Storage.read settings.encoding path) (Op.outcome once m).2.store).1 = .ok last) := by
  intro twice once
  rcases h.sound.takes_or_refuses settings path with ⟨old, htakes⟩ | ⟨failure, hrefuses⟩
  · obtain ⟨last, hlast⟩ : ∃ last, Edit.rewritten settings path (.append (first ++ second)) old = .ok last :=
      ⟨_, Edit.rewritten_append settings path old (first ++ second)⟩
    have hall := (Edit.rewrittenAll_append_append hsecond).trans hlast
    obtain ⟨next, hnext, hrest⟩ := exists_of_bind_eq_ok hall
    obtain ⟨final, hfinal, hdone⟩ := exists_of_bind_eq_ok hrest
    cases hdone
    have hends : Ends twice m fun result after => result = .ok () ∧ after = m.filled path last := by
      refine .bind ((htakes.ends_append hnext).mono ?_)
      rintro _ _ ⟨rfl, rfl⟩
      rw [← htakes.filled_filled next last]
      exact (htakes.filled next).ends_append hfinal
    obtain ⟨htwice, hstore⟩ := hends.outcome
    obtain ⟨honce, hsame⟩ := (htakes.ends_append hlast).outcome
    refine ⟨htwice.trans honce.symm, hstore.trans hsame.symm, .inr ⟨old, last, ?_, honce, hlast, ?_⟩⟩
    · rcases htakes.holds with ⟨hnone, hold⟩ | ⟨node, hnode, hcontent⟩
      · refine .inr ⟨?_, hold⟩
        have hasks : Ends (Storage.hasEntry path) m fun result _ => result = .ok (m.find? path).isSome :=
          .get (ends_pure.2 rfl)
        rw [hasks.outcome, hnone, Option.isSome_none]
      · exact .inl (Memory.ends_read hnode hcontent settings.encoding).outcome.1
    · rw [hsame]
      exact (htakes.ends_read last settings.encoding).outcome
  · have hends : Ends twice m fun result after => result = .error failure ∧ after = m := by
      refine .bind ((hrefuses first).mono ?_)
      rintro _ _ ⟨rfl, rfl⟩
      exact ⟨rfl, rfl⟩
    obtain ⟨htwice, hstore⟩ := hends.outcome
    obtain ⟨honce, hsame⟩ := (hrefuses (first ++ second)).outcome
    exact ⟨htwice.trans honce.symm, hstore.trans hsame.symm, .inl ⟨failure, honce, hsame⟩⟩

/-- Additions to a file that ends in a carriage return, where line feeds split. -/
theorem append_append_foreign :
    ∃ m : Memory, m.Reachable ∧
      (Op.outcome (Storage.read (Text.lit "utf-8") ['f']) m).1 = .ok (Text.lit "a\r\nb\r") ∧
      ([Text.lit "y\nz"].flatMap Line.insertedRows).head? ≠ some [] ∧
      (Op.outcome (do
          Storage.edit {} {} ['f'] (.append [[], [], ['x']])
          Storage.edit {} {} ['f'] (.append [Text.lit "y\nz"])) m).2.store =
        (Op.outcome (Storage.edit {} {} ['f'] (.append [[], [], ['x'], Text.lit "y\nz"])) m).2.store ∧
      (Op.outcome (Storage.read (Text.lit "utf-8") ['f'])
          (Op.outcome (Storage.edit {} {} ['f'] (.append [[], [], ['x'], Text.lit "y\nz"])) m).2.store).1 =
        .ok (Text.lit "a\r\nb\r\r\nx\r\ny\r\nz\r\n") := by
  have hreachable := Reachable.start.move (.act {} (.write ['f'] (Text.lit "a\r\nb\r")))
  have hsecond : ([Text.lit "y\nz"].flatMap Line.insertedRows).head? ≠ some [] := by decide
  have hboth := hreachable.append_append {} ['f'] [[], [], ['x']] [Text.lit "y\nz"] hsecond
  exact ⟨_, hreachable, rfl, hsecond, hboth.2.1, by decide +kernel⟩

end Memory

end Linework
