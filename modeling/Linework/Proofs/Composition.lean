import Linework.Proofs.Edit.Block
import Linework.Proofs.Interchange

/-!
# Block edits compose

Edits of one file read it and write it time and again. Where a file is read as what was last written to
it (`Keeps`), what several edits leave in it is what they make of its content, one after the other
(`Keeps.ends_readAfter`). Memories and disks keep files in that way. So in both the edits within a block
compose: additions at one end are one addition, and those at both ends commute (`composes_of_span`).
-/

namespace Linework

open Op

namespace Storage

variable {σ : Type} [Storage σ]

/-- Edits a file time and again, then reads it. -/
def readAfter (settings : Settings) (path : Text) : List Edit → Op σ Text
  | [] => read settings.encoding path
  | e :: rest => do
    edit settings settings path e
    readAfter settings path rest

/-- A file is read as the content that it holds, and holds what is written to it, of the texts that it takes.
Edits do not lead out of these. -/
structure Keeps (settings : Settings) (path : Text) (Takes : Text → Prop) (Holds : Text → σ → Prop) : Prop where
  takes {content : Text} {s : σ} : Holds content s → Takes content
  closed {content next : Text} {e : Edit} : Takes content → (∀ t ∈ e.contents, Takes t) →
    e.rewritten settings path content = .ok next → Takes next
  reads {content : Text} {s : σ} : Holds content s → Ends (read settings.encoding path) s
    fun result after => result = .ok content ∧ Holds content after
  writes {content : Text} {s : σ} : Holds content s → ∀ next, Takes next → Ends (write settings.encoding path next) s
    fun result after => result = .ok () ∧ Holds next after

variable {settings : Settings} {path : Text} {Takes : Text → Prop} {Holds : Text → σ → Prop} {content next : Text}
  {s : σ} {e : Edit} {edits rest : List Edit}

theorem Keeps.ends_readLines (h : Keeps settings path Takes Holds) (hholds : Holds content s) :
    Ends (readLines settings path) s fun result after =>
      result = .ok (Line.split settings.newline.text content) ∧ Holds content after := by
  refine .map ((h.reads hholds).mono ?_)
  rintro _ after ⟨rfl, hafter⟩
  exact ⟨rfl, hafter⟩

/-- **One edit** leaves in a file what it makes of its content. -/
theorem Keeps.ends_edit (h : Keeps settings path Takes Holds) (hholds : Holds content s)
    (hcreates : e.creates = false) (htakes : ∀ t ∈ e.contents, Takes t)
    (hnext : e.rewritten settings path content = .ok next) :
    Ends (edit settings settings path e) s fun result after => result = .ok () ∧ Holds next after := by
  obtain ⟨splice, hsplice, hflat⟩ := exists_of_bind_eq_ok hnext
  have htaken := h.closed (h.takes hholds) htakes hnext
  rw [edit_eq, hcreates]
  refine ends_rewrite ((h.ends_readLines hholds).mono ?_)
  rintro _ after ⟨rfl, hafter⟩
  obtain rfl := Except.ok.inj hflat
  dsimp only
  rw [hsplice]
  exact h.writes hafter _ htaken

/-- **Edits one after the other** leave in a file what they make of its content. -/
theorem Keeps.ends_readAfter (h : Keeps settings path Takes Holds) (hholds : Holds content s)
    (hcreates : ∀ e ∈ edits, e.creates = false) (htakes : ∀ e ∈ edits, ∀ t ∈ e.contents, Takes t)
    (hnext : Edit.rewrittenAll settings path edits content = .ok next) :
    Ends (readAfter settings path edits) s fun result _ => result = .ok next := by
  induction edits generalizing content s with
  | nil =>
    cases hnext
    exact (h.reads hholds).mono fun _ _ hread => hread.1
  | cons e rest ih =>
    obtain ⟨edited, hedited, hrest⟩ := exists_of_bind_eq_ok hnext
    have hfirst := h.ends_edit hholds (hcreates e List.mem_cons_self) (htakes e List.mem_cons_self) hedited
    refine .bind (hfirst.mono ?_)
    rintro _ after ⟨rfl, hafter⟩
    exact ih hafter (fun other hother => hcreates other (List.mem_cons_of_mem _ hother))
      (fun other hother => htakes other (List.mem_cons_of_mem _ hother)) hrest

/-- A file that cannot be written to stays as it is. -/
theorem ends_readAfter_refused {failure : Failure}
    (hread : Ends (read settings.encoding path) s fun result after => result = .ok content ∧ after = s)
    (hwrite : ∀ next, Ends (write settings.encoding path next) s fun result _ => result = .error failure)
    (hcreates : e.creates = false) (hnext : e.rewritten settings path content = .ok next) :
    Ends (readAfter settings path (e :: rest)) s fun result _ => result = .error failure := by
  obtain ⟨splice, hsplice, -⟩ := exists_of_bind_eq_ok hnext
  refine .bind ?_
  rw [edit_eq, hcreates]
  refine ends_rewrite (.map (hread.mono ?_))
  rintro _ _ ⟨rfl, rfl⟩
  dsimp only [Except.map]
  rw [hsplice]
  refine (hwrite _).mono ?_
  rintro _ _ rfl
  rfl

end Storage

namespace Edit

variable {settings : Settings} {path content : Text} {target : Target} {Takes : Text → Prop} {start stop : Nat}
  {reads : Text → Except Failure Text} {after : List Edit → Except Failure Text}

/-- Additions to a block in some lines, told by what is read after edits: those at one end come to one
addition, and those at both ends to the same in either order. They are of texts that the storage takes, and
`reads` tells what a content is read as. -/
structure Composes (settings : Settings) (target : Target) (Takes : Text → Prop) (lines : List Text)
    (start stop : Nat) (reads : Text → Except Failure Text) (after : List Edit → Except Failure Text) : Prop where
  bottoms : ∀ first last, (∀ t ∈ first ++ last, Takes t) → Delimiter.block.Neutral (added settings lines stop first) →
    after [.insertBlockBottom target first, .insertBlockBottom target last] =
        after [.insertBlockBottom target (first ++ last)] ∧
      after [.insertBlockBottom target (first ++ last)] =
        reads (lines.take stop ++ added settings lines stop (first ++ last) ++ lines.drop stop).flatten
  tops : ∀ first last, (∀ t ∈ first ++ last, Takes t) → Delimiter.block.Neutral (added settings lines start first) →
    after [.insertBlockTop target first, .insertBlockTop target last] =
        after [.insertBlockTop target (last ++ first)] ∧
      after [.insertBlockTop target (last ++ first)] =
        reads (lines.take (start + 1) ++ added settings lines start (last ++ first) ++
          lines.drop (start + 1)).flatten
  apart : ∀ first last, (∀ t ∈ first ++ last, Takes t) → Delimiter.block.Neutral (added settings lines start first) →
    Delimiter.block.Neutral (added settings lines stop last) →
    after [.insertBlockTop target first, .insertBlockBottom target last] =
        after [.insertBlockBottom target last, .insertBlockTop target first] ∧
      after [.insertBlockBottom target last, .insertBlockTop target first] =
        reads (lines.take (start + 1) ++ added settings lines start first ++
          (lines.take stop).drop (start + 1) ++ added settings lines stop last ++ lines.drop stop).flatten

/-- Whatever is read after edits as they rewrite the content, block edits compose in. -/
theorem composes_of_rewrittenAll (path : Text)
    (hspan : Block.span target (Line.split settings.newline.text content) = .ok (some (start, stop)))
    (hlater : start < stop)
    (hafter : ∀ e rest next, (∀ other ∈ e :: rest, other.creates = false) →
      (∀ other ∈ e :: rest, ∀ t ∈ other.contents, Takes t) →
      rewrittenAll settings path (e :: rest) content = .ok next → after (e :: rest) = reads next) :
    Composes settings target Takes (Line.split settings.newline.text content) start stop reads after := by
  have hblock := HasBlock.of_span hspan hlater
  have hbounds := (Block.bounds_of_span hspan).2
  have hflat := Line.flatten_split settings.newline.text content
  generalize Line.split settings.newline.text content = lines at *
  dsimp only at hblock
  subst hflat
  -- the lines are taken apart in three ways, while what is added to them is said of them as a whole
  have hwhole : ∀ whole, whole = lines →
      HasBlock settings target (added settings lines start) (added settings lines stop) start stop whole := by
    rintro _ rfl
    exact hblock
  have hstart : (lines.take (start + 1)).length = start + 1 := List.length_take_of_le (by omega)
  have hstop : (lines.take stop).length = stop := List.length_take_of_le (by omega)
  refine ⟨fun first last htakes hfirst => ?_, fun first last htakes hfirst => ?_,
    fun first last htakes hfirst hlast => ?_⟩ <;>
    have htakes' := List.forall_mem_append.1 htakes
  · have hbottom := hwhole _ (List.take_append_drop stop lines)
    have hone := rewrittenAll_singleton (hbottom.rewritten_bottom hstop path (first ++ last))
    have htwo := hbottom.bottoms hstop hfirst path last
    rw [List.take_append_drop] at hone htwo
    have hone := hafter _ _ _ (by simp [creates]) (by simpa [contents] using htakes) hone
    exact ⟨(hafter _ _ _ (by simp [creates]) (by simpa [contents] using htakes') htwo).trans hone.symm, hone⟩
  · have htop := hwhole _ (List.take_append_drop (start + 1) lines)
    have hone := rewrittenAll_singleton (htop.rewritten_top hstart path (last ++ first))
    have htwo := htop.tops hstart hfirst path last
    rw [List.take_append_drop] at hone htwo
    have hone := hafter _ _ _ (by simp [creates]) (by simpa [contents, or_comm] using htakes) hone
    exact ⟨(hafter _ _ _ (by simp [creates]) (by simpa [contents] using htakes') htwo).trans hone.symm, hone⟩
  · have hparts : lines.take (start + 1) ++ (lines.take stop).drop (start + 1) ++ lines.drop stop = lines := by
      have htake : (lines.take stop).take (start + 1) = lines.take (start + 1) := by
        rw [List.take_take, Nat.min_eq_left hlater]
      rw [← htake, List.take_append_drop, List.take_append_drop]
    have hmiddle : (lines.take (start + 1)).length + ((lines.take stop).drop (start + 1)).length = stop := by
      rw [hstart, List.length_drop, hstop]
      omega
    have hdown := (hwhole _ hparts).top_bottom hstart hmiddle hfirst path last
    have hup := (hwhole _ hparts).bottom_top hstart hmiddle hlast path first
    rw [hparts] at hdown hup
    have hup := hafter _ _ _ (by simp [creates]) (by simpa [contents] using htakes'.symm) hup
    exact ⟨(hafter _ _ _ (by simp [creates]) (by simpa [contents] using htakes') hdown).trans hup.symm, hup⟩

end Edit

variable {settings : Settings} {path content : Text} {target : Target} {start stop : Nat}

theorem Storage.Keeps.composes {σ : Type} [Storage σ] {Takes : Text → Prop} {Holds : Text → σ → Prop} {s : σ}
    (h : Storage.Keeps settings path Takes Holds) (hholds : Holds content s)
    (hspan : Block.span target (Line.split settings.newline.text content) = .ok (some (start, stop)))
    (hlater : start < stop) :
    Edit.Composes settings target Takes (Line.split settings.newline.text content) start stop .ok
      (fun edits => (Op.outcome (Storage.readAfter settings path edits) s).1) :=
  Edit.composes_of_rewrittenAll path hspan hlater fun _ _ _ hcreates htakes hnext =>
    (h.ends_readAfter hholds hcreates htakes hnext).outcome

/-! ## Memories and disks -/

open Storage

namespace Memory

variable {m : Memory}

/-- A file that holds a content, not in the place of the working directory. -/
structure HoldsContent (path content : Text) (m : Memory) : Prop where
  sound : m.Sound
  file : ∃ node, m.find? path = some node ∧ node.content = some content
  free : m.isFixed (m.walk path) = false

theorem keeps (settings : Settings) (path : Text) : Keeps settings path (fun _ => True) (HoldsContent path) where
  takes _ := trivial
  closed _ _ _ := trivial
  reads h := by
    obtain ⟨node, hnode, hcontent⟩ := h.file
    refine (ends_read hnode hcontent settings.encoding).mono ?_
    rintro _ _ ⟨rfl, rfl⟩
    exact ⟨rfl, h⟩
  writes {content m} h next _ := by
    obtain ⟨node, hnode, hcontent⟩ := h.file
    obtain ⟨tree, htree, -⟩ := exists_tree_of_find? hnode
    have hcomes : Ends (write path next) m (m.Comes fun _ => False) := h.sound.comes_write path next
    have hwritten : Ends (write path next) m fun result after => result = .ok () ∧
        (∃ node, after.find? path = some node ∧ node.content = some next) ∧
          after.isFixed (after.walk path) = false := by
      refine h.sound.ends_overwrite hnode hcontent (fun hfixed => ?_) fun hfree => ⟨rfl, ?_, ?_⟩
      · rw [h.free] at hfixed
        cases hfixed
      · exact find?_overwrite htree (h.sound.not_blocked_of_find? htree hnode) next
      · rw [isFixed_changeTree, walk_changeTree]
        exact hfree
    exact (hcomes.and hwritten).mono fun _ _ hends =>
      ⟨hends.2.1, hends.1.sound h.sound, hends.2.2.1, hends.2.2.2⟩

/-- What is read in a memory after edits of a file that was read before. -/
theorem Reachable.composes (h : m.Reachable)
    (hspan : Block.span target (Line.split settings.newline.text content) = .ok (some (start, stop)))
    (hlater : start < stop) (hread : (Op.outcome (Storage.read settings.encoding path) m).1 = .ok content) :
    Edit.Composes settings target (fun _ => True) (Line.split settings.newline.text content) start stop
      (fun next => if m.isFixed (m.walk path) then .error (.ofErrno Errno.isDirectory path) else .ok next)
      (fun edits => (Op.outcome (readAfter settings path edits) m).1) := by
  obtain ⟨node, hnode, hcontent⟩ := exists_file_of_read hread
  refine Edit.composes_of_rewrittenAll path hspan hlater fun e rest next hcreates htakes hnext => ?_
  split
  · rename_i hfixed
    obtain ⟨first, hfirst, -⟩ := exists_of_bind_eq_ok hnext
    refine (ends_readAfter_refused (ends_read hnode hcontent settings.encoding) (fun last => ?_)
      (hcreates e List.mem_cons_self) hfirst).outcome
    exact h.sound.ends_overwrite hnode hcontent (fun _ => rfl) fun hfree => by
      rw [hfixed] at hfree
      cases hfree
  · rename_i hfree
    have hholds : HoldsContent path content m := ⟨h.sound, ⟨node, hnode, hcontent⟩, by simpa using hfree⟩
    exact ((keeps settings path).ends_readAfter hholds hcreates htakes hnext).outcome

end Memory

namespace Disk

variable {base route : List Text} {d : Disk}

/-- A file below a base that holds a content. -/
def HoldsContent (base route : List Text) (content : Text) (d : Disk) : Prop :=
  ∃ l mode, Shows base l d ∧ l route = some (.file mode content)

theorem keeps (hroute : Below base route) (hnames : ∀ s ∈ route, Path.Name s)
    (hutf8 : NamesUtf8 settings.encoding) :
    Keeps settings (Path.ofSegments route) Text.Scalar (HoldsContent base route) where
  takes {content d} h := by
    obtain ⟨l, mode, hshows, hfile⟩ := h
    exact hshows.scalar hroute.1 hfile
  closed {content next e} hcontent hcontents hnext := by
    obtain ⟨splice, hsplice, hflat⟩ := exists_of_bind_eq_ok hnext
    rw [← Except.ok.inj hflat]
    refine Edit.scalar_of_splice ?_ hcontents hsplice
    rwa [Line.flatten_split]
  reads {content d} h := by
    obtain ⟨l, mode, hshows, hfile⟩ := h
    refine (hshows.ends_read hroute.1 hnames hutf8).mono ?_
    rintro (failure | found) after hfollows
    · exact absurd ⟨mode, content, hfile⟩ hfollows.1
    · obtain ⟨-, l', ⟨rfl, bits, hfound⟩, hafter⟩ := hfollows
      cases hfile.symm.trans hfound
      exact ⟨rfl, _, _, hafter, hfile⟩
  writes {content d} h next hnext := by
    obtain ⟨l, mode, hshows, hfile⟩ := h
    have hisFile : l.IsFile route := ⟨mode, content, hfile⟩
    refine (hshows.ends_write hroute hnames hisFile.not_isDirectory hutf8 hnext).mono ?_
    rintro (failure | found) after hfollows
    · exact absurd hfollows.1 (hshows.tree.not_blocked hisFile.ne_none)
    · obtain ⟨-, l', rfl, hafter⟩ := hfollows
      refine ⟨rfl, _, Node.fileMode, hafter, ?_⟩
      rw [Listing.write, Listing.put, if_pos rfl]

end Disk

/-- **Edits within a block compose**, in whatever storage keeps the file, so in every reachable memory and
on every disk without limits that holds it in UTF-8, which takes what has no surrogates. A memory refuses
them all where the file is in the place of the working directory. -/
theorem composes_of_span
    (hspan : Block.span target (Line.split settings.newline.text content) = .ok (some (start, stop)))
    (hlater : start < stop) :
    (∀ (σ : Type) [Storage σ] (Takes : Text → Prop) (Holds : Text → σ → Prop) (path : Text) (s : σ),
      Keeps settings path Takes Holds → Holds content s →
        Edit.Composes settings target Takes (Line.split settings.newline.text content) start stop .ok
          (fun edits => (Op.outcome (readAfter settings path edits) s).1)) ∧
      (∀ (m : Memory) (path : Text), m.Reachable →
        (Op.outcome (Storage.read settings.encoding path) m).1 = .ok content →
          Edit.Composes settings target (fun _ => True) (Line.split settings.newline.text content) start stop
            (fun next =>
              if m.isFixed (m.walk path) then .error (.ofErrno Errno.isDirectory path) else .ok next)
            (fun edits => (Op.outcome (readAfter settings path edits) m).1)) ∧
      ∀ (d : Disk) (base route : List Text), Below base route → (∀ s ∈ route, Path.Name s) →
        NamesUtf8 settings.encoding → d.HoldsContent base route content →
          Edit.Composes settings target Text.Scalar (Line.split settings.newline.text content) start stop .ok
            (fun edits => (Op.outcome (readAfter settings (Path.ofSegments route) edits) d).1) := by
  refine ⟨fun σ _ Takes Holds path s hkeeps hholds => hkeeps.composes hholds hspan hlater,
    fun m path h hread => h.composes hspan hlater hread, fun d base route hroute hnames hutf8 hholds => ?_⟩
  exact (Disk.keeps hroute hnames hutf8).composes hholds hspan hlater

/-- A file is written on a disk with nothing but a directory for it. -/
theorem Disk.exists_holdsContent {content : Text} (hcontent : content.Scalar) :
    ∃ d : Disk, d.HoldsContent [['b']] [['b'], ['f']] content := by
  have htogether : Together [['b']] _ _ := together_made (by decide) {}
  have hshows := htogether.paired.shows
  have hroute : Below [['b']] [['b'], ['f']] := ⟨List.prefix_append _ _, by decide⟩
  have hnone : (Op.outcome (Move.act {} (.makeDir (Path.ofSegments [['b']]))).run
      ({} : Memory)).2.store.flat.listing [['b'], ['f']] = none := rfl
  have hblocked := hshows.tree.not_blocked_of_free hshows.top hnone []
  have hutf8 : NamesUtf8 (Text.lit "utf-8") := ⟨rfl, rfl⟩
  have hno := fun hdirectory => Listing.IsDirectory.ne_none hdirectory hnone
  have hwritten := (hshows.ends_write hroute (by decide) hno hutf8 hcontent).outcome
  obtain ⟨-, l, -, rfl, hafter⟩ := hwritten.done hblocked
  refine ⟨_, _, Node.fileMode, hafter, ?_⟩
  rw [Listing.write, Listing.put, if_pos rfl]

/-- The additions to a block in a memory and on a disk, one of them a block that the target opens too. -/
theorem composes_of_span_nested :
    Block.span (.text (Text.lit "foo")) (Line.split ['\n'] (Text.lit "foo do\nend\n")) = .ok (some (0, 1)) ∧
      Delimiter.block.Neutral (Edit.added {} (Line.split ['\n'] (Text.lit "foo do\nend\n")) 0
        [Text.lit "foo do", Text.lit "end"]) ∧
      (∃ m : Memory, m.Reachable ∧
        (Op.outcome (Storage.read (Text.lit "utf-8") (Text.lit "f")) m).1 = .ok (Text.lit "foo do\nend\n") ∧
        (Op.outcome (readAfter {} (Text.lit "f") [.insertBlockTop (.text (Text.lit "foo"))
            [Text.lit "foo do", Text.lit "end"], .insertBlockBottom (.text (Text.lit "foo")) [Text.lit "x"]]) m).1 =
          .ok (Text.lit "foo do\n  foo do\n  end\n  x\nend\n") ∧
        Edit.Composes {} (.text (Text.lit "foo")) (fun _ => True) (Line.split ['\n'] (Text.lit "foo do\nend\n")) 0 1
          (fun next => if m.isFixed (m.walk (Text.lit "f")) then .error (.ofErrno Errno.isDirectory (Text.lit "f"))
            else .ok next)
          (fun edits => (Op.outcome (readAfter {} (Text.lit "f") edits) m).1)) ∧
      ∃ d : Disk, d.HoldsContent [['b']] [['b'], ['f']] (Text.lit "foo do\nend\n") ∧
        Edit.Composes {} (.text (Text.lit "foo")) Text.Scalar (Line.split ['\n'] (Text.lit "foo do\nend\n")) 0 1 .ok
          (fun edits => (Op.outcome (readAfter {} (Path.ofSegments [['b'], ['f']]) edits) d).1) := by
  have hsplit : Line.split Newline.lf.text (Text.lit "foo do\nend\n") =
      [Text.lit "foo do\n", Text.lit "end\n"] := by decide +kernel
  have hspan : Block.span (.text (Text.lit "foo")) (Line.split Newline.lf.text (Text.lit "foo do\nend\n")) =
      .ok (some (0, 1)) := by
    rw [hsplit]
    rfl
  have hreachable := Memory.Reachable.start.move (.act {} (.write (Text.lit "f") (Text.lit "foo do\nend\n")))
  have hscalar : Text.Scalar (Text.lit "foo do\nend\n") := by decide
  obtain ⟨d, hholds⟩ := Disk.exists_holdsContent hscalar
  have hroute : Below [['b']] [['b'], ['f']] := ⟨List.prefix_append _ _, by decide⟩
  refine ⟨hspan, by decide +kernel, ⟨_, hreachable, rfl, by decide +kernel, ?_⟩, d, hholds, ?_⟩
  · exact (composes_of_span hspan Nat.zero_lt_one).2.1 _ _ hreachable rfl
  · exact (composes_of_span hspan Nat.zero_lt_one).2.2 d _ _ hroute (by decide) ⟨rfl, rfl⟩ hholds

end Linework
