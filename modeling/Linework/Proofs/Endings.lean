import Linework.Proofs.Disk.Grounded
import Linework.Proofs.Disk.ReadBack
import Linework.Proofs.Edit.Block
import Linework.Proofs.Line.Uniform
import Linework.Proofs.Memory.Reachable

/-!
# Edits keep line endings uniform

What an edit adds to lines of one kind is of that kind, for it gets the terminator that is detected in them;
where none is, all lines are bare, and the content takes on the kind of the settings (`Edit.uniform_of_rewritten`).
So edits one after the other leave a content uniform, and in the same kind as long as there is a terminated line
(`Settled`), whether or not some of them fail: a storage then guards what the file held, or has emptied it
(`Storage.Guards`). This is so of memories and of disks (`keepsEndings_of_uniform`).
-/

namespace Linework

open Line

/-- Contents, one after the other, with uniform line endings each, the same as at first as long as there have
been any. -/
def Line.Settled (newline kind : Newline) (content : Text) (contents : List Text) : Prop :=
  ∀ before now, before ++ [now] <+: contents →
    ∃ kind' : Newline, newline.text <:+ kind'.text ∧ Uniform kind' now ∧
      ((∀ earlier ∈ content :: before, terminators earlier ≠ []) → kind' = kind)

namespace Edit

variable {settings : Settings} {path : Text} {e : Edit} {kind : Newline} {lines : List Text} {content next : Text}

/-! ## One edit -/

theorem bare_indentation {line : Text} (h : Trim kind line) : Bare (indentation line) := by
  have hprefix : ∀ row, Bare row → Bare ((Text.dropEndWhile isTerminator row).takeWhile Text.isBlank) :=
    fun row hrow c hc => hrow c ((prefix_dropEndWhile _ _).subset ((List.takeWhile_prefix _).subset hc))
  obtain ⟨row, hrow, rfl | rfl⟩ := h
  · exact hprefix line hrow
  · rw [indentation, dropEndWhile_append_text]
    exact hprefix row hrow

/-- **What is added** to lines of a kind is of that kind, if it is the one that is detected in them. -/
theorem Adds.trim {contents : List Text} {line : Text} (hline : Adds settings contents lines line)
    (h : ∀ old ∈ lines, Trim kind old) (hdetect : detect lines settings.newline.text = kind.text) : Trim kind line := by
  cases hline with
  | row hrow =>
    rw [hdetect]
    exact .of_append hrow
  | @terminated old hold =>
    rw [hdetect]
    unfold terminate
    split
    · exact h old hold
    · rename_i hnot
      obtain ⟨row, hrow, rfl | rfl⟩ := h old hold
      · exact .of_append hrow
      · exact absurd (isTerminated_append_text row) hnot
  | @indented old row hold hrow =>
    rw [hdetect]
    have hoffset : Bare (indentation old ++ settings.unit) := by
      intro c hc
      rcases List.mem_append.1 hc with hc | hc
      · exact bare_indentation (h old hold) c hc
      · rw [List.eq_of_mem_replicate hc]
        rfl
    unfold indentLine
    split
    · exact .of_append hrow
    · rw [← List.append_assoc]
      refine .of_append fun c hc => ?_
      rcases List.mem_append.1 hc with hc | hc
      · exact hoffset c hc
      · exact hrow c hc

/-- **An edit** of a content with uniform line endings makes another one, with the same if there are any. -/
theorem uniform_of_rewritten (hending : settings.newline.text <:+ kind.text) (h : Uniform kind content)
    (hnext : e.rewritten settings path content = .ok next) :
    ∃ kind' : Newline, settings.newline.text <:+ kind'.text ∧ Uniform kind' next ∧
      (terminators content ≠ [] → kind' = kind) := by
  obtain ⟨splice, hsplice, hflat⟩ := exists_of_bind_eq_ok hnext
  obtain ⟨hregular, htrim⟩ := h.regular_split hending
  have happlied := (fits_of_splice hregular hsplice).regular_apply hregular
  -- where the terminator that is added is that of the old lines, all the lines of the edited content have it
  have huniform : ∀ kind' : Newline, (∀ line ∈ split settings.newline.text content, Trim kind' line) →
      detect (split settings.newline.text content) settings.newline.text = kind'.text → Uniform kind' next := by
    intro kind' htrim' hdetect
    rw [← Except.ok.inj hflat]
    refine happlied.uniform_flatten fun line hline => ?_
    rw [Splice.apply, List.append_assoc] at hline
    rcases List.mem_append.1 hline with hline | hline
    · exact htrim' line (List.take_subset _ _ hline)
    · rcases List.mem_append.1 hline with hline | hline
      · exact ((sited_of_splice hsplice).adds line hline).trim htrim' hdetect
      · exact htrim' line (List.drop_subset _ _ hline)
  rcases detect_eq_of_trim htrim settings.newline.text with hdetect | ⟨hdetect, hbare⟩
  · exact ⟨kind, hending, huniform kind htrim hdetect, fun _ => rfl⟩
  · refine ⟨settings.newline, List.suffix_refl _, huniform _ (fun line hline => .of_bare (hbare line hline)) hdetect, ?_⟩
    intro hsome
    have hnone := hregular.terminators_flatten hbare
    rw [flatten_split] at hnone
    exact absurd hnone hsome

/-! ## Edits one after the other -/

/-- What an edit of a content leaves: the content as it rewrites it, or, where it fails, what was there or nothing. -/
def Follows (settings : Settings) (path : Text) (e : Edit) (content : Text) (result : Except Failure Unit) (next : Text) :
    Prop :=
  match result with
  | .ok _ => e.rewritten settings path content = .ok next
  | .error _ => next = content ∨ next = []

/-- What each of some edits comes to, and what it leaves. -/
inductive Trail (settings : Settings) (path : Text) : Text → List Edit → List (Except Failure Unit × Text) → Prop
  | nil {content : Text} : Trail settings path content [] []
  | cons {content next : Text} {e : Edit} {rest : List Edit} {result : Except Failure Unit}
      {records : List (Except Failure Unit × Text)} (hfollows : e.Follows settings path content result next)
      (hrest : Trail settings path next rest records) :
      Trail settings path content (e :: rest) ((result, next) :: records)

variable {edits : List Edit} {records : List (Except Failure Unit × Text)} {result : Except Failure Unit}

theorem Follows.uniform (h : e.Follows settings path content result next)
    (hending : settings.newline.text <:+ kind.text) (huniform : Uniform kind content) :
    ∃ kind' : Newline, settings.newline.text <:+ kind'.text ∧ Uniform kind' next ∧
      (terminators content ≠ [] → kind' = kind) := by
  cases result with
  | ok _ => exact uniform_of_rewritten hending huniform h
  | error failure =>
    rcases h with rfl | rfl
    · exact ⟨kind, hending, huniform, fun _ => rfl⟩
    · exact ⟨kind, hending, nofun, fun _ => rfl⟩

/-- **Edits one after the other** keep line endings uniform. -/
theorem Trail.settled (h : Trail settings path content edits records) (hending : settings.newline.text <:+ kind.text)
    (huniform : Uniform kind content) : Settled settings.newline kind content (records.map Prod.snd) := by
  induction h generalizing kind with
  | nil =>
    intro before now hbefore
    cases List.append_eq_nil_iff.1 (List.prefix_nil.1 hbefore) with
    | intro _ hnow => cases hnow
  | @cons content next e rest result records hfollows _ ih =>
    obtain ⟨kind', hending', huniform', hsame⟩ := hfollows.uniform hending huniform
    intro before now hbefore
    cases before with
    | nil =>
      obtain ⟨rfl, -⟩ := List.cons_prefix_cons.1 hbefore
      exact ⟨kind', hending', huniform', fun hsome => hsame (hsome content List.mem_cons_self)⟩
    | cons first before =>
      obtain ⟨rfl, hrest⟩ := List.cons_prefix_cons.1 hbefore
      obtain ⟨last, hlast, hnow, hlater⟩ := ih hending' huniform' before now hrest
      refine ⟨last, hlast, hnow, fun hsome => ?_⟩
      have hfirst := hsame (hsome content List.mem_cons_self)
      exact (hlater fun earlier hearlier => hsome earlier (List.mem_cons_of_mem _ hearlier)).trans hfirst

end Edit

/-! ## Files -/

namespace Storage

variable {σ : Type} [Storage σ] {settings : Settings} {path : Text} {Holds : Text → σ → Prop} {content : Text} {s : σ}

/-- What each of some edits of a file comes to, and what the file is read as after it. -/
def history (settings : Settings) (path : Text) : σ → List Edit → List (Except Failure Unit × Except Failure Text)
  | _, [] => []
  | s, e :: rest =>
    let edited := Op.outcome (edit settings settings path e) s
    (edited.1, (Op.outcome (read settings.encoding path) edited.2.store).1) :: history settings path edited.2.store rest

/-- A file is read as the content that it holds. It holds what is written to it; where that fails, it holds what it
held, or nothing. -/
structure Guards (settings : Settings) (path : Text) (Holds : Text → σ → Prop) : Prop where
  reads {content : Text} {s : σ} : Holds content s → Op.Ends (read settings.encoding path) s
    fun result after => result = .ok content ∧ Holds content after
  touches {content : Text} {s : σ} : Holds content s → Op.Ends (touch path) s fun _ after => Holds content after
  writes {content : Text} {s : σ} : Holds content s → ∀ next, Op.Ends (write settings.encoding path next) s
    fun result after =>
      match result with
      | .ok _ => Holds next after
      | .error _ => Holds content after ∨ Holds [] after

theorem Guards.ends_rewrite (h : Guards settings path Holds) (hholds : Holds content s) (e : Edit) :
    Op.Ends (rewrite settings settings path e) s fun result after =>
      ∃ next, e.Follows settings path content result next ∧ Holds next after := by
  refine Storage.ends_rewrite (.map ((h.reads hholds).mono ?_))
  rintro _ after ⟨rfl, hafter⟩
  dsimp only [Except.map]
  cases hsplice : e.splice settings path (Line.split settings.newline.text content) with
  | error failure => exact ⟨content, .inl rfl, hafter⟩
  | ok splice =>
    refine (h.writes hafter _).mono ?_
    rintro (failure | _) last hlast
    · rcases hlast with hlast | hlast
      · exact ⟨content, .inl rfl, hlast⟩
      · exact ⟨[], .inr rfl, hlast⟩
    · exact ⟨_, Edit.rewritten_of_splice hsplice, hlast⟩

/-- **An edit of a file** that is guarded leaves what it makes of its content, or fails and loses no part of it. -/
theorem Guards.ends_edit (h : Guards settings path Holds) (hholds : Holds content s) (e : Edit) :
    Op.Ends (edit settings settings path e) s fun result after =>
      ∃ next, e.Follows settings path content result next ∧ Holds next after := by
  rw [edit_eq]
  split
  · refine .bind ((h.touches hholds).mono ?_)
    rintro (failure | _) after hafter
    · exact ⟨content, .inl rfl, hafter⟩
    · exact h.ends_rewrite hafter e
  · exact h.ends_rewrite hholds e

theorem Guards.trail (h : Guards settings path Holds) (hholds : Holds content s) (edits : List Edit) :
    ∃ records, history settings path s edits = records.map (fun record => (record.1, .ok record.2)) ∧
      Edit.Trail settings path content edits records := by
  induction edits generalizing content s with
  | nil => exact ⟨[], rfl, .nil⟩
  | cons e rest ih =>
    obtain ⟨next, hfollows, hnext⟩ := (h.ends_edit hholds e).outcome
    obtain ⟨records, hrecords, htrail⟩ := ih hnext
    have hread := (h.reads hnext).outcome.1
    refine ⟨_ :: records, ?_, .cons hfollows htrail⟩
    rw [history, hrecords, hread]
    rfl

/-- Edits of a file keep the endings of its content uniform, in all that is read after any of them. -/
def KeepsEndings (settings : Settings) (kind : Newline) (path content : Text) (s : σ) (edits : List Edit) : Prop :=
  ∃ records, history settings path s edits = records.map (fun record => (record.1, .ok record.2)) ∧
    Edit.Trail settings path content edits records ∧
    Settled settings.newline kind content (records.map Prod.snd)

theorem Guards.keepsEndings {kind : Newline} (h : Guards settings path Holds) (hholds : Holds content s)
    (hending : settings.newline.text <:+ kind.text) (huniform : Uniform kind content) (edits : List Edit) :
    KeepsEndings settings kind path content s edits := by
  obtain ⟨records, hrecords, htrail⟩ := h.trail hholds edits
  exact ⟨records, hrecords, htrail, htrail.settled hending huniform⟩

end Storage

namespace Memory

/-- A file of a sound memory holds a content. -/
def Stores (path content : Text) (m : Memory) : Prop :=
  m.Sound ∧ ∃ node, m.find? path = some node ∧ node.content = some content

theorem guards (settings : Settings) (path : Text) : Storage.Guards settings path (Stores path) where
  reads h := by
    obtain ⟨hsound, node, hnode, hcontent⟩ := h
    refine (ends_read hnode hcontent settings.encoding).mono ?_
    rintro _ _ ⟨rfl, rfl⟩
    exact ⟨rfl, hsound, node, hnode, hcontent⟩
  touches {content m} h := by
    obtain ⟨hsound, node, hnode, hcontent⟩ := id h
    obtain ⟨tree, htree, -⟩ := exists_tree_of_find? hnode
    refine hsound.ends_touch htree (fun _ _ _ => h) (fun _ _ _ => h) (fun hnone => ?_) fun hnone => ?_
    · rw [hnode] at hnone
      cases hnone
    · rw [hnode] at hnone
      cases hnone
  writes {content m} h next := by
    obtain ⟨hsound, node, hnode, hcontent⟩ := id h
    obtain ⟨tree, htree, -⟩ := exists_tree_of_find? hnode
    have hcomes : Op.Ends (write path next) m (m.Comes fun _ => False) := hsound.comes_write path next
    have hwritten : Op.Ends (write path next) m fun result after =>
        match result with
        | .ok _ => ∃ node, after.find? path = some node ∧ node.content = some next
        | .error _ => after = m :=
      hsound.ends_overwrite hnode hcontent (fun _ => rfl) fun _ =>
        find?_overwrite htree (hsound.not_blocked_of_find? htree hnode) next
    refine (hcomes.and hwritten).mono ?_
    rintro (failure | _) after ⟨hcomes, hafter⟩
    · rw [hafter]
      exact .inl h
    · exact ⟨hcomes.sound hsound, hafter⟩

end Memory

namespace Disk

/-- A file of a disk that a path leads to holds a content. -/
def Stores (encoding path content : Text) (d : Disk) : Prop :=
  d.Grounded ∧ d.host.Faithful encoding ∧ HostPath.Takes (HostPath.collapse path) ∧ d.Reads encoding path content

theorem guards (settings : Settings) (path : Text) :
    Storage.Guards settings path (Stores settings.encoding path) where
  reads h := by
    refine (h.2.2.2.ends_read h.2.2.1).mono ?_
    rintro _ after ⟨rfl, rfl⟩
    exact ⟨rfl, h⟩
  touches {content d} h := by
    obtain ⟨hgrounded, hfaithful, hpath, hreads⟩ := h
    have hmade : ∀ after, d.Made (Path.parent path) after → Stores settings.encoding path content after :=
      fun after hmade => ⟨(Steady.of_grown hmade.grown).grounded hgrounded, by rwa [hmade.grown.host], hpath,
        hreads.of_grown hmade.grown⟩
    refine (ends_touch path d).mono ?_
    rintro (failure | _) after htouched
    · exact hmade after htouched.1
    · rcases htouched with hafter | ⟨hnowhere, -⟩
      · exact hmade after hafter
      · obtain ⟨-, route, mode, bytes, hlocate, -⟩ := hreads
        exact absurd hlocate (hnowhere _)
  writes {content d} h next := by
    obtain ⟨hgrounded, hfaithful, hpath, hreads⟩ := h
    refine (ends_write settings.encoding path next d).mono fun result after hwrote => ?_
    obtain ⟨hafter, hread⟩ := hwrote.reads hfaithful hgrounded hreads
    rw [← hwrote.host_eq] at hfaithful
    cases result with
    | ok _ => exact ⟨hafter, hfaithful, hpath, hread⟩
    | error failure =>
      rcases hread with hread | hread
      · exact .inl ⟨hafter, hfaithful, hpath, hread⟩
      · exact .inr ⟨hafter, hfaithful, hpath, hread⟩

end Disk

/-- **Line endings stay uniform**, in memories and on disks, whatever the edits of a file and what they add. On a disk
the codec reads what it has written. -/
theorem keepsEndings_of_uniform {settings : Settings} {kind : Newline} {content : Text}
    (hending : settings.newline.text <:+ kind.text) (huniform : Uniform kind content) (edits : List Edit) :
    (∀ (m : Memory) (path : Text), m.Reachable →
      (Op.outcome (Storage.read settings.encoding path) m).1 = .ok content →
        Storage.KeepsEndings settings kind path content m edits) ∧
      ∀ (d : Disk) (path : Text), d.Grounded → d.host.Faithful settings.encoding →
        (Op.outcome (Storage.read settings.encoding path) d).1 = .ok content →
          Storage.KeepsEndings settings kind path content d edits := by
  constructor
  · intro m path hreachable hread
    exact (Memory.guards settings path).keepsEndings ⟨hreachable.sound, Memory.exists_file_of_read hread⟩ hending
      huniform edits
  · intro d path hgrounded hfaithful hread
    obtain ⟨hpath, hreads⟩ := Disk.reads_of_read hread
    exact (Disk.guards settings path).keepsEndings ⟨hgrounded, hfaithful, hpath, hreads⟩ hending huniform edits

/-- Line feeds and carriage returns are put into a content that has both at the ends of its lines. -/
theorem keepsEndings_crlf :
    Newline.lf.text <:+ Newline.crlf.text ∧ Uniform .crlf (Text.lit "a\r\nb") ∧
      (∃ m : Memory, m.Reachable ∧
        (Op.outcome (Storage.read (Text.lit "utf-8") ['f']) m).1 = .ok (Text.lit "a\r\nb") ∧
        Storage.KeepsEndings {} .crlf ['f'] (Text.lit "a\r\nb") m
          [.append [Text.lit "x\ny"], .prepend [Text.lit "z\r"], .remove (.text ['a'])]) ∧
      ∃ d : Disk, d.Grounded ∧ d.host.Faithful (Text.lit "utf-8") ∧
        (Op.outcome (Storage.read (Text.lit "utf-8") ['f']) d).1 = .ok (Text.lit "a\r\nb") ∧
        Storage.KeepsEndings {} .crlf ['f'] (Text.lit "a\r\nb") d
          [.append [Text.lit "x\ny"], .prepend [Text.lit "z\r"], .remove (.text ['a'])] := by
  have hending : Newline.lf.text <:+ Newline.crlf.text := ⟨['\r'], rfl⟩
  have huniform : Uniform .crlf (Text.lit "a\r\nb") := by
    unfold Uniform
    decide
  have hreachable := Memory.Reachable.start.move (.act {} (.write ['f'] (Text.lit "a\r\nb")))
  have hwritten := (Disk.ends_perform_acts {} (.write ['f'] (Text.lit "a\r\nb")) (Disk.atRoute [])).outcome
  have hgrounded := hwritten.1.grounded Disk.grounded_atRoot
  have hfaithful := Host.faithful_of_standard (congrArg Host.codecs hwritten.1.host)
  refine ⟨hending, huniform, ⟨_, hreachable, rfl, ?_⟩, _, hgrounded, hfaithful _, rfl, ?_⟩
  · exact (keepsEndings_of_uniform hending huniform _).1 _ _ hreachable rfl
  · exact (keepsEndings_of_uniform hending huniform _).2 _ _ hgrounded (hfaithful _) rfl

end Linework
