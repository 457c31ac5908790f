import Linework.Proofs.Edit.Class
import Mathlib.Data.List.Forall2
import Mathlib.Data.List.TakeWhile

/-!
# Lines that are indented

Blanks that are put before a line with something to show come in front of its indentation, whatever line terminators
are among them or at the end of the line (`Line.indentation_append`). So offsets that are put before lines one after
the other add up (`Line.indent_indent`). An edit inside a block or a class takes the offset from a line, its anchor
(`Edit.Anchored`), and each line that it adds and that shows is indented as the anchor is, then by one level, then as
it was (`Edit.deepens_of_splice`). No other line changes, and that is how the lines are read back from memories and
disks (`indents_by_offset`).
-/

namespace Linework

namespace Text

variable {front back t : Text}

/-- What is dropped from the end lies behind a character that is kept. -/
theorem dropEndWhile_append {p : CodePoint → Bool} (h : ∃ c ∈ back, p c = false) :
    dropEndWhile p (front ++ back) = front ++ dropEndWhile p back := by
  have hkept : (back.reverse.dropWhile p).isEmpty = false := by
    obtain ⟨c, hmem, hc⟩ := h
    rw [List.isEmpty_eq_false_iff]
    intro hnil
    have hall := List.dropWhile_eq_nil_iff.1 hnil c (List.mem_reverse.2 hmem)
    rw [hc] at hall
    cases hall
  rw [dropEndWhile, List.reverse_append, List.dropWhile_append, if_neg (by simp [hkept]), List.reverse_append,
    List.reverse_reverse]
  rfl

theorem isAllBlank_eq_false_iff : isAllBlank t = false ↔ ∃ c ∈ t, isBlank c = false := by
  simp [isAllBlank]

theorem isAllBlank_append : isAllBlank (front ++ back) = (isAllBlank front && isAllBlank back) :=
  List.all_append

end Text

namespace Line

variable {offset line : Text}

theorem isBlank_of_isTerminator {c : CodePoint} (h : isTerminator c = true) : Text.isBlank c = true := by
  rw [isTerminator, Bool.or_eq_true, beq_iff_eq, beq_iff_eq] at h
  rcases h with rfl | rfl <;> decide

/-- **Blanks before a line that shows** come in front of its indentation. -/
theorem indentation_append (hoffset : Text.isAllBlank offset = true) (hline : Text.isAllBlank line = false) :
    indentation (offset ++ line) = offset ++ indentation line := by
  have hkept : ∃ c ∈ line, isTerminator c = false := by
    obtain ⟨c, hmem, hc⟩ := Text.isAllBlank_eq_false_iff.1 hline
    refine ⟨c, hmem, ?_⟩
    rw [Bool.eq_false_iff]
    intro hterm
    rw [isBlank_of_isTerminator hterm] at hc
    cases hc
  rw [indentation, Text.dropEndWhile_append hkept, List.takeWhile_append_of_pos (List.all_eq_true.1 hoffset)]
  rfl

/-- Blanks before a line do not make it show, and do not hide it. -/
theorem isAllBlank_indentLine (hoffset : Text.isAllBlank offset = true) (line : Text) :
    Text.isAllBlank (indentLine offset line) = Text.isAllBlank line := by
  unfold indentLine
  split
  · rfl
  · rw [Text.isAllBlank_append, hoffset, Bool.true_and]

/-- **Offsets add up**, the last one in front. -/
theorem indent_indent (a b : Text) (lines : List Text) : indent b (indent a lines) = indent (b ++ a) lines := by
  rw [indent, indent, indent, List.map_map]
  refine List.map_congr_left fun line _ => ?_
  show indentLine b (indentLine a line) = indentLine (b ++ a) line
  cases hline : Text.isAllBlank line with
  | true => simp [indentLine, hline]
  | false => simp [indentLine, hline, Text.isAllBlank_append]

/-- A line that shows, with an offset before it, or a blank line as it is. -/
inductive Shifted (offset : Text) : Text → Text → Prop
  | blank {line : Text} (hline : ∀ c ∈ line, Text.isBlank c = true) : Shifted offset line line
  | shown {line : Text} (hline : ∃ c ∈ line, Text.isBlank c = false) : Shifted offset line (offset ++ line)

theorem shifted_iff {shifted : Text} : Shifted offset line shifted ↔ shifted = indentLine offset line := by
  cases hline : Text.isAllBlank line with
  | true =>
    have hblank := List.all_eq_true.1 hline
    rw [indentLine, if_pos hline]
    constructor
    · rintro (_ | ⟨c, hmem, hc⟩)
      · rfl
      · rw [hblank c hmem] at hc
        cases hc
    · rintro rfl
      exact .blank hblank
  | false =>
    have hshown := Text.isAllBlank_eq_false_iff.1 hline
    rw [indentLine, if_neg (by simp [hline])]
    constructor
    · rintro (hblank | _)
      · obtain ⟨c, hmem, hc⟩ := hshown
        rw [hblank c hmem] at hc
        cases hc
      · rfl
    · rintro rfl
      exact .shown hshown

/-- **Indenting lines** shifts each of them, and nothing else does. -/
theorem forall₂_shifted_iff {lines shifted : List Text} :
    List.Forall₂ (Shifted offset) lines shifted ↔ shifted = indent offset lines := by
  constructor
  · intro h
    induction h with
    | nil => rfl
    | cons hline _ ih =>
      rw [shifted_iff.1 hline, ih]
      rfl
  · rintro rfl
    rw [indent, List.forall₂_map_right_iff, List.forall₂_same]
    exact fun line _ => shifted_iff.2 rfl

end Line

namespace Edit

open Line

variable {settings : Settings} {path : Text} {e : Edit} {contents lines : List Text} {anchor place : Nat}
  {splice : Splice}

/-- The contents that an edit puts inside a block or a class. -/
def inner? : Edit → Option (List Text)
  | insertBlockTop _ contents | insertBlockBottom _ contents | insertClassBottom _ contents => some contents
  | _ => none

/-- The line that an edit inside a block or a class takes its offset from, and the place where its lines go: behind
the line that opens the block, or before the one that closes the block or the class. -/
inductive Anchored (lines : List Text) : Edit → (anchor place : Nat) → Prop
  | blockTop {target : Target} {contents : List Text} {start stop : Nat}
      (hspan : Block.span target lines = .ok (some (start, stop))) (hlater : start < stop) :
      Anchored lines (insertBlockTop target contents) start (start + 1)
  | blockBottom {target : Target} {contents : List Text} {start stop : Nat}
      (hspan : Block.span target lines = .ok (some (start, stop))) (hlater : start < stop) :
      Anchored lines (insertBlockBottom target contents) stop stop
  | classBottom {target : Target} {contents : List Text} {start stop : Nat}
      (hspan : Block.classSpan target lines = .ok (some (start, stop))) (hlater : start < stop) :
      Anchored lines (insertClassBottom target contents) stop stop

/-- The place is not the first, and there is a line at it. -/
theorem Anchored.bounds (h : Anchored lines e anchor place) :
    anchor ≤ place ∧ 0 < place ∧ place < lines.length := by
  cases h with
  | blockTop hspan hlater =>
    have hlt := (Block.bounds_of_span hspan).2
    omega
  | blockBottom hspan hlater =>
    have hlt := (Block.bounds_of_span hspan).2
    omega
  | classBottom hspan hlater =>
    have hlt := (Block.bounds_of_classSpan hspan).2
    omega

/-- What goes on from a block that is more than one line has found one. -/
theorem exists_of_search {search : Except Failure (Option (Nat × Nat))} {refusal : Failure} {put : Nat → Nat → Splice}
    (h : (search >>= fun found => match found with
      | none => throw refusal
      | some (start, stop) => if stop = start then throw refusal else pure (put start stop)) = .ok splice) :
    ∃ start stop, search = .ok (some (start, stop)) ∧ stop ≠ start ∧ splice = put start stop := by
  obtain ⟨found, hfound, h⟩ := exists_of_bind_eq_ok h
  cases found with
  | none => cases h
  | some span =>
    obtain ⟨start, stop⟩ := span
    dsimp only at h
    split at h
    · cases h
    · exact ⟨start, stop, hfound, ‹_›, (Except.ok.inj h).symm⟩

/-- An edit inside a block or a class puts in its lines, indented by the offset of its anchor. -/
theorem exists_anchored_of_splice (hinner : e.inner? = some contents)
    (h : e.splice settings path lines = .ok splice) :
    ∃ anchor place, Anchored lines e anchor place ∧ splice = ⟨place, 0, added settings lines anchor contents⟩ := by
  cases e with
  | insertBlockTop target _ =>
    cases hinner
    obtain ⟨start, stop, hspan, hother, rfl⟩ := exists_of_search h
    have hle := (Block.bounds_of_span hspan).1
    exact ⟨start, start + 1, .blockTop hspan (by omega), rfl⟩
  | insertBlockBottom target _ =>
    cases hinner
    obtain ⟨start, stop, hspan, hother, rfl⟩ := exists_of_search h
    have hle := (Block.bounds_of_span hspan).1
    exact ⟨stop, stop, .blockBottom hspan (by omega), rfl⟩
  | insertClassBottom target _ =>
    cases hinner
    obtain ⟨start, stop, hspan, hother, rfl⟩ := exists_of_search h
    have hle := (Block.bounds_of_classSpan hspan).1
    exact ⟨stop, stop, .classBottom hspan (by omega), rfl⟩
  | prepend | append | replace | insert | remove | removeBlock => cases hinner

theorem creates_of_inner (h : e.inner? = some contents) : e.creates = false := by
  cases e with
  | append => cases h
  | _ => rfl

/-- What becomes of a line inside a block or a class: if it shows, it is indented as the anchor is, then by one
level, then as it was. -/
structure Deepened (settings : Settings) (anchor line deeper : Text) : Prop where
  shifted : Shifted (indentation anchor ++ settings.unit) line deeper
  indentation : Text.isAllBlank deeper = false →
    indentation deeper = indentation anchor ++ settings.unit ++ indentation line

theorem isAllBlank_indentation (line : Text) : Text.isAllBlank (indentation line) = true := List.all_takeWhile

theorem isAllBlank_unit (settings : Settings) : Text.isAllBlank settings.unit = true := by
  refine List.all_eq_true.2 fun c hc => ?_
  rw [List.eq_of_mem_replicate hc]
  rfl

theorem deepened_indentLine (settings : Settings) (anchor line : Text) :
    Deepened settings anchor line (indentLine (indentation anchor ++ settings.unit) line) := by
  have hoffset : Text.isAllBlank (Line.indentation anchor ++ settings.unit) = true := by
    rw [Text.isAllBlank_append, isAllBlank_indentation, isAllBlank_unit, Bool.true_and]
  constructor
  · exact shifted_iff.2 rfl
  · intro hshown
    rw [isAllBlank_indentLine hoffset] at hshown
    rw [indentLine, if_neg (by simp [hshown]), indentation_append hoffset hshown]

/-- A splice that removes no line, and adds the lines that contents come to, each deeper than the anchor. -/
structure Deepens (settings : Settings) (lines : List Text) (e : Edit) (contents : List Text) (splice : Splice) :
    Prop where
  removed : splice.removed = 0
  added : ∃ anchor line, Anchored lines e anchor splice.start ∧ lines[anchor]? = some line ∧
    List.Forall₂ (Deepened settings line) (expand (detect lines settings.newline.text) contents) splice.added

/-- **An edit inside a block or a class** adds the lines that its contents come to, each deeper than its anchor. -/
theorem deepens_of_splice (hinner : e.inner? = some contents) (h : e.splice settings path lines = .ok splice) :
    Deepens settings lines e contents splice := by
  obtain ⟨anchor, place, hanchored, rfl⟩ := exists_anchored_of_splice hinner h
  obtain ⟨hle, hpos, hlt⟩ := hanchored.bounds
  have hline := List.getElem?_eq_getElem (Nat.lt_of_le_of_lt hle hlt)
  refine ⟨rfl, anchor, _, hanchored, hline, ?_⟩
  dsimp only
  unfold Edit.added inside indent
  rw [List.getD_eq_getElem?_getD, hline, Option.getD_some, List.forall₂_map_right_iff, List.forall₂_same]
  intro line _
  exact deepened_indentLine settings _ line

/-- **Lines added inside** a block or a class stay lines of their own, and leave the others what they are. -/
theorem split_apply_of_inner {newline : Newline} {content : Text} (hinner : e.inner? = some contents)
    (h : e.splice settings path (split newline.text content) = .ok splice) :
    split newline.text (splice.apply (split newline.text content)).flatten =
      splice.apply (split newline.text content) := by
  obtain ⟨anchor, place, hanchored, rfl⟩ := exists_anchored_of_splice hinner h
  obtain ⟨hle, hpos, hlt⟩ := hanchored.bounds
  have hsplit : split newline.text (split newline.text content).flatten = split newline.text content := by
    rw [flatten_split]
  apply split_insert
  · exact List.take_append_drop place _
  · simpa using hlt
  · exact ended_of_mem_added_of_split hsplit (by omega) (by omega) contents

end Edit

namespace Storage

variable {σ : Type} [Storage σ] {files lines : Settings} {path : Text} {Holds : Text → σ → Prop} {content : Text}
  {s : σ} {e : Edit} {contents : List Text}

theorem Guards.ends_readLines (h : Guards files path Holds) (hholds : Holds content s) :
    Op.Ends (readLines files path) s fun result _ => result = .ok (Line.split files.newline.text content) := by
  refine .map ((h.reads hholds).mono ?_)
  rintro _ after ⟨rfl, -⟩
  rfl

/-- An edit, if it succeeds, leaves the lines that its splice makes of those of the file. `files` tells how the file
is read. -/
def ReadsSpliced (files lines : Settings) (path : Text) (e : Edit) (content : Text) (s : σ) : Prop :=
  let old := Line.split files.newline.text content
  let edited := Op.outcome (edit files lines path e) s
  edited.1 = .ok () → ∃ splice, e.splice lines path old = .ok splice ∧
    (Op.outcome (readLines files path) edited.2.store).1 = .ok (splice.apply old)

theorem Guards.readsSpliced (h : Guards files path Holds) (hholds : Holds content s)
    (hinner : e.inner? = some contents) : ReadsSpliced files lines path e content s := by
  intro hok
  obtain ⟨splice, hsplice, hafter⟩ := (h.ends_edit_ok hholds (Edit.creates_of_inner hinner)).outcome hok
  refine ⟨splice, hsplice, ?_⟩
  rw [(h.ends_readLines hafter).outcome, Edit.split_apply_of_inner hinner hsplice]

end Storage

open Line

/-- **Lines are indented by offsets.** Blanks before a line that shows come in front of its indentation, and offsets
that are put before lines one after the other add up; as many lines come out as went in, the blank ones as they were
and the others with the offset before them. So each line that shows which an edit puts inside a block or a class is
indented as its anchor is, then by the blanks of one level, then as it was, and so it is read back from every
reachable memory and from every disk that keeps its place and whose codec reads what it has written. -/
theorem indents_by_offset :
    (∀ offset line, Text.isAllBlank offset = true → Text.isAllBlank line = false →
      indentation (offset ++ line) = offset ++ indentation line) ∧
    (∀ a b lines, indent b (indent a lines) = indent (b ++ a) lines) ∧
    (∀ offset lines, (indent offset lines).length = lines.length ∧
      ∀ shifted, List.Forall₂ (Shifted offset) lines shifted ↔ shifted = indent offset lines) ∧
    ∀ (e : Edit) (contents : List Text), e.inner? = some contents →
      (∀ (settings : Settings) (path : Text) (lines : List Text) (splice : Splice),
        e.splice settings path lines = .ok splice → e.Deepens settings lines contents splice) ∧
      ∀ (files lines : Settings) (path content : Text),
        (∀ m : Memory, m.Reachable → (Op.outcome (Storage.read files.encoding path) m).1 = .ok content →
          Storage.ReadsSpliced files lines path e content m) ∧
        ∀ d : Disk, d.Grounded → d.host.Faithful files.encoding →
          (Op.outcome (Storage.read files.encoding path) d).1 = .ok content →
            Storage.ReadsSpliced files lines path e content d := by
  refine ⟨fun offset line => indentation_append, indent_indent,
    fun offset lines => ⟨length_indent offset lines, fun shifted => forall₂_shifted_iff⟩, ?_⟩
  intro e contents hinner
  refine ⟨fun settings path lines splice => Edit.deepens_of_splice hinner, ?_⟩
  intro files lines path content
  constructor
  · intro m hreachable hread
    exact (Memory.guards files path).readsSpliced ⟨hreachable.sound, Memory.exists_file_of_read hread⟩ hinner
  · intro d hgrounded hfaithful hread
    obtain ⟨hpath, hreads⟩ := Disk.reads_of_read hread
    exact (Disk.guards files path).readsSpliced ⟨hgrounded, hfaithful, hpath, hreads⟩ hinner

/-- A line and an offset with terminators among their blanks, and a block that is opened behind a carriage return. -/
theorem indents_by_offset_terminators :
    Text.isAllBlank (Text.lit "\r\u2003 ") = true ∧ Text.isAllBlank (Text.lit "\r\n\tx\r\n") = false ∧
      indentation (Text.lit "\r\u2003 " ++ Text.lit "\r\n\tx\r\n") = Text.lit "\r\u2003 " ++ Text.lit "\r\n\t" ∧
      (Edit.insertBlockTop (.text ['f']) [Text.lit " a\n\nb"]).inner? = some [Text.lit " a\n\nb"] ∧
      (Edit.insertBlockTop (.text ['f']) [Text.lit " a\n\nb"]).splice {} ['p'] (["\t\rf do\n", "end\n"].map Text.lit) =
        .ok ⟨1, 0, ["\t\r   a\n", "\n", "\t\r  b\n"].map Text.lit⟩ ∧
      (Edit.insertBlockTop (.text ['f']) [Text.lit " a\n\nb"]).Deepens {} (["\t\rf do\n", "end\n"].map Text.lit)
        [Text.lit " a\n\nb"] ⟨1, 0, ["\t\r   a\n", "\n", "\t\r  b\n"].map Text.lit⟩ ∧
      (∃ m : Memory, m.Reachable ∧
        (Op.outcome (Storage.read (Text.lit "utf-8") ['p']) m).1 = .ok (Text.lit "\t\rf do\nend\n") ∧
        (Op.outcome (Storage.edit {} {} ['p'] (.insertBlockTop (.text ['f']) [Text.lit " a\n\nb"])) m).1 = .ok () ∧
        Storage.ReadsSpliced {} {} ['p'] (.insertBlockTop (.text ['f']) [Text.lit " a\n\nb"])
          (Text.lit "\t\rf do\nend\n") m) ∧
      ∃ d : Disk, d.Grounded ∧ d.host.Faithful (Text.lit "utf-8") ∧
        (Op.outcome (Storage.read (Text.lit "utf-8") ['p']) d).1 = .ok (Text.lit "\t\rf do\nend\n") ∧
        Storage.ReadsSpliced {} {} ['p'] (.insertBlockTop (.text ['f']) [Text.lit " a\n\nb"])
          (Text.lit "\t\rf do\nend\n") d := by
  have hoffset : Text.isAllBlank (Text.lit "\r\u2003 ") = true := by decide +kernel
  have hline : Text.isAllBlank (Text.lit "\r\n\tx\r\n") = false := by decide +kernel
  have hsplice : (Edit.insertBlockTop (.text ['f']) [Text.lit " a\n\nb"]).splice {} ['p']
      (["\t\rf do\n", "end\n"].map Text.lit) = .ok ⟨1, 0, ["\t\r   a\n", "\n", "\t\r  b\n"].map Text.lit⟩ := by
    decide +kernel
  have hreachable := Memory.Reachable.start.move (.act {} (.write ['p'] (Text.lit "\t\rf do\nend\n")))
  have hwritten := (Disk.ends_perform_acts {} (.write ['p'] (Text.lit "\t\rf do\nend\n")) (Disk.atRoute [])).outcome
  have hgrounded := hwritten.1.grounded Disk.grounded_atRoot
  have hfaithful := Host.faithful_of_standard (congrArg Host.codecs hwritten.1.host)
  obtain ⟨hindentation, -, -, hinner⟩ := indents_by_offset
  obtain ⟨hdeepens, hreads⟩ := hinner (.insertBlockTop (.text ['f']) [Text.lit " a\n\nb"]) _ rfl
  obtain ⟨hmemory, hdisk⟩ := hreads {} {} ['p'] (Text.lit "\t\rf do\nend\n")
  exact ⟨hoffset, hline, hindentation _ _ hoffset hline, rfl, hsplice, hdeepens _ _ _ _ hsplice,
    ⟨_, hreachable, rfl, by decide +kernel, hmemory _ hreachable rfl⟩, _, hgrounded, hfaithful _, rfl,
    hdisk _ hgrounded (hfaithful _) rfl⟩

end Linework
