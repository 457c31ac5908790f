import Linework.Proofs.Block.Depth
import Linework.Proofs.Line.Regular
import Linework.Proofs.Text.Scalar

/-!
# Splices keep lines regular

An edit adds rows with the terminator it detects, and never behind an unterminated line
(`Edit.sited_of_splice`). So what it puts into regular lines are ended lines, and it puts them where
nothing unended comes before (`Edit.fits_of_splice`). The lines after it are regular again, and joining
and splitting them changes nothing (`Splice.Fits.regular_apply`).
-/

namespace Linework

namespace Line

variable {newline : Newline} {line t : Text} {lines : List Text}

/-- The terminators that lines to insert get: the one that splits, or one that ends in it. -/
inductive Closing (newline : Newline) : Text → Prop
  | same : Closing newline newline.text
  | longer (hlf : newline = .lf) : Closing newline Newline.crlf.text

theorem Closing.ended {closing body : Text} (h : Closing newline closing) (hbody : Unsplit newline body) :
    Ended newline (body ++ closing) := by
  cases h with
  | same => exact ⟨body, hbody, rfl⟩
  | longer hlf =>
    subst hlf
    refine ⟨body ++ (['\r'] : Text), hbody.append ?_ (by simp), by simp [Newline.text]⟩
    exact unsplit_iff.2 (by decide)

/-! ## What lines end in -/

theorem Regular.ended_or_open (h : Regular newline lines) (hmem : line ∈ lines) :
    Ended newline line ∨ Open newline line := by
  induction h with
  | nil => cases hmem
  | «open» hopen =>
    cases List.mem_singleton.1 hmem
    exact .inr hopen
  | cons hended _ ih =>
    rcases List.mem_cons.1 hmem with rfl | hmem
    · exact .inl hended
    · exact ih hmem

/-- A line feed at the end counts with the carriage return in front of it. -/
theorem exists_newline_of_terminator? {closing : Text} (h : terminator? line = some closing) :
    ∃ found : Newline, closing = found.text ∧ found.text <:+ line ∧
      (found = .lf → ¬ Newline.crlf.text <:+ line) := by
  simp only [terminator?, List.map_cons, List.map_nil, List.find?_cons, List.find?_nil, Text.endsIn] at h
  split at h
  · rename_i hcrlf
    cases h
    exact ⟨.crlf, rfl, List.isSuffixOf_iff_suffix.1 hcrlf, nofun⟩
  · rename_i hcrlf
    have hno : ¬ Newline.crlf.text <:+ line := fun hsuffix => by
      rw [List.isSuffixOf_iff_suffix.2 hsuffix] at hcrlf
      cases hcrlf
    split at h
    · rename_i hlf
      cases h
      exact ⟨.lf, rfl, List.isSuffixOf_iff_suffix.1 hlf, fun _ => hno⟩
    · split at h
      · rename_i hcr
        cases h
        exact ⟨.cr, rfl, List.isSuffixOf_iff_suffix.1 hcr, nofun⟩
      · cases h

/-- What is detected is one of the terminators in use. -/
theorem exists_detect (newline : Newline) (lines : List Text) :
    ∃ kind : Newline, detect lines newline.text = kind.text := by
  unfold detect
  cases hfind : lines.findSome? terminator? with
  | none => exact ⟨newline, rfl⟩
  | some closing =>
    obtain ⟨line, -, hclosing⟩ := List.exists_of_findSome?_eq_some hfind
    obtain ⟨kind, rfl, -⟩ := exists_newline_of_terminator? hclosing
    exact ⟨kind, rfl⟩

/-- The terminator that is put at the end of a text is the one of the line, unless both make a longer one. -/
theorem terminator?_append_text {kind : Newline} (h : kind = .lf → t.getLast? ≠ some ('\r' : CodePoint)) :
    terminator? (t ++ kind.text) = some kind.text := by
  have hsome : (terminator? (t ++ kind.text)).isSome := by
    refine List.find?_isSome.2 ⟨kind.text, ?_, List.isSuffixOf_iff_suffix.2 (List.suffix_append _ _)⟩
    cases kind <;> simp
  obtain ⟨closing, hclosing⟩ := Option.isSome_iff_exists.1 hsome
  obtain ⟨found, rfl, ⟨front, hfront⟩, hcrlf⟩ := exists_newline_of_terminator? hclosing
  have hlast := congrArg List.getLast? hfront
  rw [hclosing]
  cases kind with
  | lf =>
    cases found with
    | lf => rfl
    | crlf =>
      have hbody : t = front ++ (['\r'] : Text) := by
        have hsame : t ++ (['\n'] : Text) = (front ++ (['\r'] : Text)) ++ (['\n'] : Text) := by
          simpa [Newline.text] using hfront.symm
        exact List.append_cancel_right hsame
      exact absurd (by simp [hbody]) (h rfl)
    | cr => simp [Newline.text] at hlast
  | crlf =>
    cases found with
    | lf => exact absurd (List.suffix_append _ _) (hcrlf rfl)
    | crlf => rfl
    | cr => simp [Newline.text] at hlast
  | cr =>
    cases found with
    | lf | crlf => simp [Newline.text] at hlast
    | cr => rfl

theorem getLast?_ne_of_isTerminated_eq_false (h : isTerminated t = false) : t.getLast? ≠ some ('\r' : CodePoint) := by
  intro hlast
  rw [isTerminated, hlast] at h
  cases h

theorem terminator?_eq_none (h : isTerminated t = false) : terminator? t = none := by
  cases hterm : terminator? t with
  | none => rfl
  | some closing =>
    obtain ⟨found, -, ⟨front, rfl⟩, -⟩ := exists_newline_of_terminator? hterm
    rw [isTerminated_append_text] at h
    cases h

theorem exists_terminator?_of_isTerminated (h : isTerminated t = true) :
    ∃ kind : Newline, terminator? t = some kind.text := by
  obtain ⟨c, hlast, hc⟩ := (Option.any_eq_true _ _).1 h
  obtain ⟨front, rfl⟩ := List.getLast?_eq_some_iff.1 hlast
  have hkind : ∃ kind : Newline, [c] = kind.text := by
    rw [isTerminator, Bool.or_eq_true, beq_iff_eq, beq_iff_eq] at hc
    rcases hc with rfl | rfl
    · exact ⟨.lf, rfl⟩
    · exact ⟨.cr, rfl⟩
  obtain ⟨kind, hkind⟩ := hkind
  rw [hkind]
  by_cases hcr : kind = .lf ∧ front.getLast? = some ('\r' : CodePoint)
  · obtain ⟨rfl, hcr⟩ := hcr
    obtain ⟨body, rfl⟩ := List.getLast?_eq_some_iff.1 hcr
    refine ⟨.crlf, ?_⟩
    have hcrlf := @terminator?_append_text body .crlf (fun hlf => absurd hlf (by decide))
    simpa [Newline.text] using hcrlf
  · exact ⟨kind, terminator?_append_text fun hlf hlast => hcr ⟨hlf, hlast⟩⟩

theorem Ended.closing {closing : Text} (h : Ended newline line) (hterm : terminator? line = some closing) :
    Closing newline closing := by
  obtain ⟨body, -, rfl⟩ := h
  obtain ⟨found, rfl, ⟨front, hfront⟩, hcrlf⟩ := exists_newline_of_terminator? hterm
  have hlast := congrArg List.getLast? hfront
  cases newline with
  | lf =>
    cases found with
    | lf => exact .same
    | crlf => exact .longer rfl
    | cr => simp [Newline.text] at hlast
  | crlf =>
    cases found with
    | lf => exact absurd (List.suffix_append _ _) (hcrlf rfl)
    | crlf => exact .same
    | cr => simp [Newline.text] at hlast
  | cr =>
    cases found with
    | lf | crlf => simp [Newline.text] at hlast
    | cr => exact .same

theorem Open.terminator?_eq_none (h : Open newline line) : terminator? line = none :=
  Line.terminator?_eq_none h.unterminated

theorem Regular.closing_detect (h : Regular newline lines) :
    Closing newline (detect lines newline.text) := by
  unfold detect
  cases hfind : lines.findSome? terminator? with
  | none => exact .same
  | some closing =>
    obtain ⟨line, hmem, hterm⟩ := List.exists_of_findSome?_eq_some hfind
    rcases h.ended_or_open hmem with hended | hopen
    · exact hended.closing hterm
    · rw [hopen.terminator?_eq_none] at hterm
      cases hterm

/-! ## Lines to insert -/

theorem isTerminator_eq_false_of_mem_rows {row : Text} (h : row ∈ rows t) :
    ∀ c ∈ row, isTerminator c = false := by
  fun_induction rows t generalizing row with
  | case1 => simp_all
  | case2 rest ih =>
    rcases List.mem_cons.1 h with rfl | h
    · nofun
    · exact ih h
  | case3 c rest _ hterm ih =>
    rcases List.mem_cons.1 h with rfl | h
    · nofun
    · exact ih h
  | case4 c rest _ hterm hrows ih => simp_all
  | case5 c rest _ hterm first more hrows ih =>
    rw [hrows] at ih
    rcases List.mem_cons.1 h with rfl | h
    · intro d hd
      rcases List.mem_cons.1 hd with rfl | hd
      · simpa using hterm
      · exact ih List.mem_cons_self d hd
    · exact ih (List.mem_cons_of_mem _ h)

theorem subset_of_mem_rows {row : Text} (h : row ∈ rows t) : row ⊆ t := by
  fun_induction rows t generalizing row with
  | case1 => simp_all
  | case2 rest ih =>
    rcases List.mem_cons.1 h with rfl | h
    · exact List.nil_subset _
    · exact List.subset_cons_of_subset _ (List.subset_cons_of_subset _ (ih h))
  | case3 c rest _ hterm ih =>
    rcases List.mem_cons.1 h with rfl | h
    · exact List.nil_subset _
    · exact List.subset_cons_of_subset c (ih h)
  | case4 c rest _ hterm hrows ih => simp_all
  | case5 c rest _ hterm first more hrows ih =>
    rw [hrows] at ih
    rcases List.mem_cons.1 h with rfl | h
    · exact List.cons_subset_cons c (ih List.mem_cons_self)
    · exact List.subset_cons_of_subset c (ih (List.mem_cons_of_mem _ h))

theorem mem_insertedRows {row : Text} (h : row ∈ insertedRows t) : row ∈ rows t := by
  unfold insertedRows at h
  dsimp only at h
  split at h
  · exact List.dropLast_subset _ h
  · exact h

/-- Lines to insert are rows of the texts, without terminators, each with the same terminator. -/
theorem exists_row_subset_of_mem_expand {closing : Text} {texts : List Text} (h : line ∈ expand closing texts) :
    ∃ row, (∀ c ∈ row, isTerminator c = false) ∧ row ⊆ texts.flatten ∧ line = row ++ closing := by
  obtain ⟨t, ht, hline⟩ := List.mem_flatMap.1 h
  obtain ⟨row, hrow, rfl⟩ := List.mem_map.1 hline
  have hrow := mem_insertedRows hrow
  exact ⟨row, isTerminator_eq_false_of_mem_rows hrow,
    fun c hc => List.mem_flatten_of_mem ht (subset_of_mem_rows hrow hc), rfl⟩

theorem exists_row_of_mem_expand {closing : Text} {texts : List Text} (h : line ∈ expand closing texts) :
    ∃ row, (∀ c ∈ row, isTerminator c = false) ∧ line = row ++ closing := by
  obtain ⟨row, hrow, -, hline⟩ := exists_row_subset_of_mem_expand h
  exact ⟨row, hrow, hline⟩

theorem Closing.ended_terminate {closing : Text} (h : Closing newline closing)
    (hline : Ended newline line ∨ Open newline line) : Ended newline (terminate closing line) := by
  unfold terminate
  rcases hline with hended | hopen
  · rw [if_pos hended.isTerminated]
    exact hended
  · rw [if_neg (by simp [hopen.unterminated])]
    exact h.ended hopen.unsplit

/-! ## Indentation -/

theorem prefix_dropEndWhile (p : CodePoint → Bool) (t : Text) : Text.dropEndWhile p t <+: t := by
  have hsuffix := List.dropWhile_suffix p (l := t.reverse)
  exact List.reverse_suffix.1 (by simpa [Text.dropEndWhile] using hsuffix)

theorem dropEndWhile_append_text (body : Text) :
    Text.dropEndWhile isTerminator (body ++ newline.text) = Text.dropEndWhile isTerminator body := by
  cases newline <;> simp [Text.dropEndWhile, Newline.text, isTerminator]

/-- The indentation of a line may hold terminators of other kinds, but not the one that splits. -/
theorem unsplit_indentation (h : Ended newline line ∨ Unsplit newline line) :
    Unsplit newline (indentation line) := by
  have hblank : indentation line <+: Text.dropEndWhile isTerminator line := List.takeWhile_prefix _
  rcases h with ⟨body, hbody, rfl⟩ | hunsplit
  · rw [dropEndWhile_append_text] at hblank
    exact hbody.of_prefix (hblank.trans (prefix_dropEndWhile _ _))
  · exact hunsplit.of_prefix (hblank.trans (prefix_dropEndWhile _ _))

/-- Lines to insert are ended also when they are indented. -/
theorem Closing.ended_indentLine {closing offset row : Text} (h : Closing newline closing)
    (hoffset : Unsplit newline offset) (hrow : ∀ c ∈ row, isTerminator c = false) :
    Ended newline (indentLine offset (row ++ closing)) := by
  have hunsplit : Unsplit newline row := unsplit_of_isTerminator_eq_false hrow
  unfold indentLine
  split
  · exact h.ended hunsplit
  · rw [← List.append_assoc]
    refine h.ended (hoffset.append hunsplit ?_)
    cases row with
    | nil => simp
    | cons c rest =>
      have hc := hrow c List.mem_cons_self
      rintro ⟨⟩
      cases hc

end Line

/-! ## Where splices fit -/

namespace Splice

open Line

variable {newline : Newline} {lines : List Text} {splice : Splice}

/-- A splice puts ended lines where nothing unended comes before. -/
structure Fits (newline : Newline) (lines : List Text) (splice : Splice) : Prop where
  ended : ∀ line ∈ splice.added, Ended newline line
  before : ∀ line ∈ lines.take splice.start, Ended newline line

theorem regular_append {front back : List Text} (hfront : ∀ line ∈ front, Ended newline line)
    (hback : Regular newline back) : Regular newline (front ++ back) := by
  induction front with
  | nil => exact hback
  | cons line rest ih =>
    exact .cons (hfront line List.mem_cons_self) (ih fun other hother =>
      hfront other (List.mem_cons_of_mem _ hother))

theorem regular_drop (h : Regular newline lines) (count : Nat) : Regular newline (lines.drop count) := by
  induction h generalizing count with
  | nil =>
    rw [List.drop_nil]
    exact .nil
  | «open» hopen =>
    cases count with
    | zero => exact .open hopen
    | succ less =>
      rw [List.drop_succ_cons, List.drop_nil]
      exact .nil
  | cons hended hrest ih =>
    cases count with
    | zero => exact .cons hended hrest
    | succ less => exact ih less

/-- Whatever is not last is ended. -/
theorem ended_of_mem_take (h : Regular newline lines) {count : Nat} (hcount : count < lines.length) :
    ∀ line ∈ lines.take count, Ended newline line := by
  have hsplit : lines.take count ++ lines.drop count = split newline.text lines.flatten := by
    rw [List.take_append_drop, h.split_flatten]
  exact ended_of_append_eq_split hsplit (by simpa using hcount)

theorem ended_of_isTerminated_getLast (h : Regular newline lines) {last : Text}
    (hlast : lines.getLast? = some last) (hterminated : isTerminated last = true) :
    ∀ line ∈ lines, Ended newline line := by
  induction h with
  | nil => nofun
  | «open» hopen =>
    cases List.getLast?_singleton.symm.trans hlast
    rw [hopen.unterminated] at hterminated
    cases hterminated
  | @cons line rest hended _ ih =>
    intro other hother
    rcases List.mem_cons.1 hother with rfl | hother
    · exact hended
    · rw [List.getLast?_cons_of_ne_nil (List.ne_nil_of_mem hother)] at hlast
      exact ih hlast other hother

theorem Fits.regular_apply (hfits : splice.Fits newline lines) (h : Regular newline lines) :
    Regular newline (splice.apply lines) := by
  rw [Splice.apply, List.append_assoc]
  exact regular_append hfits.before (regular_append hfits.ended (regular_drop h _))

end Splice

namespace Edit

open Line

variable {settings : Settings} {path : Text} {edit : Edit} {lines : List Text} {splice : Splice}

theorem getD_mem {index : Nat} (h : index < lines.length) : lines.getD index [] ∈ lines := by
  rw [List.getD_eq_getElem?_getD, List.getElem?_eq_getElem h, Option.getD_some]
  exact List.getElem_mem h

/-- The texts that an edit inserts. -/
def contents : Edit → List Text
  | prepend contents | append contents | replace _ _ contents | insert _ _ _ contents | insertBlockTop _ contents
  | insertBlockBottom _ contents | insertClassBottom _ contents => contents
  | remove _ | removeBlock _ => []

/-- The lines that an edit of some lines may add: rows of its texts without terminators, which get the one
that is detected, and old lines that are terminated with it. -/
inductive Adds (settings : Settings) (contents lines : List Text) : Text → Prop
  | row {row : Text} (hrow : ∀ c ∈ row, isTerminator c = false) (hsub : row ⊆ contents.flatten) :
      Adds settings contents lines (row ++ detect lines settings.newline.text)
  | terminated {old : Text} (hold : old ∈ lines) :
      Adds settings contents lines (terminate (detect lines settings.newline.text) old)
  | indented {old row : Text} (hold : old ∈ lines) (hrow : ∀ c ∈ row, isTerminator c = false)
      (hsub : row ⊆ contents.flatten) :
      Adds settings contents lines
        (indentLine (indentation old ++ settings.unit) (row ++ detect lines settings.newline.text))

/-- Where an edit of some lines puts what it adds: at the top, or not behind the last line, unless that
is terminated. -/
structure Sited (settings : Settings) (contents lines : List Text) (splice : Splice) : Prop where
  adds : ∀ line ∈ splice.added, Adds settings contents lines line
  start : splice.start = 0 ∨ splice.start < lines.length ∨
    splice.start = lines.length ∧ ∃ last, lines.getLast? = some last ∧ isTerminated last = true

theorem adds_of_mem_expand {contents : List Text} {line : Text}
    (h : line ∈ expand (detect lines settings.newline.text) contents) : Adds settings contents lines line := by
  obtain ⟨row, hrow, hsub, rfl⟩ := exists_row_subset_of_mem_expand h
  exact .row hrow hsub

theorem adds_of_mem_inside {index : Nat} (hindex : index < lines.length) {contents : List Text} {line : Text}
    (h : line ∈ inside settings (detect lines settings.newline.text) lines index contents) :
    Adds settings contents lines line := by
  obtain ⟨plain, hplain, rfl⟩ := List.mem_map.1 h
  obtain ⟨row, hrow, hsub, rfl⟩ := exists_row_subset_of_mem_expand hplain
  exact .indented (getD_mem hindex) hrow hsub

theorem sited_appended {contents : List Text} :
    Sited settings contents lines (appended (detect lines settings.newline.text) lines
      (expand (detect lines settings.newline.text) contents)) := by
  have hadds : ∀ line ∈ expand (detect lines settings.newline.text) contents, Adds settings contents lines line :=
    fun line => adds_of_mem_expand
  unfold appended
  cases hlast : lines.getLast? with
  | none => exact ⟨hadds, .inl rfl⟩
  | some last =>
    have hmem := List.mem_of_getLast? hlast
    have hpos := List.length_pos_of_mem hmem
    dsimp only
    split
    · rename_i hnot
      have hterminated : last ++ detect lines settings.newline.text =
          terminate (detect lines settings.newline.text) last := by
        rw [terminate, if_neg (by simpa using hnot)]
      refine ⟨?_, .inr (.inl (by dsimp only; omega))⟩
      rintro line (_ | ⟨_, hline⟩)
      · rw [hterminated]
        exact .terminated hmem
      · exact hadds line hline
    · rename_i hterminated
      have hbehind : ∃ last, lines.getLast? = some last ∧ isTerminated last = true :=
        ⟨last, hlast, by simpa using hterminated⟩
      split
      · exact ⟨fun line hline => hadds line (List.mem_of_mem_tail hline), .inr (.inr ⟨rfl, hbehind⟩)⟩
      · exact ⟨hadds, .inr (.inr ⟨rfl, hbehind⟩)⟩

/-- **What an edit does to lines**: the lines it adds, and where. -/
theorem sited_of_splice (hsplice : edit.splice settings path lines = .ok splice) :
    Sited settings edit.contents lines splice := by
  have hexpand : ∀ contents : List Text, ∀ line ∈ expand (detect lines settings.newline.text) contents,
      Adds settings contents lines line := fun contents line => adds_of_mem_expand
  unfold Edit.splice at hsplice
  dsimp only at hsplice
  cases edit with
  | prepend contents =>
    cases hsplice
    exact ⟨hexpand contents, .inl rfl⟩
  | append contents =>
    cases hsplice
    exact sited_appended
  | replace which target contents =>
    dsimp only at hsplice
    split at hsplice
    · cases hsplice
    · rename_i index hindex
      cases hsplice
      exact ⟨hexpand contents, .inr (.inl (Block.lt_of_find? hindex))⟩
  | insert which side target contents =>
    dsimp only at hsplice
    split at hsplice
    · cases hsplice
    · rename_i index hindex
      have hlt := Block.lt_of_find? hindex
      cases side with
      | before =>
        cases hsplice
        exact ⟨hexpand contents, .inr (.inl hlt)⟩
      | after =>
        cases hsplice
        refine ⟨?_, .inr (.inl hlt)⟩
        rintro line (_ | ⟨_, hline⟩)
        · exact .terminated (getD_mem hlt)
        · exact hexpand contents line hline
  | remove target =>
    dsimp only at hsplice
    split at hsplice
    · cases hsplice
    · rename_i index hindex
      cases hsplice
      exact ⟨nofun, .inr (.inl (Block.lt_of_find? hindex))⟩
  | insertBlockTop target contents =>
    obtain ⟨span, hspan, hsplice⟩ := exists_of_bind_eq_ok hsplice
    split at hsplice
    · cases hsplice
    · rename_i start stop
      obtain ⟨hle, hlt⟩ := Block.bounds_of_span hspan
      split at hsplice
      · cases hsplice
      · cases hsplice
        exact ⟨fun line => adds_of_mem_inside (by omega), .inr (.inl (by dsimp only; omega))⟩
  | insertBlockBottom target contents =>
    obtain ⟨span, hspan, hsplice⟩ := exists_of_bind_eq_ok hsplice
    split at hsplice
    · cases hsplice
    · rename_i start stop
      obtain ⟨-, hlt⟩ := Block.bounds_of_span hspan
      split at hsplice
      · cases hsplice
      · cases hsplice
        exact ⟨fun line => adds_of_mem_inside hlt, .inr (.inl hlt)⟩
  | removeBlock target =>
    obtain ⟨span, hspan, hsplice⟩ := exists_of_bind_eq_ok hsplice
    split at hsplice
    · cases hsplice
    · rename_i start stop
      obtain ⟨hle, hlt⟩ := Block.bounds_of_span hspan
      cases hsplice
      exact ⟨nofun, .inr (.inl (by dsimp only; omega))⟩
  | insertClassBottom target contents =>
    obtain ⟨span, hspan, hsplice⟩ := exists_of_bind_eq_ok hsplice
    split at hsplice
    · cases hsplice
    · rename_i start stop
      obtain ⟨-, hlt⟩ := Block.bounds_of_classSpan hspan
      split at hsplice
      · cases hsplice
      · cases hsplice
        exact ⟨fun line => adds_of_mem_inside hlt, .inr (.inl hlt)⟩

/-! ## What fits regular lines -/

theorem unsplit_offset {old : Text} (hold : Ended settings.newline old ∨ Unsplit settings.newline old) :
    Unsplit settings.newline (indentation old ++ settings.unit) := by
  refine Unsplit.append (unsplit_indentation hold) (unsplit_of_isTerminator_eq_false fun c hc => ?_) ?_
  · rw [List.eq_of_mem_replicate hc]
    rfl
  · unfold Settings.unit
    cases settings.indentation with
    | zero => simp
    | succ less => simp [List.replicate_succ]

theorem ended_of_mem_inside {closing : Text} (hclosing : Closing settings.newline closing)
    (hlines : ∀ line ∈ lines, Ended settings.newline line ∨ Unsplit settings.newline line) {index : Nat}
    (hindex : index < lines.length) {contents : List Text} :
    ∀ line ∈ inside settings closing lines index contents, Ended settings.newline line := by
  intro line hline
  obtain ⟨plain, hplain, rfl⟩ := List.mem_map.1 hline
  obtain ⟨row, hrow, rfl⟩ := exists_row_of_mem_expand hplain
  exact hclosing.ended_indentLine (unsplit_offset (hlines _ (getD_mem hindex))) hrow

/-- What is added to regular lines is ended. -/
theorem Adds.ended {contents : List Text} {line : Text} (hline : Adds settings contents lines line)
    (h : Regular settings.newline lines) :
    Ended settings.newline line := by
  have hclosing := h.closing_detect
  cases hline with
  | row hrow => exact hclosing.ended (unsplit_of_isTerminator_eq_false hrow)
  | terminated hold => exact hclosing.ended_terminate (h.ended_or_open hold)
  | indented hold hrow =>
    exact hclosing.ended_indentLine (unsplit_offset ((h.ended_or_open hold).imp_right Open.unsplit)) hrow

/-- **The splice of an edit fits**: it puts ended lines where nothing unended comes before. -/
theorem fits_of_splice (h : Regular settings.newline lines)
    (hsplice : edit.splice settings path lines = .ok splice) : splice.Fits settings.newline lines := by
  have hsited := sited_of_splice hsplice
  refine ⟨fun line hline => (hsited.adds line hline).ended h, ?_⟩
  rcases hsited.start with hzero | hlt | ⟨hlength, last, hlast, hterminated⟩
  · rw [hzero]
    exact nofun
  · exact Splice.ended_of_mem_take h hlt
  · rw [hlength, List.take_length]
    exact Splice.ended_of_isTerminated_getLast h hlast hterminated

/-! ## Texts without surrogates -/

/-- Nothing is inserted that UTF-8 has no bytes for. -/
def Scalar (edit : Edit) : Prop := ∀ t ∈ edit.contents, Text.Scalar t

instance (edit : Edit) : Decidable edit.Scalar := inferInstanceAs (Decidable (∀ t ∈ edit.contents, Text.Scalar t))

theorem scalar_detect (settings : Settings) (lines : List Text) :
    Text.Scalar (detect lines settings.newline.text) := by
  obtain ⟨kind, hkind⟩ := exists_detect settings.newline lines
  rw [hkind]
  cases kind <;> decide

theorem Adds.scalar {contents : List Text} {line : Text} (hline : Adds settings contents lines line)
    (hlines : ∀ old ∈ lines, Text.Scalar old) (hcontents : ∀ t ∈ contents, Text.Scalar t) : Text.Scalar line := by
  have hclosing := scalar_detect settings lines
  have hcontents := Text.scalar_flatten_iff.2 hcontents
  cases hline with
  | row hrow hsub => exact Text.scalar_append_iff.2 ⟨hcontents.mono hsub, hclosing⟩
  | terminated hold =>
    unfold terminate
    split
    · exact hlines _ hold
    · exact Text.scalar_append_iff.2 ⟨hlines _ hold, hclosing⟩
  | @indented old row hold hrow hsub =>
    have hrow : Text.Scalar (row ++ detect lines settings.newline.text) :=
      Text.scalar_append_iff.2 ⟨hcontents.mono hsub, hclosing⟩
    have hblank : indentation old ⊆ old :=
      ((List.takeWhile_prefix _).trans (prefix_dropEndWhile isTerminator old)).subset
    have hunit : Text.Scalar settings.unit := fun c hc => by
      rw [List.eq_of_mem_replicate hc]
      rfl
    unfold indentLine
    split
    · exact hrow
    · exact Text.scalar_append_iff.2 ⟨Text.scalar_append_iff.2 ⟨(hlines old hold).mono hblank, hunit⟩, hrow⟩

/-- **An edit brings in no surrogates** but those of its texts. -/
theorem scalar_of_splice (hlines : Text.Scalar lines.flatten) (hedit : edit.Scalar)
    (hsplice : edit.splice settings path lines = .ok splice) : Text.Scalar (splice.apply lines).flatten := by
  have hlines := Text.scalar_flatten_iff.1 hlines
  refine Text.scalar_flatten_iff.2 fun line hline => ?_
  rcases List.mem_append.1 hline with hline | hline
  · rcases List.mem_append.1 hline with hline | hline
    · exact hlines line (List.mem_of_mem_take hline)
    · exact ((sited_of_splice hsplice).adds line hline).scalar hlines hedit
  · exact hlines line (List.mem_of_mem_drop hline)

end Edit

end Linework
