import Linework.Proofs.Edit.Block
import Linework.Proofs.Line.Uniform

/-!
# Additions at the end

Lines that are added to a content get the terminator that is detected in it (`Line.adopted`). Whatever the
content ends in, that terminator is detected again in the content with the lines added (`adopted_continued`):
the first line that the content splits into stays what it is, or, if it was the only one and had no terminator
that splits, what is added brings none either. So what two additions make of a content is what one addition of
both makes of it (`Edit.rewrittenAll_append_append`).
-/

namespace Linework

namespace Line

variable {newline kind : Newline} {content t row front back more : Text} {rows first second : List Text}

/-! ## The terminator of a content -/

/-- The terminator that lines added to a content get. -/
def adopted (newline : Newline) (content : Text) : Text := detect (split newline.text content) newline.text

/-- A content with a first line that is ended goes by that line. -/
theorem adopted_of_cut? (h : Text.cut? newline.text content = some (front, back)) :
    terminator? (front ++ newline.text) = some (adopted newline content) := by
  have hended : Ended newline (front ++ newline.text) := ⟨front, Text.cut?_front h newline.text_ne_nil, rfl⟩
  obtain ⟨closing, hclosing⟩ := hended.exists_terminator?
  rw [adopted, split_of_cut? newline.text_ne_nil h, detect_cons hclosing, hclosing]

/-- A content that is not split goes by what it ends in. -/
theorem adopted_of_unsplit (h : Unsplit newline content) :
    adopted newline content = (terminator? content).getD newline.text := by
  by_cases hne : content = []
  · rw [hne, adopted, split_nil]
    cases newline <;> rfl
  · rw [adopted, split_of_cut?_eq_none h hne, detect, List.findSome?_cons]
    cases terminator? content <;> rfl

theorem adopted_nil (newline : Newline) : adopted newline [] = newline.text := by
  rw [adopted, split_nil]
  rfl

/-- What comes after a first line that is ended does not count. -/
theorem adopted_append_of_cut? (h : Text.cut? newline.text content = some (front, back)) (more : Text) :
    adopted newline (content ++ more) = adopted newline content := by
  have hmore := adopted_of_cut? (Text.cut?_append h more)
  rw [adopted_of_cut? h] at hmore
  exact (Option.some.inj hmore).symm

/-- A text without a terminator, once it gets one, goes by it. -/
theorem adopted_append_text (h : Unsplit newline t) (hopen : isTerminated t = false) (more : Text) :
    adopted newline (t ++ newline.text ++ more) = newline.text := by
  have hcut := Text.cut?_append h.cut?_append more
  have hfirst := adopted_of_cut? hcut
  rw [terminator?_append_text fun _ => getLast?_ne_of_isTerminated_eq_false hopen] at hfirst
  exact (Option.some.inj hfirst).symm

/-! ## Foreign terminators -/

/-- A text that ends in a terminator which does not split. -/
structure Foreign (newline kind : Newline) (t : Text) : Prop where
  unsplit : Unsplit newline t
  terminator : terminator? t = some kind.text

theorem getLast?_append_of_bare (hrow : Bare row) (hlf : Newline.lf.text <:+ t) :
    (t ++ row).getLast? ≠ some ('\r' : CodePoint) := by
  cases hlast : row.getLast? with
  | none =>
    obtain ⟨body, rfl⟩ := hlf
    rw [List.getLast?_eq_none_iff.1 hlast, List.append_nil]
    simp [Newline.text]
  | some c =>
    have hc := ne_of_isTerminator_eq_false (hrow c (List.mem_of_getLast? hlast))
    rw [List.getLast?_append, hlast, Option.some_or]
    simpa using hc.1

/-- A row with the same terminator, put behind it, does not split it either. -/
theorem Foreign.append_row (h : Foreign newline kind t) (hrow : Bare row) :
    Foreign newline kind (t ++ (row ++ kind.text)) := by
  obtain ⟨found, hfound, hsuffix, -⟩ := exists_newline_of_terminator? h.terminator
  rw [← hfound] at hsuffix
  have hlf : kind = .lf → (t ++ row).getLast? ≠ some ('\r' : CodePoint) := by
    rintro rfl
    exact getLast?_append_of_bare hrow hsuffix
  have hbody : Unsplit newline (t ++ row) := by
    refine h.unsplit.append hrow.unsplit fun hhead => ?_
    exact absurd (hrow _ (List.mem_of_head? hhead)) (by decide)
  have hkind : Unsplit newline kind.text := by
    rw [unsplit_iff]
    exact fun hmid => unsplit_iff.1 h.unsplit (hmid.trans hsuffix.isInfix)
  rw [← List.append_assoc]
  refine ⟨hbody.append_of_seam hkind fun _ hhead => hlf ?_, terminator?_append_text hlf⟩
  cases kind with
  | lf => rfl
  | crlf | cr => simp [Newline.text] at hhead

theorem Foreign.append_flatten (h : Foreign newline kind t)
    (hrows : ∀ line ∈ rows, ∃ row, Bare row ∧ line = row ++ kind.text) :
    Foreign newline kind (t ++ rows.flatten) := by
  induction rows generalizing t with
  | nil => simpa using h
  | cons line rest ih =>
    obtain ⟨row, hrow, rfl⟩ := hrows _ List.mem_cons_self
    rw [List.flatten_cons, ← List.append_assoc]
    exact ih (h.append_row hrow) fun other hother => hrows other (List.mem_cons_of_mem _ hother)

/-! ## Lines added to a content -/

/-- A content with lines added to it. An unterminated content is terminated first; where there is nothing to
terminate, an empty line in front of the addition is dropped. -/
def continued (closing content : Text) (rows : List Text) : Text :=
  if content = [] then rows.flatten
  else if isTerminated content then content ++ (if rows.head? = some closing then rows.tail else rows).flatten
  else content ++ closing ++ rows.flatten

theorem continued_of_head? {closing : Text} (hterminated : isTerminated content = true)
    (hhead : rows.head? ≠ some closing) : continued closing content rows = content ++ rows.flatten := by
  have hne : content ≠ [] := by
    rintro rfl
    cases hterminated
  rw [continued, if_neg hne, if_pos hterminated, if_neg hhead]

/-- **The terminator that is detected stays the same** when lines with it are added. -/
theorem adopted_continued (hrows : ∀ line ∈ rows, ∃ row, Bare row ∧ line = row ++ adopted newline content) :
    adopted newline (continued (adopted newline content) content rows) = adopted newline content := by
  by_cases hne : content = []
  · subst hne
    rw [continued, if_pos rfl, adopted_nil]
    cases rows with
    | nil => exact adopted_nil newline
    | cons line rest =>
      obtain ⟨row, hrow, rfl⟩ := hrows line List.mem_cons_self
      rw [adopted_nil, List.flatten_cons]
      exact adopted_append_text hrow.unsplit hrow.isTerminated_eq_false _
  · rw [continued, if_neg hne]
    cases hcut : Text.cut? newline.text content with
    | some parts =>
      split
      · exact adopted_append_of_cut? hcut _
      · rw [List.append_assoc]
        exact adopted_append_of_cut? hcut _
    | none =>
      have hunsplit : Unsplit newline content := hcut
      have hadopted := adopted_of_unsplit hunsplit
      split
      · rename_i hterminated
        obtain ⟨kind, hkind⟩ := exists_terminator?_of_isTerminated hterminated
        rw [hkind, Option.getD_some] at hadopted
        rw [hadopted] at hrows ⊢
        have hforeign : Foreign newline kind content := ⟨hunsplit, hkind⟩
        have hdropped : ∀ line ∈ if rows.head? = some kind.text then rows.tail else rows,
            ∃ row, Bare row ∧ line = row ++ kind.text := by
          intro line hline
          split at hline
          · exact hrows line (List.mem_of_mem_tail hline)
          · exact hrows line hline
        have hwhole := hforeign.append_flatten hdropped
        rw [adopted_of_unsplit hwhole.unsplit, hwhole.terminator, Option.getD_some]
      · rename_i hopen
        have hopen : isTerminated content = false := by simpa using hopen
        rw [terminator?_eq_none hopen, Option.getD_none] at hadopted
        rw [hadopted]
        exact adopted_append_text hunsplit hopen _

theorem isTerminated_append_flatten (hterminated : isTerminated t = true)
    (hrows : ∀ line ∈ rows, kind.text <:+ line) : isTerminated (t ++ rows.flatten) = true := by
  induction rows generalizing t with
  | nil => simpa using hterminated
  | cons line rest ih =>
    obtain ⟨row, rfl⟩ := hrows line List.mem_cons_self
    rw [List.flatten_cons, ← List.append_assoc]
    refine ih ?_ fun other hother => hrows other (List.mem_cons_of_mem _ hother)
    rw [← List.append_assoc]
    exact isTerminated_append_text _

/-- **Lines added one after the other** are added together, unless an empty line of the later ones would be
dropped behind the earlier ones. -/
theorem continued_continued (hfirst : ∀ line ∈ first, kind.text <:+ line) (hsecond : second.head? ≠ some kind.text) :
    continued kind.text (continued kind.text content first) second =
      continued kind.text content (first ++ second) := by
  have htail : ∀ line ∈ first.tail, kind.text <:+ line := fun line hline => hfirst line (List.mem_of_mem_tail hline)
  by_cases hne : content = []
  · subst hne
    cases first with
    | nil => rfl
    | cons line rest =>
      obtain ⟨row, rfl⟩ := hfirst line List.mem_cons_self
      have hterminated : isTerminated (continued kind.text [] ((row ++ kind.text) :: rest)) = true := by
        rw [continued, if_pos rfl, List.flatten_cons]
        exact isTerminated_append_flatten (isTerminated_append_text row) htail
      rw [continued_of_head? hterminated hsecond]
      simp [continued]
  · by_cases hterminated : isTerminated content = true
    · have hcontinued : continued kind.text content first =
          content ++ (if first.head? = some kind.text then first.tail else first).flatten := by
        rw [continued, if_neg hne, if_pos hterminated]
      have hlast : isTerminated (continued kind.text content first) = true := by
        have hadded : ∀ line ∈ if first.head? = some kind.text then first.tail else first, kind.text <:+ line := by
          intro line hline
          split at hline
          · exact htail line hline
          · exact hfirst line hline
        rw [hcontinued]
        exact isTerminated_append_flatten hterminated hadded
      rw [continued_of_head? hlast hsecond, hcontinued, continued, if_neg hne, if_pos hterminated]
      cases first with
      | nil => simp [hsecond]
      | cons line rest =>
        by_cases hline : line = kind.text <;> simp [hline]
    · have hlast : isTerminated (continued kind.text content first) = true := by
        rw [continued, if_neg hne, if_neg hterminated]
        exact isTerminated_append_flatten (isTerminated_append_text content) hfirst
      rw [continued_of_head? hlast hsecond, continued, if_neg hne, if_neg hterminated, continued, if_neg hne,
        if_neg hterminated, List.flatten_append, ← List.append_assoc]

theorem ne_nil_of_mem_split {line : Text} (h : line ∈ split newline.text content) : line ≠ [] := by
  fun_induction split newline.text content with
  | case1 | case2 | case3 => simp_all [newline.text_ne_nil]
  | case4 content _ _ hcontent =>
    rw [List.mem_singleton.1 h]
    exact hcontent
  | case5 content _ front back _ _ ih =>
    rcases List.mem_cons.1 h with rfl | h
    · simp [newline.text_ne_nil]
    · exact ih h

end Line

namespace Edit

open Line

variable {settings : Settings} {path content : Text} {first second : List Text}

/-- An addition to the lines of a content is one to the content. -/
theorem flatten_apply_appended (newline : Newline) (content closing : Text) (rows : List Text) :
    ((appended closing (split newline.text content) rows).apply (split newline.text content)).flatten =
      continued closing content rows := by
  have hflat := flatten_split newline.text content
  have hmem : ∀ line ∈ split newline.text content, line ≠ [] := fun line hline => ne_nil_of_mem_split hline
  generalize split newline.text content = lines at hflat hmem
  subst hflat
  unfold appended
  cases hlast : lines.getLast? with
  | none =>
    rw [List.getLast?_eq_none_iff.1 hlast]
    simp [continued, Splice.apply]
  | some last =>
    obtain ⟨front, rfl⟩ := List.getLast?_eq_some_iff.1 hlast
    have hne : last ≠ [] := hmem last (by simp)
    have hterminated : isTerminated (front ++ [last]).flatten = isTerminated last := by
      rw [List.flatten_append, List.flatten_singleton, isTerminated_append hne]
    have hcontent : (front ++ [last]).flatten ≠ [] := by simp [hne]
    rw [continued, if_neg hcontent, hterminated]
    cases hopen : isTerminated last with
    | false => simp [hopen, Splice.apply]
    | true =>
      have hwhole : (front ++ [last]).take (front.length + 1) = front ++ [last] := List.take_of_length_le (by simp)
      by_cases hhead : rows.head? = some closing <;> simp [hopen, hhead, hwhole, Splice.apply]

theorem rewritten_append (settings : Settings) (path content : Text) (contents : List Text) :
    rewritten settings path (.append contents) content =
      .ok (continued (adopted settings.newline content) content
        (expand (adopted settings.newline content) contents)) := by
  have hsplice : (Edit.append contents).splice settings path (split settings.newline.text content) =
      .ok (appended (adopted settings.newline content) (split settings.newline.text content)
        (expand (adopted settings.newline content) contents)) := rfl
  rw [rewritten_of_splice hsplice, flatten_apply_appended]

/-- **Two additions at the end of a content** come to one addition of both, if the second does not start with an
empty row. -/
theorem rewrittenAll_append_append (hsecond : (second.flatMap insertedRows).head? ≠ some []) :
    rewrittenAll settings path [.append first, .append second] content =
      rewritten settings path (.append (first ++ second)) content := by
  obtain ⟨kind, hkind⟩ : ∃ kind : Newline, adopted settings.newline content = kind.text := exists_detect _ _
  have hrow : ∀ line ∈ expand kind.text first, ∃ row, Bare row ∧ line = row ++ kind.text :=
    fun line hline => exists_row_of_mem_expand hline
  have hnext : adopted settings.newline (continued kind.text content (expand kind.text first)) = kind.text := by
    rw [← hkind] at hrow ⊢
    exact adopted_continued hrow
  have hends : ∀ line ∈ expand kind.text first, kind.text <:+ line := by
    intro line hline
    obtain ⟨row, -, rfl⟩ := hrow line hline
    exact List.suffix_append _ _
  have hhead : (expand kind.text second).head? ≠ some kind.text := by
    have hrows : expand kind.text second = (second.flatMap insertedRows).map (· ++ kind.text) := by
      rw [expand, List.map_flatMap]
    rw [hrows, List.head?_map]
    intro hempty
    obtain ⟨row, hrow, hlast⟩ := Option.map_eq_some_iff.1 hempty
    rw [List.append_left_eq_self.1 hlast] at hrow
    exact hsecond hrow
  have hboth : expand kind.text (first ++ second) = expand kind.text first ++ expand kind.text second :=
    List.flatMap_append
  rw [rewrittenAll_cons (rewritten_append settings path content first), hkind,
    rewrittenAll_singleton (rewritten_append settings path _ second), hnext, continued_continued hends hhead,
    rewritten_append, hkind, hboth]

end Edit

end Linework
