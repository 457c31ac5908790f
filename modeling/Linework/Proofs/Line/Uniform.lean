import Linework.Proofs.Edit.Splice

/-!
# Uniform line endings

A content is uniform when the terminators in it, read from the left, are all of one kind. Where that kind
ends in the terminator that splits, the lines of such a content are rows without terminators, each with
that kind at its end but perhaps the last (`Uniform.regular_split`), and whatever lines of that sort
are joined make a uniform content again (`Regular.uniform_flatten`).
-/

namespace Linework

namespace Line

variable {newline kind : Newline} {line row rest : Text} {lines : List Text}

/-- The terminators in a content, read from the left, `\r\n` taken as one. -/
def terminators : Text → List Newline
  | [] => []
  | '\r' :: '\n' :: rest => .crlf :: terminators rest
  | c :: rest =>
    if c = '\r' then .cr :: terminators rest
    else if c = '\n' then .lf :: terminators rest
    else terminators rest

/-- Every terminator in a content is of one kind. -/
def Uniform (kind : Newline) (content : Text) : Prop := ∀ found ∈ terminators content, found = kind

/-- A text with no terminator in it. -/
def Bare (row : Text) : Prop := ∀ c ∈ row, isTerminator c = false

/-- A row that has no terminator in it, and none or one of a kind at its end. -/
def Trim (kind : Newline) (line : Text) : Prop := ∃ row, Bare row ∧ (line = row ∨ line = row ++ kind.text)

theorem ne_of_isTerminator_eq_false {c : CodePoint} (h : isTerminator c = false) : c ≠ '\r' ∧ c ≠ '\n' := by
  simp only [isTerminator, Bool.or_eq_false_iff, beq_eq_false_iff_ne] at h
  exact ⟨h.2, h.1⟩

theorem terminators_append_of_bare (hrow : Bare row) (rest : Text) :
    terminators (row ++ rest) = terminators rest := by
  induction row with
  | nil => rfl
  | cons c more ih =>
    obtain ⟨hcr, hlf⟩ := ne_of_isTerminator_eq_false (hrow c List.mem_cons_self)
    have hmore : Bare more := fun d hd => hrow d (List.mem_cons_of_mem _ hd)
    rw [List.cons_append, terminators, if_neg hcr, if_neg hlf, ih hmore]
    rintro _ rfl
    exact absurd rfl hcr

theorem terminators_eq_nil_of_bare (hrow : Bare row) : terminators row = [] := by
  have h := terminators_append_of_bare hrow []
  rwa [List.append_nil] at h

/-- A carriage return counts with the line feed behind it. -/
theorem terminators_text_append (h : kind = .cr → rest.head? ≠ some ('\n' : CodePoint)) :
    terminators (kind.text ++ rest) = kind :: terminators rest := by
  cases kind with
  | lf => rfl
  | crlf => rfl
  | cr =>
    have hhead := h rfl
    cases rest with
    | nil => rfl
    | cons c more =>
      have hc : c ≠ '\n' := by simpa using hhead
      show terminators ('\r' :: c :: more) = _
      rw [terminators, if_pos rfl]
      simp [hc]

/-- A content is a row, or a row with the first terminator of the content behind it. -/
theorem exists_row (content : Text) : ∃ row, Bare row ∧
    (content = row ∨ ∃ found rest, content = row ++ found.text ++ rest ∧
      terminators content = found :: terminators rest) := by
  fun_induction terminators content with
  | case1 => exact ⟨[], nofun, .inl rfl⟩
  | case2 rest _ => exact ⟨[], nofun, .inr ⟨.crlf, rest, rfl, rfl⟩⟩
  | case3 rest _ _ => exact ⟨[], nofun, .inr ⟨.cr, rest, rfl, rfl⟩⟩
  | case4 rest _ _ _ => exact ⟨[], nofun, .inr ⟨.lf, rest, rfl, rfl⟩⟩
  | case5 c rest _ hcr hlf ih =>
    obtain ⟨row, hrow, hcontent⟩ := ih
    have hc : isTerminator c = false := by simp [isTerminator, hcr, hlf]
    refine ⟨c :: row, ?_, ?_⟩
    · rintro d (_ | ⟨_, hd⟩)
      · exact hc
      · exact hrow d hd
    · rcases hcontent with rfl | ⟨found, back, rfl, hfound⟩
      · exact .inl rfl
      · exact .inr ⟨found, back, rfl, hfound⟩

/-- The kinds that end in a terminator are those that a line which it splits off may have. -/
theorem closing_of_suffix (h : newline.text <:+ kind.text) : Closing newline kind.text := by
  cases newline <;> cases kind
  case lf.crlf => exact .longer rfl
  all_goals first
    | exact .same
    | exact absurd h (by decide)

theorem Bare.unsplit (h : Bare row) : Unsplit newline row := unsplit_of_isTerminator_eq_false h

theorem Bare.isTerminated_eq_false (h : Bare row) : isTerminated row = false := by
  unfold isTerminated
  cases hlast : row.getLast? with
  | none => rfl
  | some c => exact h c (List.mem_of_getLast? hlast)

theorem Bare.terminator?_eq_none (h : Bare row) : terminator? row = none :=
  Line.terminator?_eq_none h.isTerminated_eq_false

/-- The lines of a uniform content: rows with the terminator of the content, but perhaps the last. -/
theorem Uniform.regular_split {content : Text} (h : Uniform kind content) (hending : newline.text <:+ kind.text) :
    Regular newline (split newline.text content) ∧ ∀ line ∈ split newline.text content, Trim kind line := by
  obtain ⟨row, hrow, heq | ⟨found, rest, heq, hfound⟩⟩ := exists_row content
  · rw [heq]
    by_cases hne : row = []
    · rw [hne, split_nil]
      exact ⟨.nil, nofun⟩
    · rw [split_of_cut?_eq_none hrow.unsplit hne]
      refine ⟨.open ⟨hne, hrow.unsplit, hrow.isTerminated_eq_false⟩, fun line hline => ?_⟩
      exact ⟨row, hrow, .inl (List.mem_singleton.1 hline)⟩
  · have hkind : found = kind := h found (by rw [hfound]; exact List.mem_cons_self)
    have hrest : Uniform kind rest := fun other hother =>
      h other (by rw [hfound]; exact List.mem_cons_of_mem _ hother)
    rw [hkind] at heq
    have hended : Ended newline (row ++ kind.text) := (closing_of_suffix hending).ended hrow.unsplit
    have hlength : rest.length < content.length := by
      have hpos := List.length_pos_iff.2 kind.text_ne_nil
      simp only [heq, List.length_append]
      omega
    have hsplit := hrest.regular_split hending
    rw [heq, hended.split_append]
    refine ⟨.cons hended hsplit.1, fun line hline => ?_⟩
    rcases List.mem_cons.1 hline with rfl | hline
    · exact ⟨row, hrow, .inr rfl⟩
    · exact hsplit.2 line hline
termination_by content.length

/-! ## Lines of one kind -/

theorem Trim.of_bare (h : Bare row) : Trim kind row := ⟨row, h, .inl rfl⟩

theorem Trim.of_append (h : Bare row) : Trim kind (row ++ kind.text) := ⟨row, h, .inr rfl⟩

/-- The terminator of a line of a kind is that kind. -/
theorem Trim.terminator?_eq (h : Trim kind line) :
    terminator? line = none ∧ Bare line ∨ terminator? line = some kind.text := by
  obtain ⟨row, hrow, rfl | rfl⟩ := h
  · exact .inl ⟨hrow.terminator?_eq_none, hrow⟩
  · exact .inr (terminator?_append_text fun _ => getLast?_ne_of_isTerminated_eq_false hrow.isTerminated_eq_false)

/-- The terminator that is detected in lines of a kind: this kind, unless none of them is terminated. -/
theorem detect_eq_of_trim (h : ∀ line ∈ lines, Trim kind line) (default : Text) :
    detect lines default = kind.text ∨ detect lines default = default ∧ ∀ line ∈ lines, Bare line := by
  unfold detect
  cases hfind : lines.findSome? terminator? with
  | none =>
    refine .inr ⟨rfl, fun line hline => ?_⟩
    have hnone := List.findSome?_eq_none_iff.1 hfind line hline
    rcases (h line hline).terminator?_eq with ⟨-, hbare⟩ | hsome
    · exact hbare
    · rw [hnone] at hsome
      cases hsome
  | some closing =>
    obtain ⟨line, hline, hclosing⟩ := List.exists_of_findSome?_eq_some hfind
    rcases (h line hline).terminator?_eq with ⟨hnone, -⟩ | hsome
    · rw [hnone] at hclosing
      cases hclosing
    · exact .inl (Option.some.inj (hclosing.symm.trans hsome))

theorem Trim.lf_notMem (h : Trim .cr line) : ('\n' : CodePoint) ∉ line := by
  obtain ⟨row, hrow, rfl | rfl⟩ := h
  · exact fun hmem => absurd (hrow _ hmem) (by decide)
  · intro hmem
    rcases List.mem_append.1 hmem with hmem | hmem
    · exact absurd (hrow _ hmem) (by decide)
    · exact absurd hmem (by decide)

/-- **Joined lines of a kind** make a content that is uniform in it. -/
theorem Regular.uniform_flatten (h : Regular newline lines) (htrim : ∀ line ∈ lines, Trim kind line) :
    Uniform kind lines.flatten := by
  induction h with
  | nil => exact nofun
  | @«open» line hopen =>
    rw [List.flatten_singleton]
    obtain ⟨row, hrow, rfl | rfl⟩ := htrim line List.mem_cons_self
    · rw [Uniform, terminators_eq_nil_of_bare hrow]
      exact nofun
    · have hnot := hopen.unterminated
      rw [isTerminated_append_text] at hnot
      cases hnot
  | @cons line rest hended _ ih =>
    have hrest : ∀ other ∈ rest, Trim kind other := fun other hother => htrim other (List.mem_cons_of_mem _ hother)
    have hhead : kind = .cr → rest.flatten.head? ≠ some ('\n' : CodePoint) := by
      rintro rfl hlf
      obtain ⟨other, hother, hmem⟩ := List.mem_flatten.1 (List.mem_of_head? hlf)
      exact (hrest other hother).lf_notMem hmem
    rw [List.flatten_cons, Uniform]
    obtain ⟨row, hrow, rfl | rfl⟩ := htrim line List.mem_cons_self
    · have hyes := hended.isTerminated
      rw [hrow.isTerminated_eq_false] at hyes
      cases hyes
    · rw [List.append_assoc, terminators_append_of_bare hrow, terminators_text_append hhead]
      intro found hfound
      rcases List.mem_cons.1 hfound with rfl | hfound
      · rfl
      · exact ih hrest found hfound

/-- Joined bare lines are uniform in every kind, so there is no terminator in them. -/
theorem Regular.terminators_flatten (h : Regular newline lines) (hbare : ∀ line ∈ lines, Bare line) :
    terminators lines.flatten = [] := by
  have hlf : Uniform .lf lines.flatten := h.uniform_flatten fun line hline => .of_bare (hbare line hline)
  have hcr : Uniform .cr lines.flatten := h.uniform_flatten fun line hline => .of_bare (hbare line hline)
  refine List.eq_nil_iff_forall_not_mem.2 fun found hfound => ?_
  have hsame := (hlf found hfound).symm.trans (hcr found hfound)
  cases hsame

end Line

end Linework
