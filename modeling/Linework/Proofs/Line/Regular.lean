import Linework.Line

/-!
# Regular lines

The lists of lines that splitting at a terminator gives: every line but perhaps the last ends at the
first terminator in it, and the last, if it has none, ends in no other terminator either. Joining
such lines and splitting again gives them back (`Regular.split_flatten`), so no line of them is
ever merged with its neighbour.
-/

namespace Linework

namespace Text

variable {sep t front back : Text}

theorem cut?_eq_none_iff (hsep : sep ≠ []) : cut? sep t = none ↔ ¬ sep <:+: t := by
  induction t with
  | nil => simp [cut?, hsep]
  | cons c rest ih =>
    rw [cut?, List.infix_cons_iff, not_or, ← List.isPrefixOf_iff_prefix]
    split
    · rename_i hpre
      simp [hpre]
    · rename_i hpre
      simp [hpre, ih]

/-- What follows a cut does not move it. -/
theorem cut?_append (h : cut? sep t = some (front, back)) (more : Text) :
    cut? sep (t ++ more) = some (front, back ++ more) := by
  induction t generalizing front with
  | nil =>
    rw [cut?] at h
    split at h
    · rename_i hempty
      cases h
      cases List.isEmpty_iff.1 hempty
      cases more <;> simp [cut?]
    · cases h
  | cons c rest ih =>
    rw [cut?] at h
    split at h
    · rename_i hpre
      cases h
      have hlonger : sep.isPrefixOf (c :: (rest ++ more)) = true := by
        rw [List.isPrefixOf_iff_prefix] at hpre ⊢
        exact hpre.trans (List.prefix_append _ _)
      rw [List.cons_append, cut?, if_pos hlonger, ← List.cons_append,
        List.drop_append_of_le_length (List.isPrefixOf_iff_prefix.1 hpre).length_le]
    · rename_i hpre
      obtain ⟨⟨front', back'⟩, hcut, heq⟩ := Option.map_eq_some_iff.1 h
      cases heq
      have hshorter : ¬ sep.isPrefixOf (c :: (rest ++ more)) = true := by
        intro hlonger
        rw [List.isPrefixOf_iff_prefix] at hpre hlonger
        refine hpre (List.prefix_of_prefix_length_le hlonger (List.prefix_append _ more) ?_)
        have hlen := congrArg List.length (eq_append_of_cut? hcut)
        simp only [List.length_append, List.length_cons] at hlen ⊢
        omega
      rw [List.cons_append, cut?, if_neg hshorter, ih hcut]
      rfl

/-- What is in front of a cut cannot be cut. -/
theorem cut?_front (h : cut? sep t = some (front, back)) (hsep : sep ≠ []) : cut? sep front = none := by
  induction t generalizing front with
  | nil => simp [cut?, hsep] at h
  | cons c rest ih =>
    have happend := eq_append_of_cut? h
    rw [cut?] at h
    split at h
    · cases h
      simp [cut?, hsep]
    · rename_i hpre
      obtain ⟨⟨front', back'⟩, hcut, heq⟩ := Option.map_eq_some_iff.1 h
      cases heq
      have hshorter : ¬ sep.isPrefixOf (c :: front') = true := by
        intro hlonger
        rw [List.isPrefixOf_iff_prefix] at hpre hlonger
        rw [happend, List.append_assoc] at hpre
        exact hpre (hlonger.trans (List.prefix_append _ _))
      rw [cut?, if_neg hshorter, ih hcut]
      rfl

end Text

namespace Line

variable {newline : Newline} {line t : Text} {lines : List Text}

/-- A text without the terminator in it. -/
def Unsplit (newline : Newline) (t : Text) : Prop := Text.cut? newline.text t = none

/-- A line that ends at the first terminator in it. -/
def Ended (newline : Newline) (line : Text) : Prop :=
  ∃ body, Unsplit newline body ∧ line = body ++ newline.text

/-- A last line without a terminator. -/
structure Open (newline : Newline) (line : Text) : Prop where
  ne_nil : line ≠ []
  unsplit : Unsplit newline line
  unterminated : isTerminated line = false

/-- Every line is ended but perhaps the last. -/
inductive Regular (newline : Newline) : List Text → Prop
  | nil : Regular newline []
  | open {line : Text} (hopen : Open newline line) : Regular newline [line]
  | cons {line : Text} {rest : List Text} (hended : Ended newline line) (hrest : Regular newline rest) :
      Regular newline (line :: rest)

/-- A content that is empty, or ends in the terminator, or ends in none. -/
def Clean (newline : Newline) (content : Text) : Prop :=
  content = [] ∨ newline.text <:+ content ∨ isTerminated content = false

theorem unsplit_iff : Unsplit newline t ↔ ¬ newline.text <:+: t := Text.cut?_eq_none_iff newline.text_ne_nil

theorem Unsplit.of_prefix {whole : Text} (h : Unsplit newline whole) (hpre : t <+: whole) :
    Unsplit newline t := by
  rw [unsplit_iff] at h ⊢
  exact fun hmid => h (hmid.trans hpre.isInfix)

theorem unsplit_of_isTerminator_eq_false (h : ∀ c ∈ t, isTerminator c = false) : Unsplit newline t := by
  rw [unsplit_iff]
  intro hmid
  have hmem := fun c (hc : c ∈ newline.text) => h c (hmid.subset hc)
  cases newline <;> simp [Newline.text, isTerminator] at hmem

/-- No terminator comes about where two texts meet, unless a carriage return meets a line feed. -/
theorem Unsplit.append_of_seam {first last : Text} (hfirst : Unsplit newline first) (hlast : Unsplit newline last)
    (hseam : newline = .crlf → last.head? = some ('\n' : CodePoint) → first.getLast? ≠ some ('\r' : CodePoint)) :
    Unsplit newline (first ++ last) := by
  induction first with
  | nil => exact hlast
  | cons c rest ih =>
    rw [unsplit_iff, List.infix_cons_iff, not_or] at hfirst
    rw [List.cons_append, unsplit_iff, List.infix_cons_iff, not_or]
    have hrest : Unsplit newline (rest ++ last) := by
      refine ih (unsplit_iff.2 hfirst.2) fun hcrlf hlf hcr => hseam hcrlf hlf ?_
      rw [List.getLast?_cons_of_ne_nil (by rintro rfl; cases hcr), hcr]
    refine ⟨?_, unsplit_iff.1 hrest⟩
    have hnot := hfirst.1
    cases newline with
    | lf | cr => simpa [Newline.text, List.cons_prefix_cons] using hnot
    | crlf =>
      cases rest with
      | nil =>
        cases last with
        | nil => simp [Newline.text]
        | cons d more =>
          have hmeet : d = '\n' → c ≠ '\r' := by simpa using hseam rfl
          simp only [Newline.text, List.nil_append, List.cons_prefix_cons, List.nil_prefix, and_true, not_and]
          exact fun hc hd => hmeet hd.symm hc.symm
      | cons d more => simpa [Newline.text, List.cons_prefix_cons] using hnot

/-- No terminator comes about where a text that does not start with a line feed is added. -/
theorem Unsplit.append {first last : Text} (hfirst : Unsplit newline first) (hlast : Unsplit newline last)
    (hhead : last.head? ≠ some ('\n' : CodePoint)) : Unsplit newline (first ++ last) :=
  hfirst.append_of_seam hlast fun _ hlf => absurd hlf hhead

/-- The first terminator after a text without one is the one that is added. -/
theorem Unsplit.cut?_append (h : Unsplit newline t) :
    Text.cut? newline.text (t ++ newline.text) = some (t, []) := by
  induction t with
  | nil => cases newline <;> rfl
  | cons c rest ih =>
    have hrest := unsplit_iff.1 h
    rw [List.infix_cons_iff, not_or] at hrest
    have hnot : ¬ newline.text.isPrefixOf (c :: (rest ++ newline.text)) = true := by
      rw [List.isPrefixOf_iff_prefix]
      have hnot := hrest.1
      cases newline with
      | lf | cr => simpa [Newline.text, List.cons_prefix_cons] using hnot
      | crlf =>
        cases rest with
        | nil => simp [Newline.text, List.cons_prefix_cons]
        | cons d more => simpa [Newline.text, List.cons_prefix_cons] using hnot
    rw [List.cons_append, Text.cut?, if_neg hnot, ih (unsplit_iff.2 hrest.2)]
    rfl

theorem isTerminated_append_text (t : Text) : isTerminated (t ++ newline.text) = true := by
  cases newline <;> simp [isTerminated, Newline.text, isTerminator]

theorem Ended.isTerminated (h : Ended newline line) : isTerminated line = true := by
  obtain ⟨body, -, rfl⟩ := h
  exact isTerminated_append_text body

/-! ## Joining and splitting -/

theorem split_of_cut?_eq_none {sep : Text} (hcut : Text.cut? sep t = none) (hne : t ≠ []) :
    split sep t = [t] := by
  rw [split, if_neg hne]
  split
  · rfl
  · split
    · rfl
    · rename_i hsome
      rw [hcut] at hsome
      cases hsome

theorem split_of_cut? {sep front back : Text} (hsep : sep ≠ [])
    (hcut : Text.cut? sep t = some (front, back)) :
    split sep t = (front ++ sep) :: split sep back := by
  rw [split, dif_neg hsep]
  split
  · rename_i hnone
    rw [hcut] at hnone
    cases hnone
  · rename_i hsome
    cases hcut.symm.trans hsome
    rfl

/-- An ended line is split off from whatever follows it. -/
theorem Ended.split_append (h : Ended newline line) (t : Text) :
    split newline.text (line ++ t) = line :: split newline.text t := by
  obtain ⟨body, hbody, rfl⟩ := h
  exact split_of_cut? newline.text_ne_nil (Text.cut?_append hbody.cut?_append t)

/-- **Joined lines are split where they were joined.** -/
theorem Regular.split_flatten (h : Regular newline lines) : split newline.text lines.flatten = lines := by
  induction h with
  | nil => exact split_nil _
  | «open» hopen =>
    rw [List.flatten_singleton]
    exact split_of_cut?_eq_none hopen.unsplit hopen.ne_nil
  | @cons line rest hended _ ih => rw [List.flatten_cons, hended.split_append, ih]

theorem isTerminated_append {front back : Text} (hne : back ≠ []) :
    isTerminated (front ++ back) = isTerminated back := by
  rw [isTerminated, isTerminated, List.getLast?_append, List.getLast?_eq_some_getLast hne,
    Option.some_or]

/-- Two terminators do not overlap, so one at the end lies behind any that ends earlier. -/
theorem text_suffix_of_append {front back : Text} (hne : back ≠ [])
    (h : newline.text <:+ front ++ newline.text ++ back) : newline.text <:+ back := by
  rcases Nat.lt_or_ge back.length newline.text.length with hlt | hge
  · have hpos := List.length_pos_iff.2 hne
    cases newline with
    | lf | cr =>
      simp only [Newline.text, List.length_singleton] at hlt
      omega
    | crlf =>
      simp only [Newline.text, List.length_cons, List.length_nil] at hlt
      obtain ⟨c, rfl⟩ := List.length_eq_one_iff.1 (by omega : back.length = 1)
      have hlast : (['\n', c] : Text) <:+ front ++ Newline.crlf.text ++ [c] :=
        ⟨front ++ (['\r'] : Text), by simp [Newline.text]⟩
      have heq := (List.suffix_of_suffix_length_le h hlast (by simp [Newline.text])).eq_of_length
        (by simp [Newline.text])
      simp [Newline.text] at heq
  · exact List.suffix_of_suffix_length_le h (List.suffix_append _ _) hge

theorem Clean.of_append {front back : Text} (h : Clean newline (front ++ newline.text ++ back)) :
    Clean newline back := by
  by_cases hne : back = []
  · exact .inl hne
  · rcases h with hnil | hsuffix | hnot
    · simp [newline.text_ne_nil] at hnil
    · exact .inr (.inl (text_suffix_of_append hne hsuffix))
    · rw [isTerminated_append hne] at hnot
      exact .inr (.inr hnot)

/-- A clean content has regular lines. -/
theorem Clean.regular_split {content : Text} (h : Clean newline content) :
    Regular newline (split newline.text content) := by
  cases hcut : Text.cut? newline.text content with
  | none =>
    by_cases hne : content = []
    · rw [hne, split_nil]
      exact .nil
    · rw [split_of_cut?_eq_none hcut hne]
      refine .open ⟨hne, hcut, ?_⟩
      rcases h with hnil | hsuffix | hnot
      · exact absurd hnil hne
      · exact absurd hsuffix.isInfix (unsplit_iff.1 hcut)
      · exact hnot
  | some parts =>
    obtain ⟨front, back⟩ := parts
    have happend := Text.eq_append_of_cut? hcut
    have hless := length_back_lt_of_cut? newline.text_ne_nil hcut
    rw [split_of_cut? newline.text_ne_nil hcut]
    rw [happend] at h
    exact .cons ⟨front, Text.cut?_front hcut newline.text_ne_nil, rfl⟩ h.of_append.regular_split
termination_by content.length

theorem Regular.clean (h : Regular newline lines) : Clean newline lines.flatten := by
  induction h with
  | nil => exact .inl rfl
  | «open» hopen => exact .inr (.inr (by simpa using hopen.unterminated))
  | @cons line rest hended _ ih =>
    rw [List.flatten_cons]
    by_cases hne : rest.flatten = []
    · obtain ⟨body, -, rfl⟩ := hended
      rw [hne, List.append_nil]
      exact .inr (.inl (List.suffix_append _ _))
    · rcases ih with hnil | hsuffix | hnot
      · exact absurd hnil hne
      · exact .inr (.inl (hsuffix.trans (List.suffix_append _ _)))
      · exact .inr (.inr (by rw [isTerminated_append hne, hnot]))

/-! ## The lines of any content -/

theorem split_append_of_ended {front : List Text} (hfront : ∀ line ∈ front, Ended newline line) (t : Text) :
    split newline.text (front.flatten ++ t) = front ++ split newline.text t := by
  induction front with
  | nil => rfl
  | cons line rest ih =>
    rw [List.flatten_cons, List.append_assoc, (hfront line List.mem_cons_self).split_append,
      ih fun other hother => hfront other (List.mem_cons_of_mem _ hother), List.cons_append]

/-- Whatever a content ends in, its lines are ended but perhaps the last, which then has no terminator
in it that splits. -/
theorem exists_ended_append (newline : Newline) (content : Text) :
    ∃ (ended : List Text) (last? : Option Text), split newline.text content = ended ++ last?.toList ∧
      (∀ line ∈ ended, Ended newline line) ∧ ∀ line ∈ last?, Unsplit newline line := by
  cases hcut : Text.cut? newline.text content with
  | none =>
    by_cases hne : content = []
    · exact ⟨[], none, by rw [hne, split_nil]; rfl, nofun, nofun⟩
    · refine ⟨[], some content, split_of_cut?_eq_none hcut hne, nofun, ?_⟩
      rintro _ ⟨⟩
      exact hcut
  | some parts =>
    obtain ⟨front, back⟩ := parts
    have hless := length_back_lt_of_cut? newline.text_ne_nil hcut
    obtain ⟨ended, last?, hsplit, hended, hlast⟩ := exists_ended_append newline back
    refine ⟨(front ++ newline.text) :: ended, last?, ?_, ?_, hlast⟩
    · rw [split_of_cut? newline.text_ne_nil hcut, hsplit, List.cons_append]
    · rintro line (_ | ⟨_, hline⟩)
      · exact ⟨front, Text.cut?_front hcut newline.text_ne_nil, rfl⟩
      · exact hended line hline
termination_by content.length

theorem ended_or_unsplit_of_mem_split {content : Text} (h : line ∈ split newline.text content) :
    Ended newline line ∨ Unsplit newline line := by
  obtain ⟨ended, last?, hsplit, hended, hlast⟩ := exists_ended_append newline content
  rw [hsplit, List.mem_append, Option.mem_toList] at h
  exact h.imp (hended line) (hlast line)

/-- Whatever has a line after it is ended. -/
theorem ended_of_append_eq_split {content : Text} {front back : List Text}
    (hsplit : front ++ back = split newline.text content) (hback : back ≠ []) :
    ∀ line ∈ front, Ended newline line := by
  obtain ⟨ended, last?, heq, hended, -⟩ := exists_ended_append newline content
  rw [heq] at hsplit
  have hlength := congrArg List.length hsplit
  have hpos := List.length_pos_iff.2 hback
  have hle : last?.toList.length ≤ 1 := by cases last? <;> simp
  rw [List.length_append, List.length_append] at hlength
  have hpre : front <+: ended :=
    List.prefix_of_prefix_length_le ⟨back, hsplit⟩ (List.prefix_append _ _) (by omega)
  exact fun line hline => hended line (hpre.subset hline)

/-- **Ended lines put among the lines of a content** stay lines of their own, and leave the others
what they are. -/
theorem split_insert {content : Text} {front back run : List Text}
    (hsplit : front ++ back = split newline.text content) (hback : back ≠ [])
    (hrun : ∀ line ∈ run, Ended newline line) :
    split newline.text (front ++ run ++ back).flatten = front ++ run ++ back := by
  have hfront := ended_of_append_eq_split hsplit hback
  have hrest : split newline.text back.flatten = back := by
    have hwhole := split_append_of_ended hfront back.flatten
    rw [← List.flatten_append, hsplit, flatten_split, ← hsplit] at hwhole
    exact (List.append_cancel_left hwhole).symm
  rw [List.append_assoc, List.flatten_append, List.flatten_append, split_append_of_ended hfront,
    split_append_of_ended hrun, hrest]

end Line

end Linework
