import Linework.Proofs.Line.Regular

/-!
# Contents as factors

A content is made of lines in one way only: each line but perhaps the last ends at the first terminator
in it. Splitting finds these lines at any terminator, one that overlaps itself included
(`Factors.eq_split`, `factors_split`). The terminators of files do not overlap themselves, so a content may
be cut behind any of them and split in parts (`split_append_of_suffix`).
-/

namespace Linework

namespace Text

variable {sep t front back : Text}

theorem length_le_of_cut? (h : cut? sep t = some (front, back)) {other rest : Text}
    (hother : t = other ++ sep ++ rest) : front.length ≤ other.length := by
  induction t generalizing front other with
  | nil =>
    obtain ⟨hfront, -⟩ := List.append_eq_nil_iff.1 (List.append_assoc front sep back ▸ (eq_append_of_cut? h).symm)
    simp [hfront]
  | cons c more ih =>
    rw [cut?] at h
    split at h
    · cases h
      exact Nat.zero_le _
    · rename_i hpre
      obtain ⟨⟨found, left⟩, hcut, heq⟩ := Option.map_eq_some_iff.1 h
      cases heq
      cases other with
      | nil =>
        rw [List.isPrefixOf_iff_prefix] at hpre
        exact absurd ⟨rest, hother.symm⟩ hpre
      | cons d other =>
        have hmore : more = other ++ sep ++ rest := (List.cons.inj hother).2
        have hle := ih hcut hmore
        simp only [List.length_cons]
        omega

/-- A text is cut at the first place where the separator is. -/
theorem cut?_eq_some_iff (hsep : sep ≠ []) :
    cut? sep t = some (front, back) ↔
      t = front ++ sep ++ back ∧ ∀ other rest, t = other ++ sep ++ rest → front.length ≤ other.length := by
  constructor
  · intro h
    exact ⟨eq_append_of_cut? h, fun other rest => length_le_of_cut? h⟩
  · rintro ⟨heq, hfirst⟩
    cases hcut : cut? sep t with
    | none => exact absurd ⟨front, back, heq.symm⟩ ((cut?_eq_none_iff hsep).1 hcut)
    | some parts =>
      -- Both cuts are first places, so they are of one length, and of one text.
      obtain ⟨other, rest⟩ := parts
      have hother := eq_append_of_cut? hcut
      have hlength : front.length = other.length :=
        Nat.le_antisymm (hfirst other rest hother) (length_le_of_cut? hcut heq)
      rw [hother, List.append_assoc, List.append_assoc] at heq
      obtain ⟨rfl, htail⟩ := List.append_inj heq hlength.symm
      rw [List.append_cancel_left htail]

end Text

namespace Line

variable {sep line back content : Text} {lines rest : List Text} {newline : Newline}

/-- A line that is over where a terminator first is. -/
def EndsAtFirst (sep line : Text) : Prop :=
  ∃ body, line = body ++ sep ∧ ∀ other more, line = other ++ sep ++ more → body.length ≤ other.length

/-- The lines that a content is made of. -/
structure Factors (sep content : Text) (lines : List Text) : Prop where
  flatten : lines.flatten = content
  ne_nil : ∀ line ∈ lines, line ≠ []
  ended : ∀ line ∈ lines.dropLast, EndsAtFirst sep line
  last : ∀ line ∈ lines.getLast?, EndsAtFirst sep line ∨ ¬ sep <:+: line

theorem endsAtFirst_iff (hsep : sep ≠ []) : EndsAtFirst sep line ↔ ∃ body, Text.cut? sep line = some (body, []) := by
  simp only [EndsAtFirst, Text.cut?_eq_some_iff hsep, List.append_nil]

/-- What is in front of the rest after a cut is over where the terminator is. -/
theorem endsAtFirst_of_cut? {front : Text} (hcut : Text.cut? sep content = some (front, back)) :
    EndsAtFirst sep (front ++ sep) := by
  refine ⟨front, rfl, fun other more hother => ?_⟩
  have hwhole : content = other ++ sep ++ (more ++ back) := by
    rw [Text.eq_append_of_cut? hcut, hother, List.append_assoc]
  exact Text.length_le_of_cut? hcut hwhole

theorem EndsAtFirst.ne_nil (hsep : sep ≠ []) (h : EndsAtFirst sep line) : line ≠ [] := by
  obtain ⟨body, rfl, -⟩ := h
  exact List.append_ne_nil_of_right_ne_nil body hsep

/-- A line that is over is split off from whatever follows it. -/
theorem EndsAtFirst.split_append (hsep : sep ≠ []) (h : EndsAtFirst sep line) (back : Text) :
    split sep (line ++ back) = line :: split sep back := by
  obtain ⟨body, hcut⟩ := (endsAtFirst_iff hsep).1 h
  have hline : line = body ++ sep := by simpa using Text.eq_append_of_cut? hcut
  rw [split_of_cut? hsep (Text.cut?_append hcut back), List.nil_append, ← hline]

theorem factors_nil : Factors sep [] [] := ⟨rfl, nofun, nofun, nofun⟩

theorem Factors.cons (hsep : sep ≠ []) (hline : EndsAtFirst sep line) (h : Factors sep back rest) :
    Factors sep (line ++ back) (line :: rest) where
  flatten := by rw [List.flatten_cons, h.flatten]
  ne_nil := List.forall_mem_cons.2 ⟨hline.ne_nil hsep, h.ne_nil⟩
  ended := by
    cases rest with
    | nil => nofun
    | cons next more =>
      rw [List.dropLast_cons_of_ne_nil (List.cons_ne_nil _ _)]
      exact List.forall_mem_cons.2 ⟨hline, h.ended⟩
  last := by
    cases rest with
    | nil =>
      rintro other ⟨⟩
      exact .inl hline
    | cons next more => exact h.last

theorem Factors.tail (h : Factors sep content (line :: rest)) (hrest : rest ≠ []) :
    EndsAtFirst sep line ∧ Factors sep rest.flatten rest := by
  obtain ⟨-, hne, hended, hlast⟩ := h
  rw [List.dropLast_cons_of_ne_nil hrest] at hended
  rw [List.getLast?_cons_of_ne_nil hrest] at hlast
  obtain ⟨hline, hended⟩ := List.forall_mem_cons.1 hended
  exact ⟨hline, rfl, (List.forall_mem_cons.1 hne).2, hended, hlast⟩

/-- Splitting comes to factors. -/
theorem factors_split (hsep : sep ≠ []) (content : Text) : Factors sep content (split sep content) := by
  cases hcut : Text.cut? sep content with
  | none =>
    by_cases hne : content = []
    · rw [hne, split_nil]
      exact factors_nil
    · rw [split_of_cut?_eq_none hcut hne]
      refine ⟨List.flatten_singleton, by simpa using hne, nofun, ?_⟩
      rintro line ⟨⟩
      exact .inr ((Text.cut?_eq_none_iff hsep).1 hcut)
  | some parts =>
    obtain ⟨front, back⟩ := parts
    have hless := length_back_lt_of_cut? hsep hcut
    have hcons := (factors_split hsep back).cons hsep (endsAtFirst_of_cut? hcut)
    rw [split_of_cut? hsep hcut]
    rwa [← Text.eq_append_of_cut? hcut] at hcons
termination_by content.length

/-- Whatever factors a content has, splitting comes to them. -/
theorem Factors.eq_split (hsep : sep ≠ []) (h : Factors sep content lines) : lines = split sep content := by
  induction lines generalizing content with
  | nil => rw [← h.flatten, List.flatten_nil, split_nil]
  | cons line rest ih =>
    by_cases hrest : rest = []
    · subst hrest
      have hcontent : line = content := by simpa using h.flatten
      subst hcontent
      rcases h.last line rfl with hended | hfree
      · have hsplit := hended.split_append hsep []
        rw [List.append_nil, split_nil] at hsplit
        exact hsplit.symm
      · have hcut := (Text.cut?_eq_none_iff hsep).2 hfree
        exact (split_of_cut?_eq_none hcut (h.ne_nil line List.mem_cons_self)).symm
    · obtain ⟨hended, htail⟩ := h.tail hrest
      rw [← h.flatten, List.flatten_cons, hended.split_append hsep, ← ih htail]

/-- Behind a terminator of a file nothing is left of it, so what is in front is split on its own. -/
theorem split_append_of_suffix {front : Text} (h : front = [] ∨ newline.text <:+ front) (back : Text) :
    split newline.text (front ++ back) = split newline.text front ++ split newline.text back := by
  rcases h with rfl | hsuffix
  · rw [split_nil]
    rfl
  · cases hcut : Text.cut? newline.text front with
    | none => exact absurd hsuffix.isInfix (unsplit_iff.1 hcut)
    | some parts =>
      obtain ⟨body, rest⟩ := parts
      have hless := length_back_lt_of_cut? newline.text_ne_nil hcut
      -- This is where an overlap would hurt: half of the terminator would be gone with the line.
      have hrest : rest = [] ∨ newline.text <:+ rest := by
        rw [Text.eq_append_of_cut? hcut] at hsuffix
        by_cases hne : rest = []
        · exact .inl hne
        · exact .inr (text_suffix_of_append hne hsuffix)
      rw [split_of_cut? newline.text_ne_nil (Text.cut?_append hcut back),
        split_of_cut? newline.text_ne_nil hcut, split_append_of_suffix hrest back, List.cons_append]
termination_by front.length

/-- **A content has one factorisation**, and splitting finds it, whatever the terminator. Behind one of the
terminators that files use, a content is split in parts. -/
theorem split_unique_factors (sep content : Text) (hsep : sep ≠ []) :
    split? sep content = .ok (split sep content) ∧
      (∀ lines, Factors sep content lines ↔ lines = split sep content) ∧
      ∀ (newline : Newline) (front back : Text), front = [] ∨ newline.text <:+ front →
        split newline.text (front ++ back) = split newline.text front ++ split newline.text back := by
  refine ⟨if_neg hsep, fun lines => ⟨Factors.eq_split hsep, ?_⟩, fun _ _ back h => split_append_of_suffix h back⟩
  rintro rfl
  exact factors_split hsep content

/-- A terminator that overlaps itself, and carriage returns and line feeds beside those that make one. -/
theorem split_unique_factors_overlapping :
    Text.lit "aa" ≠ [] ∧ split? (Text.lit "aa") (Text.lit "aaaba") = .ok [Text.lit "aa", Text.lit "aba"] ∧
      Newline.crlf.text <:+ Text.lit "\r\r\n" ∧
      split Newline.crlf.text (Text.lit "\r\r\n\n\r\n") =
        split Newline.crlf.text (Text.lit "\r\r\n") ++ split Newline.crlf.text (Text.lit "\n\r\n") := by
  have hsep : Text.lit "aa" ≠ [] := by decide
  have hfactors : Factors (Text.lit "aa") (Text.lit "aaaba") [Text.lit "aa", Text.lit "aba"] := by
    have hlast : Factors (Text.lit "aa") (Text.lit "aba") [Text.lit "aba"] := by
      refine ⟨rfl, by decide, nofun, ?_⟩
      rintro line ⟨⟩
      exact .inr (by decide)
    have hfirst : EndsAtFirst (Text.lit "aa") (Text.lit "aa") := (endsAtFirst_iff hsep).2 ⟨[], by decide⟩
    exact hlast.cons hsep hfirst
  have hsuffix : Newline.crlf.text <:+ Text.lit "\r\r\n" := ⟨['\r'], rfl⟩
  obtain ⟨hok, hunique, hparts⟩ := split_unique_factors (Text.lit "aa") (Text.lit "aaaba") hsep
  refine ⟨hsep, ?_, hsuffix, hparts .crlf (Text.lit "\r\r\n") (Text.lit "\n\r\n") (.inr hsuffix)⟩
  rw [hok, ← (hunique _).1 hfactors]

end Line

end Linework
