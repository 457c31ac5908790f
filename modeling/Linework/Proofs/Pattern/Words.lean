import Linework.Delimiter
import Linework.Proofs.Pattern.Tally
import Linework.Proofs.Text.Words

/-!
# Where words and blanks match

A fixed text matches where it comes next. Between the edges of a word it matches where it is the next run
of word characters (`run_wholeWord`), and a choice of words before an edge does so too (`run_anyWord_edge`).
Blanks in front of a word are all taken, since no word starts with one (`run_blanks`).
-/

namespace Linework

namespace Expr

variable {word : Text} {cursor : Cursor} {next : Next}

theorem text_cons_cons (c d : CodePoint) (rest : Text) : text (c :: d :: rest) = seq (char c) (text (d :: rest)) := rfl

theorem sequence_cons_cons (e f : Expr) (rest : List Expr) :
    sequence (e :: f :: rest) = seq e (sequence (f :: rest)) := rfl

theorem choice_cons_cons (e f : Expr) (rest : List Expr) : choice (e :: f :: rest) = alt e (choice (f :: rest)) := rfl

theorem run_char (c : CodePoint) (cursor : Cursor) (next : Next) : (char c).run cursor next =
    if cursor.after.head? = some c then next (cursor.past [c]) else none := by
  rw [char, run]
  cases hafter : cursor.after with
  | nil => rfl
  | cons d rest =>
    have hset : CharSet.has { items := [.code c.toNat] } d = decide (d = c) := by
      show ((d.toNat == c.toNat || false) != false) = _
      rw [Bool.eq_iff_iff]
      simp [CodePoint.toNat_inj]
    dsimp only
    rw [hset, Cursor.forward_eq_past hafter]
    by_cases hd : d = c <;> simp [hd]

theorem run_text (word : Text) (cursor : Cursor) (next : Next) : (text word).run cursor next =
    if word <+: cursor.after then next (cursor.past word) else none := by
  induction word generalizing cursor with
  | nil => simp [text, run]
  | cons c rest ih =>
    have hprefix : c :: rest <+: cursor.after ↔ cursor.after.head? = some c ∧ rest <+: (cursor.past [c]).after := by
      cases hafter : cursor.after with
      | nil => simp
      | cons d more => simp [Cursor.past, hafter, List.cons_prefix_cons, eq_comm]
    cases rest with
    | nil => simp [text, run_char, hprefix]
    | cons d more =>
      rw [text_cons_cons, run, run_char]
      simp only [ih, Cursor.past_past, hprefix, List.singleton_append]
      by_cases hhead : cursor.after.head? = some c <;> simp [hhead]

/-! ## Edges of words -/

/-- Behind a word there is an edge just where the word does not go on. -/
theorem run_edge_past (hword : Text.IsWordText word) : Delimiter.edge.run (cursor.past word) next =
    if (cursor.after.drop word.length).head?.any Text.isWord = false then next (cursor.past word) else none := by
  obtain ⟨front, last, rfl⟩ : ∃ front last, word = front ++ [last] :=
    ⟨_, _, (List.dropLast_concat_getLast hword.ne_nil).symm⟩
  have hlast : Text.isWord last = true := hword.word last (by simp)
  rw [Delimiter.edge, run]
  simp [Anchor.holds, Cursor.isEmptyText, Cursor.atWordEdge, Cursor.past, Alphabet.isWord, hlast]

/-- A word and its end match just where the word is all that comes next. -/
theorem run_text_edge (hword : Text.IsWordText word) (cursor : Cursor) (next : Next) :
    ((text word).run cursor fun mid => Delimiter.edge.run mid next) =
      if Text.leadingWord cursor.after = word then next (cursor.past word) else none := by
  rw [run_text]
  by_cases hprefix : word <+: cursor.after
  · obtain ⟨back, hback⟩ := hprefix
    have hleading : Text.leadingWord cursor.after = word ↔ back.head?.any Text.isWord = false := by
      rw [Text.leadingWord_eq_iff hword, ← hback]
      simp
    have hdrop : cursor.after.drop word.length = back := by
      rw [← hback, List.drop_left]
    rw [if_pos ⟨back, hback⟩, run_edge_past hword, hdrop]
    simp only [hleading]
  · have hleading : Text.leadingWord cursor.after ≠ word := by
      rintro rfl
      exact hprefix (List.takeWhile_prefix _)
    rw [if_neg hprefix, if_neg hleading]

theorem run_edge_of_leadingWord (hne : Text.leadingWord cursor.after ≠ []) : Delimiter.edge.run cursor next =
    if cursor.before.head?.any Text.isWord = false then next cursor else none := by
  have hhead := Text.leadingWord_ne_nil_iff.1 hne
  cases hafter : cursor.after with
  | nil =>
    rw [hafter] at hhead
    cases hhead
  | cons c rest =>
    have hc : Text.isWord c = true := by simpa [hafter] using hhead
    rw [Delimiter.edge, run]
    simp [Anchor.holds, Cursor.isEmptyText, Cursor.atWordEdge, Alphabet.isWord, hafter, hc]

/-- **A word on its own** matches where it is the next run of word characters. -/
theorem run_wholeWord {w : String} (hword : Text.IsWordText (Text.lit w)) (cursor : Cursor) (next : Next) :
    (Delimiter.wholeWord w).run cursor next =
      if cursor.before.head?.any Text.isWord = false ∧ Text.leadingWord cursor.after = Text.lit w then
        next (cursor.past (Text.lit w))
      else none := by
  rw [Delimiter.wholeWord, sequence_cons_cons, run, sequence_cons_cons, sequence]
  by_cases hleading : Text.leadingWord cursor.after = Text.lit w
  · rw [run_edge_of_leadingWord (by rw [hleading]; exact hword.ne_nil), run, run_text_edge hword, if_pos hleading]
    simp [hleading]
  · rw [if_neg (fun h => hleading h.2), Delimiter.edge, run, run]
    show (if _ then (text (Text.lit w)).run cursor (fun mid => Delimiter.edge.run mid next) else none) = none
    rw [run_text_edge hword, if_neg hleading, ite_self]

theorem run_anyWord_edge {words : List String} (hne : words ≠ []) (hwords : ∀ w ∈ words, Text.IsWordText (Text.lit w))
    (cursor : Cursor) (next : Next) :
    ((Delimiter.anyWord words).run cursor fun mid => Delimiter.edge.run mid next) =
      if Text.leadingWord cursor.after ∈ words.map Text.lit then
        next (cursor.past (Text.leadingWord cursor.after))
      else none := by
  induction words with
  | nil => exact absurd rfl hne
  | cons w rest ih =>
    have hw := run_text_edge (hwords w List.mem_cons_self) cursor next
    cases rest with
    | nil =>
      rw [Delimiter.anyWord, List.map_cons, List.map_nil, choice, hw]
      simp only [List.map_cons, List.map_nil, List.mem_singleton]
      split
      · rename_i h
        rw [h]
      · rfl
    | cons v more =>
      have hrest := ih (by simp) fun u hu => hwords u (List.mem_cons_of_mem _ hu)
      rw [Delimiter.anyWord, List.map_cons] at hrest
      rw [Delimiter.anyWord, List.map_cons, List.map_cons, choice_cons_cons, run_alt, hw, hrest]
      by_cases hfirst : Text.leadingWord cursor.after = Text.lit w
      · have hmem : Text.lit w ∈ List.map Text.lit (w :: v :: more) := List.mem_cons_self
        rw [hfirst, if_pos rfl, if_pos hmem]
        cases next (cursor.past (Text.lit w)) <;> simp
      · simp [hfirst]

/-! ## Blanks -/

/-- A round over blanks takes one if there is one. -/
theorem run_blank (cursor : Cursor) (next : Next) : (set { items := [.kind .blank] }).run cursor next =
    match cursor.after with
    | c :: rest => if Text.isBlank c then next (cursor.forward c rest) else none
    | [] => none := by
  have hset : ∀ c, CharSet.has { items := [.kind .blank] } c = Text.isBlank c := by
    intro c
    show ((Text.isBlank c || false) != false) = _
    cases Text.isBlank c <;> rfl
  rw [run]
  cases cursor.after with
  | nil => rfl
  | cons c rest => simp only [hset]

theorem runRep_blanks (refuses : ∀ stop : Cursor, stop.after.head?.any Text.isBlank = true → next stop = none)
    (fuel : Nat) : ∀ count mark cursor, cursor.after.length < fuel → mark ≠ some cursor.pos →
      runRep (run (set { items := [.kind .blank] })) 0 none false next fuel count mark cursor =
        next (cursor.past (Text.leadingBlanks cursor.after)) := by
  induction fuel with
  | zero => exact fun _ _ _ hfuel => absurd hfuel (Nat.not_lt_zero _)
  | succ fuel ih =>
    intro count mark cursor hfuel hmark
    have hgoes : (Option.all (count < ·) none && mark != some cursor.pos) = true := by
      simp [hmark]
    rw [runRep, if_neg (Nat.not_lt_zero _)]
    dsimp only
    rw [if_pos hgoes, run_blank, if_neg Bool.false_ne_true]
    cases hafter : cursor.after with
    | nil => simp [Text.leadingBlanks]
    | cons c rest =>
      dsimp only
      by_cases hc : Text.isBlank c = true
      · have hrest : (cursor.forward c rest).after = rest := rfl
        have hrefused : next cursor = none := refuses cursor (by simpa [hafter] using hc)
        rw [hafter, List.length_cons] at hfuel
        rw [if_pos hc, ih _ _ _ (by rw [hrest]; omega) (by simp [Cursor.forward]), hrefused, Option.or_none,
          Cursor.forward_eq_past hafter, Cursor.past_past, ← Cursor.forward_eq_past hafter, hrest, Text.leadingBlanks,
          Text.leadingBlanks, List.takeWhile_cons_of_pos hc, List.singleton_append]
      · rw [if_neg hc, Option.none_or, Text.leadingBlanks, List.takeWhile_cons_of_neg hc, Cursor.past_nil]

/-- **All blanks are taken** when what follows does not go on from one. -/
theorem run_blanks (refuses : ∀ stop : Cursor, stop.after.head?.any Text.isBlank = true → next stop = none)
    (cursor : Cursor) : Delimiter.blanks.run cursor next = next (cursor.past (Text.leadingBlanks cursor.after)) := by
  rw [Delimiter.blanks, run]
  exact runRep_blanks refuses _ _ _ _ (by rw [repFuel]; omega) (by simp)

/-- A choice of words behind blanks takes the word that comes next there. -/
theorem run_blanks_anyWord {words : List String} (hne : words ≠ [])
    (hwords : ∀ w ∈ words, Text.IsWordText (Text.lit w)) (cursor : Cursor) (next : Next) :
    (Delimiter.blanks.run cursor fun mid => (Delimiter.anyWord words).run mid fun mid => Delimiter.edge.run mid next) =
      if Text.firstWord cursor.after ∈ words.map Text.lit then
        next (cursor.past (Text.leadingBlanks cursor.after ++ Text.firstWord cursor.after))
      else none := by
  have hdrop : (cursor.past (Text.leadingBlanks cursor.after)).after = Text.dropBlanks cursor.after :=
    Text.drop_leadingBlanks cursor.after
  rw [run_blanks, run_anyWord_edge hne hwords, hdrop, Cursor.past_past, Text.firstWord]
  intro stop hstop
  rw [run_anyWord_edge hne hwords, Text.leadingWord_of_isBlank hstop, if_neg]
  intro hmem
  obtain ⟨w, hw, hnil⟩ := List.mem_map.1 hmem
  exact (hwords w hw).ne_nil hnil

end Expr

end Linework
