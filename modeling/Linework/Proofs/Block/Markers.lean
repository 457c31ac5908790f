import Linework.Proofs.Pattern.Words
import Mathlib.Logic.Basic

/-!
# The markers on a line

What opens and closes a block is counted by the words of the line and by its braces (`Delimiter.counts_words`).
A marker is found by its place: a word where that word starts, a definition where the line starts, a statement
where the line starts or where an assignment stands. What a marker takes up holds no other one, so all are
counted, and at no place are there two of them.
-/

namespace Linework

namespace Text

variable {before : Text} {c : CodePoint}

/-- Whether only blanks, or an assignment and blanks, come before a place. -/
def opensStatement (before : Text) : Bool := (before.dropWhile isBlank).head?.all (fun c : CodePoint => c == '=')

theorem opensStatement_iff : opensStatement before = true ↔
    (∀ c ∈ before, isBlank c = true) ∨
      ∃ gap front, before = gap ++ ('=' : CodePoint) :: front ∧ ∀ c ∈ gap, isBlank c = true := by
  have hsplit : before.takeWhile isBlank ++ before.dropWhile isBlank = before := List.takeWhile_append_dropWhile
  have hblank : ∀ c ∈ before.takeWhile isBlank, isBlank c = true := List.all_eq_true.1 List.all_takeWhile
  rw [opensStatement]
  constructor
  · intro h
    cases hrest : before.dropWhile isBlank with
    | nil =>
      rw [hrest, List.append_nil] at hsplit
      exact .inl (hsplit ▸ hblank)
    | cons c front =>
      obtain rfl : c = '=' := by simpa [hrest] using h
      rw [hrest] at hsplit
      exact .inr ⟨_, front, hsplit.symm, hblank⟩
  · rintro (hall | ⟨gap, front, rfl, hgap⟩)
    · rw [← List.append_nil before, List.dropWhile_append_of_pos hall]
      rfl
    · rw [List.dropWhile_append_of_pos hgap, List.dropWhile_cons_of_neg (by decide)]
      rfl

theorem opensStatement_cons_of_isBlank (hc : isBlank c = true) :
    opensStatement (c :: before) = opensStatement before := by
  rw [opensStatement, List.dropWhile_cons_of_pos hc]
  rfl

theorem opensStatement_cons_of_not_isBlank (hc : isBlank c = false) : opensStatement (c :: before) = (c == '=') := by
  rw [opensStatement, List.dropWhile_cons_of_neg (by simp [hc])]
  rfl

theorem isWord_of_opensStatement (h : opensStatement before = true) : before.head?.any isWord = false := by
  cases before with
  | nil => rfl
  | cons c front =>
    cases hc : isBlank c with
    | true => exact isWord_eq_false_of_isBlank hc
    | false =>
      rw [opensStatement_cons_of_not_isBlank hc] at h
      obtain rfl : c = '=' := by simpa using h
      show isWord '=' = false
      decide

end Text

namespace Word

/-- A word leads a statement if there is nothing but blanks before it, or an assignment and blanks. -/
def Leads (word : Word) : Prop :=
  Text.isAllBlank word.before = true ∨
    ∃ front gap, word.before = front ++ ('=' : CodePoint) :: gap ∧ Text.isAllBlank gap = true

theorem leads_iff {word : Word} : word.Leads ↔ Text.opensStatement word.before.reverse = true := by
  rw [Leads, Text.opensStatement_iff]
  refine or_congr (by simp [Text.isAllBlank]) ⟨?_, ?_⟩
  · rintro ⟨front, gap, h, hgap⟩
    refine ⟨gap.reverse, front.reverse, by simp [h], ?_⟩
    simpa [Text.isAllBlank] using hgap
  · rintro ⟨gap, front, h, hgap⟩
    refine ⟨front.reverse, gap.reverse, ?_, ?_⟩
    · rw [← List.reverse_reverse word.before, h]
      simp
    · simpa [Text.isAllBlank] using hgap

instance (word : Word) : Decidable word.Leads := decidable_of_iff _ leads_iff.symm

theorem decide_leads (word : Word) : decide word.Leads = Text.opensStatement word.before.reverse := by
  rw [Bool.eq_iff_iff, decide_eq_true_iff, leads_iff]

end Word

/-! ## What markers are found as -/

namespace Delimiter

open Text

variable {before after t word : Text} {c : CodePoint}

/-- A character. -/
def charMarker (c : CodePoint) (after : Text) : Option Text := if after.head? = some c then some [c] else none

/-- A word. -/
def wordMarker (word before after : Text) : Option Text :=
  if startsWord before after = true ∧ leadingWord after = word then some word else none

/-- One of some words as the first one of the line. -/
def firstMarker (words : List Text) (before after : Text) : Option Text :=
  if before = [] ∧ words.contains (firstWord after) then some (leadingBlanks after ++ firstWord after) else none

/-- One of some words as the first one behind an assignment. -/
def assignedMarker (words : List Text) (after : Text) : Option Text :=
  if after.head? = some ('=' : CodePoint) ∧ words.contains (firstWord after.tail) then
    some (('=' : CodePoint) :: (leadingBlanks after.tail ++ firstWord after.tail))
  else none

theorem firstMarker_eq (words : List Text) (before after : Text) : firstMarker words before after =
    if before = [] ∧ firstWord after ∈ words then some (leadingBlanks after ++ firstWord after) else none :=
  if_congr (and_congr_right' List.contains_iff_mem) rfl rfl

theorem assignedMarker_eq (words : List Text) (after : Text) : assignedMarker words after =
    if after.head? = some ('=' : CodePoint) ∧ firstWord after.tail ∈ words then
      some (('=' : CodePoint) :: (leadingBlanks after.tail ++ firstWord after.tail))
    else none :=
  if_congr (and_congr_right' List.contains_iff_mem) rfl rfl

theorem reads_char (c : CodePoint) : (Expr.char c).Reads fun _ after => charMarker c after := by
  intro cursor
  dsimp only
  rw [Expr.run_char, charMarker]
  split <;> rfl

theorem reads_wholeWord {w : String} (hword : IsWordText (lit w)) : (wholeWord w).Reads (wordMarker (lit w)) := by
  intro cursor
  rw [Expr.run_wholeWord hword, wordMarker]
  by_cases hleading : leadingWord cursor.after = lit w
  · have hhead : cursor.after.head?.any isWord = true :=
      leadingWord_ne_nil_iff.1 (hleading ▸ hword.ne_nil)
    cases hbefore : cursor.before.head?.any isWord <;> simp [startsWord, hleading, hhead, hbefore]
  · simp [hleading]

theorem run_lineStart (cursor : Cursor) (next : Expr.Next) :
    lineStart.run cursor next = if cursor.before = [] then next cursor else none := by
  rw [lineStart, Expr.run]
  simp [Anchor.holds]

/-- The words that start a definition. -/
def definers : List String := ["class", "module", "def"]

/-- The words that start a statement which ends somewhere below. -/
def leaders : List String := ["if", "unless", "case", "while", "until", "begin"]

theorem reads_definition : definition.Reads (firstMarker (definers.map lit)) := by
  intro cursor
  show (lineStart.run cursor fun mid => blanks.run mid fun mid =>
    (anyWord definers).run mid fun mid => edge.run mid some) = _
  rw [run_lineStart, Expr.run_blanks_anyWord (by decide) (by decide), firstMarker_eq, apply_ite (Option.map _), ite_and]
  rfl

theorem reads_statement : statement.Reads fun before after =>
    (firstMarker (leaders.map lit) before after).or (assignedMarker (leaders.map lit) after) := by
  intro cursor
  have hbehind : (cursor.past ['=']).after = cursor.after.tail := List.drop_one
  show ((Expr.alt lineStart (Expr.char '=')).run cursor fun mid => blanks.run mid fun mid =>
    (anyWord leaders).run mid fun mid => edge.run mid some) = _
  rw [Expr.run_alt, run_lineStart, Expr.run_char, Expr.run_blanks_anyWord (by decide) (by decide),
    Expr.run_blanks_anyWord (by decide) (by decide), Cursor.past_past, List.singleton_append, hbehind, Option.map_or,
    firstMarker_eq, assignedMarker_eq, apply_ite (Option.map _), apply_ite (Option.map _), ite_and, ite_and]
  rfl

/-- What opens a class body, a definition or a block inside. -/
def classMarker (before after : Text) : Option Text :=
  (firstMarker (definers.map lit) before after).or
    (((firstMarker (leaders.map lit) before after).or (assignedMarker (leaders.map lit) after)).or
      ((wordMarker (lit "do") before after).or (charMarker '{' after)))

theorem reads_classBody : classBody.opening.expr.Reads classMarker :=
  reads_definition.alt (reads_statement.alt ((reads_wholeWord (by decide)).alt (reads_char '{')))

/-! ## No marker within another -/

theorem head?_ne {p : CodePoint → Bool} (h : after.head?.any p = true) (hc : p c = false) : after.head? ≠ some c := by
  intro hhead
  simp [hhead, hc] at h

theorem wordMarker_eq_none (h : before.head?.any isWord = true ∨ leadingWord after ≠ word) :
    wordMarker word before after = none := by
  refine if_neg fun ⟨hstarts, hleading⟩ => ?_
  rcases h with hinside | hne
  · simp [startsWord, hinside] at hstarts
  · exact hne hleading

theorem classMarker_eq_none (hbefore : before ≠ []) (hassign : after.head? ≠ some ('=' : CodePoint))
    (hbrace : after.head? ≠ some ('{' : CodePoint))
    (hdo : before.head?.any isWord = true ∨ leadingWord after ≠ lit "do") :
    classMarker before after = none := by
  have hfirst : ∀ words, firstMarker words before after = none := fun words => if_neg fun h => hbefore h.1
  have hassigned : ∀ words, assignedMarker words after = none := fun words => if_neg fun h => hassign h.1
  have hchar : charMarker '{' after = none := if_neg hbrace
  rw [classMarker, hfirst, hfirst, hassigned, wordMarker_eq_none hdo, hchar]
  rfl

/-- Neither the blanks before a word hold a marker nor does the word, unless it is one. -/
theorem classMarker_within (hdo : firstWord t ≠ lit "do") (k : Nat)
    (hk : k < (leadingBlanks t ++ firstWord t).length) (hbefore : 0 < k ∨ before ≠ []) :
    classMarker ((t.take k).reverse ++ before) (t.drop k) = none := by
  induction t generalizing k before with
  | nil => exact absurd hk (Nat.not_lt_zero k)
  | cons c rest ih =>
    cases hc : isBlank c with
    | true =>
      cases k with
      | zero =>
        have hhead : (c :: rest).head?.any isBlank = true := hc
        have hne : before ≠ [] := hbefore.resolve_left (Nat.lt_irrefl 0)
        refine classMarker_eq_none hne (head?_ne hhead (by decide)) (head?_ne hhead (by decide)) (.inr ?_)
        rw [List.drop_zero, leadingWord_of_isBlank hhead]
        decide
      | succ k =>
        rw [firstWord_cons_of_isBlank hc] at hdo hk
        rw [leadingBlanks, List.takeWhile_cons_of_pos hc, List.cons_append, List.length_cons] at hk
        rw [List.take_succ_cons, List.reverse_cons, List.append_assoc, List.singleton_append]
        exact ih hdo k (Nat.lt_of_succ_lt_succ hk) (.inr (List.cons_ne_nil _ _))
    | false =>
      rw [firstWord_cons_of_not_isBlank hc] at hdo hk
      rw [leadingBlanks, List.takeWhile_cons_of_neg (by simp [hc]), List.nil_append] at hk
      cases k with
      | zero =>
        have hhead : (c :: rest).head?.any isWord = true := leadingWord_ne_nil_iff.1 (List.length_pos_iff.1 hk)
        have hne : before ≠ [] := hbefore.resolve_left (Nat.lt_irrefl 0)
        exact classMarker_eq_none hne (head?_ne hhead (by decide)) (head?_ne hhead (by decide)) (.inr hdo)
      | succ k =>
        obtain ⟨hinside, hhead⟩ := inside_leadingWord (k + 1) (Nat.succ_pos k) hk
        exact classMarker_eq_none (by simp) (head?_ne hhead (by decide)) (head?_ne hhead (by decide)) (.inl hinside)

/-- What a marker of a class body takes up: the start of the line, an assignment and what it assigns, the
word of a block or a brace. -/
theorem cases_classMarker (h : classMarker before after = some word) :
    (before = [] ∧ (firstWord after ∈ definers.map lit ∨ firstWord after ∈ leaders.map lit) ∧
        word = leadingBlanks after ++ firstWord after) ∨
      (∃ rest, after = ('=' : CodePoint) :: rest ∧ firstWord rest ∈ leaders.map lit ∧
        word = ('=' : CodePoint) :: (leadingBlanks rest ++ firstWord rest)) ∨
      (leadingWord after = lit "do" ∧ word = lit "do") ∨
        (after.head? = some ('{' : CodePoint) ∧ word = (['{'] : Text)) := by
  rcases Option.or_eq_some_iff.1 h with hfound | ⟨-, h⟩
  · obtain ⟨⟨hstart, hmem⟩, rfl⟩ := Option.ite_some_none_eq_some.1 hfound
    exact .inl ⟨hstart, .inl (List.contains_iff_mem.1 hmem), rfl⟩
  rcases Option.or_eq_some_iff.1 h with h | ⟨-, h⟩
  · rcases Option.or_eq_some_iff.1 h with hfound | ⟨-, hfound⟩
    · obtain ⟨⟨hstart, hmem⟩, rfl⟩ := Option.ite_some_none_eq_some.1 hfound
      exact .inl ⟨hstart, .inr (List.contains_iff_mem.1 hmem), rfl⟩
    · obtain ⟨⟨hhead, hmem⟩, rfl⟩ := Option.ite_some_none_eq_some.1 hfound
      obtain ⟨rest, rfl⟩ := List.head?_eq_some_iff.1 hhead
      exact .inr (.inl ⟨rest, rfl, List.contains_iff_mem.1 hmem, rfl⟩)
  · rcases Option.or_eq_some_iff.1 h with hfound | ⟨-, hfound⟩
    · obtain ⟨⟨-, hleading⟩, rfl⟩ := Option.ite_some_none_eq_some.1 hfound
      exact .inr (.inr (.inl ⟨hleading, rfl⟩))
    · obtain ⟨hhead, rfl⟩ := Option.ite_some_none_eq_some.1 hfound
      exact .inr (.inr (.inr ⟨hhead, rfl⟩))

theorem apart_classMarker : Expr.Apart classMarker where
  solid before after h := by
    rcases cases_classMarker h with ⟨-, hmem, hnil⟩ | ⟨rest, -, -, hnil⟩ | ⟨-, hnil⟩ | ⟨-, hnil⟩
    · rw [(List.append_eq_nil_iff.1 hnil.symm).2] at hmem
      exact absurd hmem (by decide)
    · cases hnil
    · cases hnil
    · cases hnil
  apart before after word h k hpos hk := by
    rcases cases_classMarker h with ⟨-, hmem, rfl⟩ | ⟨rest, rfl, hmem, rfl⟩ | ⟨hleading, rfl⟩ | ⟨-, rfl⟩
    · refine classMarker_within (fun hdo => ?_) k hk (.inl hpos)
      rw [hdo] at hmem
      exact absurd hmem (by decide)
    · obtain ⟨k, rfl⟩ : ∃ j, k = j + 1 := ⟨k - 1, by omega⟩
      rw [List.take_succ_cons, List.drop_succ_cons, List.reverse_cons, List.append_assoc, List.singleton_append]
      refine classMarker_within (fun hdo => ?_) k (Nat.lt_of_succ_lt_succ hk) (.inr (List.cons_ne_nil _ _))
      rw [hdo] at hmem
      exact absurd hmem (by decide)
    · rw [← hleading] at hk
      obtain ⟨hinside, hhead⟩ := inside_leadingWord k hpos hk
      have hne : (after.take k).reverse ++ before ≠ [] := by
        intro hnil
        rw [hnil] at hinside
        cases hinside
      exact classMarker_eq_none hne (head?_ne hhead (by decide)) (head?_ne hhead (by decide)) (.inl hinside)
    · rw [List.length_singleton] at hk
      omega

/-- A word or a character that is not part of any. -/
theorem apart_word_or_char (hword : IsWordText word) (hc : isWord c = false) :
    Expr.Apart fun before after => (wordMarker word before after).or (charMarker c after) where
  solid before after h := by
    rcases Option.or_eq_some_iff.1 h with hfound | ⟨-, hfound⟩
    · obtain ⟨-, hnil⟩ := Option.ite_some_none_eq_some.1 hfound
      exact hword.ne_nil hnil
    · obtain ⟨-, hnil⟩ := Option.ite_some_none_eq_some.1 hfound
      cases hnil
  apart before after found h k hpos hk := by
    rcases Option.or_eq_some_iff.1 h with hfound | ⟨-, hfound⟩
    · obtain ⟨⟨-, rfl⟩, rfl⟩ := Option.ite_some_none_eq_some.1 hfound
      obtain ⟨hinside, hhead⟩ := inside_leadingWord k hpos hk
      have hchar : charMarker c (after.drop k) = none := if_neg (head?_ne hhead hc)
      rw [wordMarker_eq_none (.inl hinside), hchar]
      rfl
    · obtain ⟨-, rfl⟩ := Option.ite_some_none_eq_some.1 hfound
      rw [List.length_singleton] at hk
      omega

/-! ## Counting by places -/

theorem isSome_ite (condition : Prop) [Decidable condition] (word : Text) :
    (if condition then some word else none).isSome = decide condition := by
  by_cases h : condition <;> simp [h]

theorem countP_wordsFrom (p : Word → Bool) (before t : Text) : (wordsFrom before t).countP p =
    tally (fun before after => startsWord before after && p ⟨before.reverse, leadingWord after⟩) before t := by
  induction t generalizing before with
  | nil => rfl
  | cons c rest ih =>
    rw [wordsFrom, tally, ← ih]
    cases startsWord before (c :: rest) with
    | false => simp
    | true =>
      rw [if_pos rfl, List.countP_cons, Nat.add_comm, Bool.true_and]
      cases p ⟨before.reverse, leadingWord (c :: rest)⟩ <;> rfl

theorem tally_wordMarker (word t : Text) : tally (fun before after => (wordMarker word before after).isSome) [] t =
    (words t).countP fun w => w.text = word := by
  rw [words, countP_wordsFrom]
  congr 1
  funext before after
  rw [wordMarker, isSome_ite, Bool.decide_and, Bool.decide_eq_true]

theorem tally_charMarker (c : CodePoint) (t : Text) :
    tally (fun _ after => (charMarker c after).isSome) [] t = t.count c := by
  rw [← tally_head c []]
  congr 1
  funext before after
  rw [charMarker, isSome_ite, Bool.beq_eq_decide_eq]

theorem tally_firstMarker (words : List Text) (t : Text) :
    tally (fun before after => (firstMarker words before after).isSome) [] t =
      if firstWord t ∈ words then 1 else 0 := by
  rw [tally_start]
  · by_cases hmem : firstWord t ∈ words <;> simp [firstMarker, hmem]
  · intro c before after
    simp [firstMarker]

/-- The words that lead a statement are met where they start, and found where their assignment stands; one of them
is still ahead while only blanks are passed. -/
theorem tally_leads {words : List Text} (hnil : [] ∉ words) (before t : Text) :
    tally (fun before after =>
        startsWord before after && (decide (leadingWord after ∈ words) && opensStatement before)) before t =
      (opensStatement before && decide (firstWord t ∈ words)).toNat +
        tally (fun _ after => (assignedMarker words after).isSome) before t := by
  induction t generalizing before with
  | nil => simp [tally, startsWord, assignedMarker, hnil]
  | cons c rest ih =>
    rw [tally, tally, ih]
    cases hblank : isBlank c with
    | true =>
      have hstarts : startsWord before (c :: rest) = false := by
        simp [startsWord, isWord_eq_false_of_isBlank hblank]
      have hhead : (c :: rest).head?.any isBlank = true := hblank
      have hassigned : assignedMarker words (c :: rest) = none := if_neg fun h => head?_ne hhead (by decide) h.1
      rw [hstarts, hassigned, opensStatement_cons_of_isBlank hblank, firstWord_cons_of_isBlank hblank]
      simp
    | false =>
      rw [opensStatement_cons_of_not_isBlank hblank, firstWord_cons_of_not_isBlank hblank]
      by_cases hc : c = '='
      · obtain rfl := hc
        have hleading : leadingWord ('=' :: rest) = [] := leadingWord_cons_eq_nil (by decide)
        have hassigned : (assignedMarker words ('=' :: rest)).isSome = decide (firstWord rest ∈ words) := by
          rw [assignedMarker_eq, isSome_ite]
          simp
        rw [hleading, hassigned]
        simp [hnil]
      · have hassigned : assignedMarker words (c :: rest) = none := if_neg fun h => hc (Option.some.inj h.1)
        have hstarts : opensStatement before = true → leadingWord (c :: rest) ∈ words →
            startsWord before (c :: rest) = true := by
          intro hbefore hmem
          have hne : leadingWord (c :: rest) ≠ [] := fun h => hnil (h ▸ hmem)
          rw [startsWord, leadingWord_ne_nil_iff.1 hne, isWord_of_opensStatement hbefore]
          rfl
        rw [hassigned]
        by_cases hmem : leadingWord (c :: rest) ∈ words <;>
          cases hbefore : opensStatement before <;> simp [hc, hmem, hstarts, hbefore]

/-- A word leads a statement as the first of the line or as the first behind an assignment. -/
theorem countP_leads {words : List Text} (hnil : [] ∉ words) (t : Text) :
    (Text.words t).countP (fun w => w.text ∈ words ∧ w.Leads) =
      (if firstWord t ∈ words then 1 else 0) + tally (fun _ after => (assignedMarker words after).isSome) [] t := by
  have hopens : opensStatement [] = true := rfl
  have hfirst : (opensStatement [] && decide (firstWord t ∈ words)).toNat =
      if firstWord t ∈ words then 1 else 0 := by
    by_cases hmem : firstWord t ∈ words <;> simp [hopens, hmem]
  rw [Text.words, countP_wordsFrom, ← hfirst, ← tally_leads hnil]
  congr 1
  funext before after
  rw [Bool.decide_and, Word.decide_leads, List.reverse_reverse]

theorem charMarker_of_wordMarker (hword : IsWordText word) (hc : isWord c = false)
    (h : (wordMarker word before after).isSome = true) : charMarker c after = none := by
  rw [wordMarker, isSome_ite, decide_eq_true_iff] at h
  exact if_neg (head?_ne (leadingWord_ne_nil_iff.1 (h.2 ▸ hword.ne_nil)) hc)

/-- Where one of some words comes first there is no other marker, unless the other is of that word. -/
theorem alone_of_firstMarker {words : List Text} (hnil : [] ∉ words) (hdo : lit "do" ∉ words)
    (h : (firstMarker words before after).isSome = true) :
    (∀ others, assignedMarker others after = none) ∧
      (wordMarker (lit "do") before after).or (charMarker '{' after) = none := by
  rw [firstMarker_eq, isSome_ite, decide_eq_true_iff] at h
  have hhead : ∀ c, isWord c = false → isBlank c = false → after.head? ≠ some c :=
    fun c hword hblank hc => hnil (firstWord_of_head hword hblank hc ▸ h.2)
  have hleading : leadingWord after ≠ lit "do" := by
    intro hleading
    have hne : leadingWord after ≠ [] := by
      rw [hleading]
      decide
    rw [firstWord_of_leadingWord hne, hleading] at h
    exact hdo h.2
  have hchar : charMarker '{' after = none := if_neg (hhead _ (by decide) (by decide))
  refine ⟨fun others => if_neg fun hassigned => hhead _ (by decide) (by decide) hassigned.1, ?_⟩
  rw [wordMarker_eq_none (.inr hleading), hchar]
  rfl

theorem alone_of_assignedMarker {words : List Text} (h : (assignedMarker words after).isSome = true) :
    (wordMarker (lit "do") before after).or (charMarker '{' after) = none := by
  rw [assignedMarker_eq, isSome_ite, decide_eq_true_iff] at h
  obtain ⟨rest, rfl⟩ := List.head?_eq_some_iff.1 h.1
  have hleading : leadingWord ('=' :: rest) = [] := leadingWord_cons_eq_nil (by decide)
  have hchar : charMarker '{' ('=' :: rest) = none := if_neg (by simp)
  rw [wordMarker_eq_none (.inr (by rw [hleading]; decide)), hchar]
  rfl

/-- A word or a character is counted as often as either. -/
theorem tally_word_or_char (hword : IsWordText word) (hc : isWord c = false) (t : Text) :
    tally (fun before after => ((wordMarker word before after).or (charMarker c after)).isSome) [] t =
      (Text.words t).countP (fun w => w.text = word) + t.count c := by
  rw [tally_isSome_or fun _ _ => charMarker_of_wordMarker hword hc, tally_wordMarker, tally_charMarker]

/-- At no place are there two markers of a class body. -/
theorem tally_classMarker (t : Text) : tally (fun before after => (classMarker before after).isSome) [] t =
    (if firstWord t ∈ definers.map lit then 1 else 0) +
      ((Text.words t).countP (fun w => w.text ∈ leaders.map lit ∧ w.Leads) +
        ((Text.words t).countP (fun w => w.text = lit "do") + t.count ('{' : CodePoint))) := by
  have hdefines : ∀ before after, (firstMarker (definers.map lit) before after).isSome = true →
      ((firstMarker (leaders.map lit) before after).or (assignedMarker (leaders.map lit) after)).or
        ((wordMarker (lit "do") before after).or (charMarker '{' after)) = none := by
    intro before after h
    obtain ⟨hassigned, hblock⟩ := alone_of_firstMarker (by decide) (by decide) h
    have hother : ∀ word ∈ definers.map lit, word ∉ leaders.map lit := by decide
    rw [firstMarker_eq, isSome_ite, decide_eq_true_iff] at h
    have hleads : firstMarker (leaders.map lit) before after = none :=
      if_neg fun hmem => hother _ h.2 (List.contains_iff_mem.1 hmem.2)
    rw [hleads, hassigned, hblock]
    rfl
  have hleads : ∀ before after,
      ((firstMarker (leaders.map lit) before after).or (assignedMarker (leaders.map lit) after)).isSome = true →
        (wordMarker (lit "do") before after).or (charMarker '{' after) = none := by
    intro before after h
    rw [Option.isSome_or, Bool.or_eq_true] at h
    rcases h with h | h
    · exact (alone_of_firstMarker (by decide) (by decide) h).2
    · exact alone_of_assignedMarker h
  have hassigned : ∀ before after, (firstMarker (leaders.map lit) before after).isSome = true →
      assignedMarker (leaders.map lit) after = none :=
    fun before after h => (alone_of_firstMarker (by decide) (by decide) h).1 _
  calc tally (fun before after => (classMarker before after).isSome) [] t
    _ = _ := tally_isSome_or hdefines [] t
    _ = _ := congrArg (_ + ·) (tally_isSome_or hleads [] t)
    _ = _ := by
      rw [tally_isSome_or hassigned, tally_firstMarker, tally_firstMarker, countP_leads (by decide),
        tally_word_or_char (by decide) (by decide)]

/-- A word or a character is counted as often as either. -/
theorem countFrom_word_or_char {w : String} (hword : IsWordText (lit w)) (hc : isWord c = false) (t : Text) :
    (Expr.alt (wholeWord w) (Expr.char c)).countFrom 0 0 [] t =
      (Text.words t).countP (fun word => word.text = lit w) + t.count c := by
  rw [Expr.countFrom_eq_tally ((reads_wholeWord hword).alt (reads_char c)) (apart_word_or_char hword hc),
    tally_word_or_char hword hc]

/-- **Markers are counted by words and braces.** The words of a line are its longest runs of word characters.
A block is opened by each `do` and each opening brace, and closed by each `end` and each closing brace. A class
body is opened by these, by a definition if that is what the line starts with, and by each word of a statement
at the start of the line or behind an assignment. -/
theorem counts_words (line : Text) :
    ((words line).Nodup ∧ ∀ word, word ∈ words line ↔ word.IsIn line) ∧
    block.opens line = (words line).countP (fun word => word.text = lit "do") + line.count ('{' : CodePoint) ∧
    block.closes line = (words line).countP (fun word => word.text = lit "end") + line.count ('}' : CodePoint) ∧
    classBody.closes line = (words line).countP (fun word => word.text = lit "end") + line.count ('}' : CodePoint) ∧
    classBody.opens line = block.opens line +
      (if ∃ word ∈ words line, isAllBlank word.before = true ∧ word.text ∈ definers.map lit then 1 else 0) +
      (words line).countP (fun word => word.text ∈ leaders.map lit ∧ word.Leads) := by
  have hopens : block.opens line =
      (words line).countP (fun word => word.text = lit "do") + line.count ('{' : CodePoint) :=
    countFrom_word_or_char (by decide) (by decide) line
  have hcloses : block.closes line =
      (words line).countP (fun word => word.text = lit "end") + line.count ('}' : CodePoint) :=
    countFrom_word_or_char (by decide) (by decide) line
  have hclass : classBody.opens line = _ :=
    (Expr.countFrom_eq_tally reads_classBody apart_classMarker line).trans (tally_classMarker line)
  have hfirst : firstWord line ∈ definers.map lit ↔
      ∃ word ∈ words line, isAllBlank word.before = true ∧ word.text ∈ definers.map lit :=
    firstWord_iff (p := fun word => word ∈ definers.map lit) (by decide)
  refine ⟨⟨nodup_words line, fun _ => mem_words_iff⟩, hopens, hcloses, hcloses, ?_⟩
  rw [hclass, hopens, if_congr hfirst rfl rfl]
  omega

end Delimiter

end Linework
