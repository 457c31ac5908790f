import Linework.Text.Blank
import Linework.Text.Word

/-!
# The words of a text

A word is a run of word characters that neither goes back nor goes on (`Text.mem_words_iff`). A text is
read from its start, and a word is met where it starts, with what comes before it. No blank is part of a
word, so the first word behind the blanks is the word that only blanks come before (`Text.firstWord_iff`).
-/

namespace Linework

namespace Text

/-- The run of word characters that a text starts with. -/
def leadingWord (t : Text) : Text := t.takeWhile isWord

/-- What comes behind the blanks at the start of a text. -/
def dropBlanks (t : Text) : Text := t.dropWhile isBlank

/-- The word that a text starts with behind its blanks. -/
def firstWord (t : Text) : Text := leadingWord (dropBlanks t)

/-- A text that may be a word. -/
structure IsWordText (word : Text) : Prop where
  ne_nil : word ≠ []
  word : ∀ c ∈ word, isWord c = true

theorem isWordText_iff {word : Text} : IsWordText word ↔ word.isEmpty = false ∧ word.all isWord = true := by
  rw [List.isEmpty_eq_false_iff, List.all_eq_true]
  exact ⟨fun h => ⟨h.ne_nil, h.word⟩, fun h => ⟨h.1, h.2⟩⟩

instance (word : Text) : Decidable (IsWordText word) := decidable_of_iff _ isWordText_iff.symm

/-- No blank is part of a word. -/
theorem isWord_eq_false_of_isBlank {c : CodePoint} (h : isBlank c = true) : isWord c = false := by
  have hcodes : ∀ range ∈ blanks, ∀ code ∈ List.range' range.1 (range.2 + 1 - range.1),
      (code == CodePoint.toNat '_' || (inRanges code letters || inRanges code numbers)) = false := by
    decide +kernel
  obtain ⟨range, hrange, hlow, hhigh⟩ := exists_of_inRanges h
  have hcode := hcodes range hrange c.toNat (by rw [List.mem_range'_1]; omega)
  simp only [Bool.or_eq_false_iff] at hcode
  have hne : c ≠ '_' := by
    rintro rfl
    simp at hcode
  simp [isWord, isAlphanumeric, isLetter, hcode.2.1, hcode.2.2, hne]

theorem leadingBlanks_append_dropBlanks (t : Text) : leadingBlanks t ++ dropBlanks t = t :=
  List.takeWhile_append_dropWhile

theorem drop_leadingBlanks (t : Text) : t.drop (leadingBlanks t).length = dropBlanks t := by
  calc t.drop (leadingBlanks t).length
    _ = (leadingBlanks t ++ dropBlanks t).drop (leadingBlanks t).length := by
      rw [leadingBlanks_append_dropBlanks]
    _ = dropBlanks t := List.drop_left

/-! ## The word that comes first -/

section

variable {c : CodePoint} {rest word t : Text}

@[simp] theorem leadingWord_nil : leadingWord [] = [] := rfl

theorem leadingWord_cons (hc : isWord c = true) : leadingWord (c :: rest) = c :: leadingWord rest :=
  List.takeWhile_cons_of_pos hc

theorem leadingWord_cons_eq_nil (hc : isWord c = false) : leadingWord (c :: rest) = [] :=
  List.takeWhile_cons_of_neg (by simp [hc])

theorem leadingWord_eq_nil_iff : leadingWord t = [] ↔ t.head?.any isWord = false := by
  cases t with
  | nil => simp
  | cons c rest =>
    cases hc : isWord c with
    | false => simp [leadingWord_cons_eq_nil hc, hc]
    | true => simp [leadingWord_cons hc, hc]

theorem leadingWord_ne_nil_iff : leadingWord t ≠ [] ↔ t.head?.any isWord = true := by
  rw [Ne, leadingWord_eq_nil_iff, Bool.not_eq_false]

theorem leadingWord_of_isBlank (h : t.head?.any isBlank = true) : leadingWord t = [] := by
  cases t with
  | nil => rfl
  | cons c rest => exact leadingWord_cons_eq_nil (isWord_eq_false_of_isBlank h)

theorem isWordText_leadingWord (hne : leadingWord t ≠ []) : IsWordText (leadingWord t) :=
  ⟨hne, List.all_eq_true.1 List.all_takeWhile⟩

/-- A text starts with a word and no more of it. -/
theorem leadingWord_eq_iff (hword : IsWordText word) :
    leadingWord t = word ↔ ∃ back, t = word ++ back ∧ back.head?.any isWord = false := by
  constructor
  · rintro rfl
    refine ⟨t.dropWhile isWord, List.takeWhile_append_dropWhile.symm, ?_⟩
    have hhead := List.head?_dropWhile_not isWord t
    cases hback : (t.dropWhile isWord).head? with
    | none => rfl
    | some c => simpa [hback] using hhead
  · rintro ⟨back, rfl, hback⟩
    rw [leadingWord, List.takeWhile_append_of_pos hword.word]
    exact (congrArg (word ++ ·) (leadingWord_eq_nil_iff.2 hback)).trans (List.append_nil word)

/-- Behind the first character of a word there are word characters on both sides. -/
theorem inside_leadingWord {before : Text} (k : Nat) (hpos : 0 < k) (hk : k < (leadingWord t).length) :
    ((t.take k).reverse ++ before).head?.any isWord = true ∧ (t.drop k).head?.any isWord = true := by
  induction t generalizing before k with
  | nil => exact absurd hk (Nat.not_lt_zero k)
  | cons c rest ih =>
    cases hc : isWord c with
    | false =>
      rw [leadingWord_cons_eq_nil hc] at hk
      exact absurd hk (Nat.not_lt_zero k)
    | true =>
      rw [leadingWord_cons hc, List.length_cons] at hk
      obtain ⟨k, rfl⟩ : ∃ j, k = j + 1 := ⟨k - 1, by omega⟩
      rw [List.take_succ_cons, List.drop_succ_cons, List.reverse_cons, List.append_assoc, List.singleton_append]
      cases k with
      | zero =>
        have hne : leadingWord rest ≠ [] := List.length_pos_iff.1 (by omega)
        exact ⟨hc, leadingWord_ne_nil_iff.1 hne⟩
      | succ k => exact ih (k + 1) (Nat.succ_pos k) (by omega)

@[simp] theorem firstWord_nil : firstWord [] = [] := rfl

theorem firstWord_cons_of_isBlank (hc : isBlank c = true) : firstWord (c :: rest) = firstWord rest :=
  congrArg leadingWord (List.dropWhile_cons_of_pos hc)

theorem firstWord_cons_of_not_isBlank (hc : isBlank c = false) : firstWord (c :: rest) = leadingWord (c :: rest) :=
  congrArg leadingWord (List.dropWhile_cons_of_neg (by simp [hc]))

theorem firstWord_of_leadingWord (hne : leadingWord t ≠ []) : firstWord t = leadingWord t := by
  cases t with
  | nil => rfl
  | cons c rest =>
    refine firstWord_cons_of_not_isBlank (Bool.eq_false_iff.2 fun hc => hne ?_)
    exact leadingWord_of_isBlank (t := c :: rest) hc

theorem firstWord_of_head (hword : isWord c = false) (hblank : isBlank c = false) (h : t.head? = some c) :
    firstWord t = [] := by
  cases t with
  | nil => cases h
  | cons d rest =>
    obtain rfl : d = c := Option.some.inj h
    exact (firstWord_cons_of_not_isBlank hblank).trans (leadingWord_cons_eq_nil hword)

end

end Text

/-! ## Words -/

/-- A word, with what comes before it. -/
structure Word where
  before : Text
  text : Text
  deriving DecidableEq, Repr

namespace Word

/-- A word of a text is a run of word characters that is as long as it can be. -/
structure IsIn (word : Word) (t : Text) : Prop where
  isWordText : Text.IsWordText word.text
  before : word.before.getLast?.any Text.isWord = false
  after : ∃ back, t = word.before ++ word.text ++ back ∧ back.head?.any Text.isWord = false

end Word

namespace Text

/-- Whether a word starts at a place. -/
def startsWord (before after : Text) : Bool := after.head?.any isWord && !before.head?.any isWord

/-- The words that start in a text, with what comes before it, the nearest first. -/
def wordsFrom (before : Text) : Text → List Word
  | [] => []
  | c :: rest =>
    if startsWord before (c :: rest) then ⟨before.reverse, leadingWord (c :: rest)⟩ :: wordsFrom (c :: before) rest
    else wordsFrom (c :: before) rest

/-- The words of a text. -/
def words (t : Text) : List Word := wordsFrom [] t

variable {before t : Text} {word : Word}

theorem mem_wordsFrom_iff : word ∈ wordsFrom before t ↔
    ∃ front rest, t = front ++ rest ∧ startsWord (front.reverse ++ before) rest = true ∧
      word = ⟨before.reverse ++ front, leadingWord rest⟩ := by
  induction t generalizing before with
  | nil =>
    simp only [wordsFrom, List.not_mem_nil, false_iff]
    rintro ⟨front, rest, h, hstarts, -⟩
    obtain ⟨-, rfl⟩ := List.append_eq_nil_iff.1 h.symm
    cases hstarts
  | cons c more ih =>
    -- The word starts right here, or behind the character.
    have hcons : (∃ front rest, c :: more = front ++ rest ∧ startsWord (front.reverse ++ before) rest = true ∧
          word = ⟨before.reverse ++ front, leadingWord rest⟩) ↔
        (startsWord before (c :: more) = true ∧ word = ⟨before.reverse, leadingWord (c :: more)⟩) ∨
          word ∈ wordsFrom (c :: before) more := by
      rw [ih]
      constructor
      · rintro ⟨front, rest, h, hstarts, rfl⟩
        cases front with
        | nil =>
          obtain rfl : c :: more = rest := h
          exact .inl ⟨hstarts, by simp⟩
        | cons d front =>
          obtain ⟨rfl, rfl⟩ := List.cons.inj h
          exact .inr ⟨front, rest, rfl, by simpa using hstarts, by simp⟩
      · rintro (⟨hstarts, rfl⟩ | ⟨front, rest, rfl, hstarts, rfl⟩)
        · exact ⟨[], c :: more, rfl, hstarts, by simp⟩
        · exact ⟨c :: front, rest, rfl, by simpa using hstarts, by simp⟩
    rw [hcons, wordsFrom]
    cases startsWord before (c :: more) <;> simp

/-- **The words of a text** are its longest runs of word characters. -/
theorem mem_words_iff : word ∈ words t ↔ word.IsIn t := by
  have hstarts : ∀ front rest : Text, startsWord (front.reverse ++ []) rest = true ↔
      leadingWord rest ≠ [] ∧ front.getLast?.any isWord = false := by
    intro front rest
    rw [startsWord, List.append_nil, List.head?_reverse, leadingWord_ne_nil_iff]
    simp
  rw [words, mem_wordsFrom_iff]
  constructor
  · rintro ⟨front, rest, rfl, h, rfl⟩
    obtain ⟨hne, hfront⟩ := (hstarts front rest).1 h
    have hword := isWordText_leadingWord hne
    obtain ⟨back, hback, hend⟩ := (leadingWord_eq_iff hword).1 rfl
    exact ⟨hword, hfront, back, by rw [List.append_assoc, ← hback]; rfl, hend⟩
  · rintro ⟨hword, hfront, back, rfl, hend⟩
    have hleading : leadingWord (word.text ++ back) = word.text := (leadingWord_eq_iff hword).2 ⟨back, rfl, hend⟩
    refine ⟨word.before, word.text ++ back, List.append_assoc .., (hstarts ..).2 ⟨?_, hfront⟩, ?_⟩
    · rw [hleading]
      exact hword.ne_nil
    · rw [hleading]
      rfl

theorem length_before_of_mem_wordsFrom (h : word ∈ wordsFrom before t) : before.length ≤ word.before.length := by
  obtain ⟨front, rest, -, -, rfl⟩ := mem_wordsFrom_iff.1 h
  simp

/-- Each word is told once. -/
theorem nodup_words (t : Text) : (words t).Nodup := by
  have hfrom : ∀ before, (wordsFrom before t).Nodup := by
    induction t with
    | nil => exact fun _ => List.nodup_nil
    | cons c rest ih =>
      intro before
      rw [wordsFrom]
      split
      · refine List.nodup_cons.2 ⟨fun hmem => ?_, ih _⟩
        have hlength := length_before_of_mem_wordsFrom hmem
        rw [List.length_cons, List.length_reverse] at hlength
        omega
      · exact ih _
  exact hfrom []

/-- The first word of a text is the word that has only blanks before it. -/
theorem firstWord_iff {p : Text → Prop} (hnil : ¬ p []) :
    p (firstWord t) ↔ ∃ word ∈ words t, isAllBlank word.before = true ∧ p word.text := by
  constructor
  · intro hp
    have hne : leadingWord (dropBlanks t) ≠ [] := fun h => hnil (h ▸ hp)
    have hword := isWordText_leadingWord hne
    obtain ⟨back, hback, hend⟩ := (leadingWord_eq_iff hword).1 rfl
    have hblank : ∀ c ∈ leadingBlanks t, isBlank c = true := List.all_eq_true.1 List.all_takeWhile
    refine ⟨⟨leadingBlanks t, firstWord t⟩, mem_words_iff.2 ⟨hword, ?_, back, ?_, hend⟩,
      List.all_eq_true.2 hblank, hp⟩
    · cases hlast : (leadingBlanks t).getLast? with
      | none => rfl
      | some c => exact isWord_eq_false_of_isBlank (hblank c (List.mem_of_getLast? hlast))
    · calc t
        _ = leadingBlanks t ++ dropBlanks t := (leadingBlanks_append_dropBlanks t).symm
        _ = leadingBlanks t ++ (firstWord t ++ back) := congrArg (leadingBlanks t ++ ·) hback
        _ = leadingBlanks t ++ firstWord t ++ back := (List.append_assoc ..).symm
  · rintro ⟨word, hmem, hblank, hp⟩
    obtain ⟨hword, -, back, rfl, hend⟩ := mem_words_iff.1 hmem
    have hleading : leadingWord (word.text ++ back) = word.text := (leadingWord_eq_iff hword).2 ⟨back, rfl, hend⟩
    have hfirst : firstWord (word.before ++ word.text ++ back) = word.text :=
      calc firstWord (word.before ++ word.text ++ back)
        _ = firstWord (word.text ++ back) := by
          rw [firstWord, dropBlanks, List.append_assoc, List.dropWhile_append_of_pos (List.all_eq_true.1 hblank)]
          rfl
        _ = leadingWord (word.text ++ back) := firstWord_of_leadingWord (by rw [hleading]; exact hword.ne_nil)
        _ = word.text := hleading
    rw [hfirst]
    exact hp

end Text

end Linework
