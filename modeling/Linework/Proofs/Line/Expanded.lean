import Linework.Proofs.Line.Uniform

/-!
# Expanded texts

Texts to insert come to rows without terminators, each with the same terminator behind it. A text is a row, or a row
with a terminator and a text behind it (`rowwise`), so whatever is said of its rows is said of these two cases. Which
rows there are does not depend on how the terminators are spelled (`rows_unify`), and rows that are joined again are
the rows of what comes out (`rows_flatten`). So expanding brings texts into a normal form, which it leaves alone line
by line and as one text (`expand_normal`).
-/

namespace Linework

namespace Line

variable {kind newline : Newline} {row rest t : Text} {parts : List Text}

/-- A text with every terminator in it, `\r\n` taken as one, made one of a kind. -/
def unify (kind : Newline) : Text → Text
  | [] => []
  | '\r' :: '\n' :: rest => kind.text ++ unify kind rest
  | c :: rest => if isTerminator c then kind.text ++ unify kind rest else c :: unify kind rest

/-- Induction on the rows of a text. A carriage return ends a row by itself only if no line feed is behind it. -/
@[elab_as_elim]
theorem rowwise {P : Text → Prop} (bare : ∀ row, Bare row → P row)
    (ended : ∀ row (found : Newline) rest, Bare row → (found = .cr → rest.head? ≠ some ('\n' : CodePoint)) → P rest →
      P (row ++ (found.text ++ rest))) (t : Text) : P t := by
  have hnil : Bare [] := List.forall_mem_nil _
  -- the row that is open in front of the text grows until a terminator ends it
  have hopen : ∀ row, Bare row → P (row ++ t) := by
    fun_induction terminators t with
    | case1 =>
      intro row hrow
      rw [List.append_nil]
      exact bare row hrow
    | case2 rest ih =>
      intro row hrow
      apply ended row .crlf rest hrow
      · rintro ⟨⟩
      · exact ih [] hnil
    | case3 rest hnext ih =>
      intro row hrow
      apply ended row .cr rest hrow
      · intro _ hhead
        obtain ⟨more, hmore⟩ := List.head?_eq_some_iff.1 hhead
        exact hnext more rfl hmore
      · exact ih [] hnil
    | case4 rest _ _ ih =>
      intro row hrow
      apply ended row .lf rest hrow
      · rintro ⟨⟩
      · exact ih [] hnil
    | case5 c rest _ hcr hlf ih =>
      intro row hrow
      have hc : isTerminator c = false := by simp [isTerminator, hcr, hlf]
      have hgrown : Bare (row ++ [c]) := by
        intro d hd
        rcases List.mem_append.1 hd with hd | hd
        · exact hrow d hd
        · rw [List.mem_singleton.1 hd, hc]
      have hmore := ih (row ++ [c]) hgrown
      rwa [List.append_assoc] at hmore
  exact hopen [] hnil

/-! ## Rows -/

theorem rows_append_of_bare (hrow : Bare row) {first : Text} {more : List Text} (h : rows t = first :: more) :
    rows (row ++ t) = (row ++ first) :: more := by
  induction row with
  | nil => exact h
  | cons c tail ih =>
    have hc : isTerminator c = false := hrow c List.mem_cons_self
    have htail := ih fun d hd => hrow d (List.mem_cons_of_mem _ hd)
    rw [List.cons_append, rows, if_neg (by simp [hc]), htail]
    · rfl
    · rintro _ rfl
      cases hc

theorem rows_of_bare (hrow : Bare row) : rows row = [row] := by
  have h := rows_append_of_bare hrow (rfl : rows [] = [[]])
  rwa [List.append_nil] at h

theorem rows_text_append (h : kind = .cr → rest.head? ≠ some ('\n' : CodePoint)) :
    rows (kind.text ++ rest) = [] :: rows rest := by
  cases kind with
  | lf | crlf => rfl
  | cr =>
    rw [Newline.text, List.singleton_append, rows]
    · rfl
    · rintro more _ rfl
      exact h rfl rfl

/-- A terminator ends a row. -/
theorem rows_append_text_append (hrow : Bare row) (h : kind = .cr → rest.head? ≠ some ('\n' : CodePoint)) :
    rows (row ++ (kind.text ++ rest)) = row :: rows rest := by
  rw [rows_append_of_bare hrow (rows_text_append h), List.append_nil]

theorem unify_append_of_bare (hrow : Bare row) (t : Text) : unify kind (row ++ t) = row ++ unify kind t := by
  induction row with
  | nil => rfl
  | cons c tail ih =>
    have hc : isTerminator c = false := hrow c List.mem_cons_self
    rw [List.cons_append, unify, if_neg (by simp [hc]), ih fun d hd => hrow d (List.mem_cons_of_mem _ hd)]
    · rfl
    · rintro _ rfl
      cases hc

theorem unify_of_bare (hrow : Bare row) : unify kind row = row := by
  have h : unify kind (row ++ []) = row ++ unify kind [] := unify_append_of_bare hrow []
  rwa [List.append_nil, unify, List.append_nil] at h

theorem unify_text_append {found : Newline} (h : found = .cr → rest.head? ≠ some ('\n' : CodePoint)) :
    unify kind (found.text ++ rest) = kind.text ++ unify kind rest := by
  cases found with
  | lf | crlf => rfl
  | cr =>
    rw [Newline.text, List.singleton_append, unify]
    · rfl
    · rintro more _ rfl
      exact h rfl rfl

/-- A terminator is made one of the kind. -/
theorem unify_append_text_append {found : Newline} (hrow : Bare row)
    (h : found = .cr → rest.head? ≠ some ('\n' : CodePoint)) :
    unify kind (row ++ (found.text ++ rest)) = row ++ (kind.text ++ unify kind rest) := by
  rw [unify_append_of_bare hrow, unify_text_append h]

/-! ## One kind of terminator -/

theorem lf_notMem_unify (t : Text) : ('\n' : CodePoint) ∉ unify .cr t := by
  have hbare : ∀ row, Bare row → ('\n' : CodePoint) ∉ row := fun row hrow hmem => absurd (hrow _ hmem) (by decide)
  induction t using rowwise with
  | bare row hrow =>
    rw [unify_of_bare hrow]
    exact hbare row hrow
  | ended row found rest hrow hseam ih =>
    rw [unify_append_text_append hrow hseam]
    simp [hbare row hrow, Newline.text, ih]

/-- A carriage return that is put for a terminator is not followed by a line feed. -/
theorem head?_unify_ne (kind : Newline) (t : Text) : kind = .cr → (unify kind t).head? ≠ some ('\n' : CodePoint) := by
  rintro rfl hhead
  exact lf_notMem_unify t (List.mem_of_head? hhead)

/-- There are as many terminators as before, all of the kind. -/
theorem terminators_unify (kind : Newline) (t : Text) :
    terminators (unify kind t) = (terminators t).map fun _ => kind := by
  induction t using rowwise with
  | bare row hrow => rw [unify_of_bare hrow, terminators_eq_nil_of_bare hrow, List.map_nil]
  | ended row found rest hrow hseam ih =>
    rw [unify_append_text_append hrow hseam, terminators_append_of_bare hrow, terminators_append_of_bare hrow,
      terminators_text_append (head?_unify_ne kind rest), terminators_text_append hseam, ih, List.map_cons]

/-- **The rows of a text** do not depend on how its terminators are spelled. -/
theorem rows_unify (kind : Newline) (t : Text) : rows (unify kind t) = rows t := by
  induction t using rowwise with
  | bare row hrow => rw [unify_of_bare hrow]
  | ended row found rest hrow hseam ih =>
    rw [unify_append_text_append hrow hseam, rows_append_text_append hrow (head?_unify_ne kind rest),
      rows_append_text_append hrow hseam, ih]

/-- The rows of a text, with one terminator between them. -/
theorem intercalate_rows (kind : Newline) (t : Text) : kind.text.intercalate (rows t) = unify kind t := by
  induction t using rowwise with
  | bare row hrow => rw [unify_of_bare hrow, rows_of_bare hrow, List.intercalate_singleton]
  | ended row found rest hrow hseam ih =>
    rw [unify_append_text_append hrow hseam, rows_append_text_append hrow hseam,
      List.intercalate_cons_of_ne_nil (rows_ne_nil rest), ih, List.append_assoc]

/-! ## Lines to insert -/

theorem insertedRows_unify (kind : Newline) (t : Text) : insertedRows (unify kind t) = insertedRows t := by
  rw [insertedRows, insertedRows, rows_unify]

theorem expand_eq_map (closing : Text) (texts : List Text) :
    expand closing texts = (texts.flatMap insertedRows).map (· ++ closing) := by
  rw [expand, List.map_flatMap]

theorem intercalate_concat (closing last : Text) (front : List Text) :
    closing.intercalate (front ++ [last]) = (front.map (· ++ closing)).flatten ++ last := by
  induction front with
  | nil => exact List.intercalate_singleton
  | cons first more ih =>
    rw [List.cons_append, List.intercalate_cons_of_ne_nil (by simp), ih]
    simp

theorem insertedRows_eq {front : List Text} {last : Text} (h : rows t = front ++ [last]) :
    insertedRows t = if front ≠ [] ∧ last = [] then front else front ++ [last] := by
  have hmore : 1 < (front ++ [last]).length ↔ front ≠ [] := by
    rw [List.length_append, List.length_singleton, ← List.length_pos_iff]
    omega
  rw [insertedRows, h]
  simp only [hmore, List.getLast?_concat, Option.some.injEq, List.dropLast_concat]

/-- **What a text comes to**, joined: the text with its terminators made one of a kind, and terminated. -/
theorem flatten_insertedRows (newline : Newline) (t : Text) :
    ((insertedRows t).map (· ++ newline.text)).flatten = terminate newline.text (unify newline t) := by
  obtain ⟨front, last, hrows⟩ := (List.eq_nil_or_concat' (rows t)).resolve_left (rows_ne_nil t)
  have hlast : Bare last := isTerminator_eq_false_of_mem_rows (hrows ▸ List.mem_append_right _ List.mem_cons_self)
  rw [insertedRows_eq hrows, ← intercalate_rows, hrows, intercalate_concat]
  by_cases hopen : last = []
  · subst hopen
    rw [List.append_nil]
    rcases List.eq_nil_or_concat' front with rfl | ⟨before, body, rfl⟩
    · simp [terminate, isTerminated]
    · -- the text ends in the terminator of the last row but one
      have hterminated : isTerminated ((before ++ [body]).map (· ++ newline.text)).flatten = true := by
        rw [List.map_append, List.flatten_append, List.map_singleton, List.flatten_singleton, ← List.append_assoc]
        exact isTerminated_append_text _
      rw [if_pos (by simp), terminate, if_pos hterminated]
  · have hunterminated : isTerminated ((front.map (· ++ newline.text)).flatten ++ last) = false := by
      rw [isTerminated_append hopen, hlast.isTerminated_eq_false]
    rw [if_neg fun h => hopen h.2, terminate, if_neg (by simp [hunterminated]), List.map_append, List.flatten_append,
      List.map_singleton, List.flatten_singleton, List.append_assoc]

/-! ## Rows that are joined again -/

theorem bare_of_mem_flatMap_insertedRows (texts : List Text) : ∀ row ∈ texts.flatMap insertedRows, Bare row := by
  intro row hmem
  obtain ⟨t, -, hrow⟩ := List.mem_flatMap.1 hmem
  exact isTerminator_eq_false_of_mem_rows (mem_insertedRows hrow)

/-- **Joined rows** are told apart again, and an empty row is behind the last terminator. -/
theorem rows_flatten (kind : Newline) (hparts : ∀ row ∈ parts, Bare row) :
    rows (parts.map (· ++ kind.text)).flatten = parts ++ [[]] := by
  induction parts with
  | nil => rfl
  | cons row more ih =>
    have hmore : ∀ other ∈ more, Bare other := fun other hother => hparts other (List.mem_cons_of_mem _ hother)
    have hseam : kind = .cr → (more.map (· ++ kind.text)).flatten.head? ≠ some ('\n' : CodePoint) := by
      rintro rfl hhead
      obtain ⟨line, hline, hmem⟩ := List.mem_flatten.1 (List.mem_of_head? hhead)
      obtain ⟨other, hother, rfl⟩ := List.mem_map.1 hline
      have htrim : Trim .cr (other ++ Newline.cr.text) := .of_append (hmore other hother)
      exact htrim.lf_notMem hmem
    rw [List.map_cons, List.flatten_cons, List.append_assoc,
      rows_append_text_append (hparts row List.mem_cons_self) hseam, ih hmore, List.cons_append]

/-- The empty row behind the last terminator is dropped. -/
theorem insertedRows_flatten (kind : Newline) (hparts : ∀ row ∈ parts, Bare row) (hne : parts ≠ []) :
    insertedRows (parts.map (· ++ kind.text)).flatten = parts := by
  rw [insertedRows_eq (rows_flatten kind hparts), if_pos ⟨hne, rfl⟩]

/-- One row with a terminator comes to itself. -/
theorem insertedRows_append_text (kind : Newline) (hrow : Bare row) : insertedRows (row ++ kind.text) = [row] := by
  have hparts : ∀ other ∈ [row], Bare other := by simpa using hrow
  simpa using insertedRows_flatten kind hparts (List.cons_ne_nil _ _)

theorem flatMap_insertedRows_map (kind : Newline) (hparts : ∀ row ∈ parts, Bare row) :
    (parts.map (· ++ kind.text)).flatMap insertedRows = parts := by
  induction parts with
  | nil => rfl
  | cons row more ih =>
    rw [List.map_cons, List.flatMap_cons, insertedRows_append_text kind (hparts row List.mem_cons_self),
      ih fun other hother => hparts other (List.mem_cons_of_mem _ hother), List.singleton_append]

/-- Lines that were expanded come to themselves, each as a text of its own. -/
theorem expand_expand (newline : Newline) (texts : List Text) :
    expand newline.text (expand newline.text texts) = expand newline.text texts := by
  rw [expand_eq_map newline.text texts, expand_eq_map,
    flatMap_insertedRows_map newline (bare_of_mem_flatMap_insertedRows texts)]

/-- Lines that were expanded come to themselves as one text, if there are any. -/
theorem expand_flatten_iff (newline : Newline) (texts : List Text) :
    expand newline.text [(expand newline.text texts).flatten] = expand newline.text texts ↔
      expand newline.text texts ≠ [] := by
  constructor
  · intro hself hnil
    rw [hnil] at hself
    exact absurd hself (List.cons_ne_nil _ _)
  · intro hne
    rw [expand_eq_map newline.text texts] at hne ⊢
    have hrows : texts.flatMap insertedRows ≠ [] := fun hnil => hne (by rw [hnil, List.map_nil])
    rw [expand_eq_map, List.flatMap_singleton,
      insertedRows_flatten newline (bare_of_mem_flatMap_insertedRows texts) hrows]

/-- **Expanding brings texts into a normal form.** Every line is a row without terminators with the terminator behind
it; joined, the lines are the texts with their terminators made one of a kind, each text terminated. Expanding the
lines again changes nothing, and neither does expanding them as one text, if there are any. How the terminators of
the texts were spelled does not matter. -/
theorem expand_normal (newline : Newline) (texts : List Text) :
    (∀ line ∈ expand newline.text texts, ∃ row, Bare row ∧ line = row ++ newline.text) ∧
      (expand newline.text texts).flatten = texts.flatMap (fun t => terminate newline.text (unify newline t)) ∧
      expand newline.text (expand newline.text texts) = expand newline.text texts ∧
      (expand newline.text [(expand newline.text texts).flatten] = expand newline.text texts ↔
        expand newline.text texts ≠ []) ∧
      ∀ kind : Newline, (∀ t ∈ texts, terminators (unify kind t) = (terminators t).map fun _ => kind) ∧
        expand newline.text (texts.map (unify kind)) = expand newline.text texts := by
  refine ⟨fun line => exists_row_of_mem_expand, ?_, expand_expand newline texts, expand_flatten_iff newline texts,
    fun kind => ⟨fun t _ => terminators_unify kind t, ?_⟩⟩
  · rw [expand, List.flatMap_def, List.flatMap_def, List.flatten_flatten, List.map_map]
    exact congrArg List.flatten (List.map_congr_left fun t _ => flatten_insertedRows newline t)
  · rw [expand, expand, List.flatMap_map]
    simp only [insertedRows_unify]

/-- Terminators of every kind, next to each other and at the end, and a text without any. -/
theorem expand_normal_mixed :
    expand Newline.cr.text (["a\r\n\rb", "", "\n"].map Text.lit) = ["a\r", "\r", "b\r", "\r", "\r"].map Text.lit ∧
      Text.lit "b\r" ∈ ["a\r", "\r", "b\r", "\r", "\r"].map Text.lit ∧
      (∃ row, Bare row ∧ Text.lit "b\r" = row ++ Newline.cr.text) ∧
      expand Newline.cr.text [Text.lit "a\r\rb\r\r\r"] = ["a\r", "\r", "b\r", "\r", "\r"].map Text.lit ∧
      Text.lit "\n" ∈ ["a\r\n\rb", "", "\n"].map Text.lit ∧
      terminators (Text.lit "\r\n") = [.crlf] ∧
      expand Newline.cr.text (["a\r\n\r\nb", "", "\r\n"].map Text.lit) =
        ["a\r", "\r", "b\r", "\r", "\r"].map Text.lit := by
  have hlines : expand Newline.cr.text (["a\r\n\rb", "", "\n"].map Text.lit) =
      ["a\r", "\r", "b\r", "\r", "\r"].map Text.lit := by decide +kernel
  have hmem : Text.lit "b\r" ∈ ["a\r", "\r", "b\r", "\r", "\r"].map Text.lit := by decide +kernel
  have htext : Text.lit "\n" ∈ ["a\r\n\rb", "", "\n"].map Text.lit := by decide +kernel
  obtain ⟨hrows, -, -, hone, hunify⟩ := expand_normal .cr (["a\r\n\rb", "", "\n"].map Text.lit)
  rw [hlines] at hrows hone hunify
  exact ⟨hlines, hmem, hrows _ hmem, hone.2 (List.cons_ne_nil _ _), htext, (hunify .crlf).1 _ htext, (hunify .crlf).2⟩

end Line

end Linework
