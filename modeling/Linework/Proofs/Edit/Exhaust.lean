import Linework.Proofs.Course

/-!
# Targets that are exhausted

An edit that puts rows in the stead of one line with a target (`Edit.Swaps`) finds such a line as long as there
is one. If no row contains the target, there is one line less with it afterwards, and the rows stay what they are:
the terminator that is detected is the same (`Line.expand_swap`). So the edit succeeds once for each line with the
target, from whichever end it looks for them, and then fails; by then the rows stand in the stead of all of these
lines, in their order (`Edit.exhausts_of_clean`).
-/

namespace Linework

namespace Target

variable {target : Target} {line : Text} {rows front back lines : List Text}

/-- Lines with rows in the stead of each one that contains a target. -/
def substitute (target : Target) (rows lines : List Text) : List Text :=
  lines.flatMap fun line => if target.isIn line then rows else [line]

theorem substitute_append (rows front back : List Text) :
    target.substitute rows (front ++ back) = target.substitute rows front ++ target.substitute rows back :=
  List.flatMap_append

theorem substitute_eq_self (h : ∀ line ∈ lines, target.isIn line = false) : target.substitute rows lines = lines := by
  induction lines with
  | nil => rfl
  | cons line rest ih =>
    have hline := h line List.mem_cons_self
    rw [substitute, List.flatMap_cons, if_neg (by simp [hline]), List.singleton_append]
    exact congrArg _ (ih fun other hother => h other (List.mem_cons_of_mem _ hother))

/-- Nothing in the stead of the lines that contain a target leaves those that do not. -/
theorem substitute_nil (lines : List Text) :
    target.substitute [] lines = lines.filter fun line => !target.isIn line := by
  induction lines with
  | nil => rfl
  | cons line rest ih =>
    rw [substitute, List.flatMap_cons, List.filter_cons, ← ih]
    cases target.isIn line <;> rfl

/-- A line whose rows are in its stead already counts for nothing more. -/
theorem substitute_swap (hline : target.isIn line = true) (hrows : ∀ row ∈ rows, target.isIn row = false) :
    target.substitute rows (front ++ rows ++ back) = target.substitute rows (front ++ line :: back) := by
  have hone : target.substitute rows (line :: back) = rows ++ target.substitute rows back := by
    rw [substitute, List.flatMap_cons, if_pos hline]
    rfl
  rw [substitute_append, substitute_append, substitute_append, substitute_eq_self hrows, hone, List.append_assoc]

theorem countP_swap (front back : List Text) (hline : target.isIn line = true) (hrows : ∀ row ∈ rows, target.isIn row = false) :
    (front ++ line :: back).countP target.isIn = (front ++ rows ++ back).countP target.isIn + 1 := by
  have hnone : rows.countP target.isIn = 0 := List.countP_eq_zero.2 fun row hrow => by simp [hrows row hrow]
  rw [List.countP_append, List.countP_append, List.countP_append, List.countP_cons, if_pos hline, hnone]
  omega

end Target

namespace Line

variable {newline : Newline} {line : Text} {front back : List Text}

theorem insertedRows_ne_nil (t : Text) : insertedRows t ≠ [] := by
  have hrows := List.length_pos_iff.2 (rows_ne_nil t)
  unfold insertedRows
  dsimp only
  split
  · rename_i hmore
    refine List.ne_nil_of_length_pos ?_
    rw [List.length_dropLast]
    omega
  · exact List.ne_nil_of_length_pos hrows

/-- The first line that a text comes to is a row with the terminator. -/
theorem exists_expand_cons (closing t : Text) (more : List Text) :
    ∃ row rest, Bare row ∧ expand closing (t :: more) = (row ++ closing) :: rest := by
  obtain ⟨row, rest, hrows⟩ := List.exists_cons_of_ne_nil (insertedRows_ne_nil t)
  have hrow : row ∈ insertedRows t := by simp [hrows]
  have hexpand : expand closing (t :: more) =
      (row ++ closing) :: (rest.map (· ++ closing) ++ expand closing more) := by
    rw [expand, List.flatMap_cons, hrows, List.map_cons, List.cons_append]
    rfl
  exact ⟨row, _, isTerminator_eq_false_of_mem_rows (mem_insertedRows hrow), hexpand⟩

/-- A row that gets the terminator which is detected, in the stead of a line, leaves it the one that is detected. -/
theorem detect_swap (h : Regular newline (front ++ line :: back)) {row : Text} {rest : List Text} (hrow : Bare row) :
    let closing := detect (front ++ line :: back) newline.text
    detect (front ++ (row ++ closing) :: rest) newline.text = closing := by
  intro closing
  cases front with
  | nil =>
    -- the row comes first: it is bare, so it ends in the terminator that it gets and in no longer one
    obtain ⟨kind, hkind⟩ : ∃ kind : Newline, closing = kind.text := exists_detect newline _
    have hclosing : terminator? (row ++ kind.text) = some kind.text :=
      terminator?_append_text fun _ => getLast?_ne_of_isTerminated_eq_false hrow.isTerminated_eq_false
    rw [hkind]
    exact detect_cons hclosing rest newline.text
  | cons first more =>
    have hfirst : Ended newline first := by
      cases hlines : more ++ line :: back with
      | nil => simp at hlines
      | cons second last =>
        rw [List.cons_append, hlines] at h
        cases h with
        | cons hended _ => exact hended
    obtain ⟨own, hown⟩ := hfirst.exists_terminator?
    have hclosing : closing = own := detect_cons hown (more ++ line :: back) newline.text
    rw [hclosing]
    exact detect_cons hown _ newline.text

/-- **Lines to insert stay the same** where some of them stand in the stead of a line. -/
theorem expand_swap (h : Regular newline (front ++ line :: back)) (contents : List Text) :
    let rows := expand (detect (front ++ line :: back) newline.text) contents
    expand (detect (front ++ rows ++ back) newline.text) contents = rows := by
  cases contents with
  | nil => rfl
  | cons t more =>
    obtain ⟨row, rest, hrow, hrows⟩ := exists_expand_cons (detect (front ++ line :: back) newline.text) t more
    dsimp only
    rw [hrows, List.append_assoc, List.cons_append, detect_swap h hrow, hrows]

end Line

namespace Edit

open Line

variable {settings : Settings} {target : Target} {e : Edit} {contents rows lines : List Text} {content : Text}
  {count : Nat}

/-- The edits that put contents in the stead of a line with a target. -/
inductive Swaps (target : Target) : List Text → Edit → Prop
  | replace (which : Occurrence) (contents : List Text) : Swaps target contents (.replace which target contents)
  | remove : Swaps target [] (.remove target)

theorem Swaps.creates_eq_false (h : Swaps target contents e) : e.creates = false := by
  cases h <;> rfl

/-- One of the lines with the target is looked for, and contents are put in its stead. -/
theorem Swaps.exists_which (h : Swaps target contents e) : ∃ which, ∀ settings path lines,
    e.splice settings path lines =
      match Block.find? which target lines with
      | none => .error (missing target path)
      | some index => .ok ⟨index, 1, expand (detect lines settings.newline.text) contents⟩ := by
  cases h with
  | replace which => exact ⟨which, fun _ _ _ => rfl⟩
  | remove => exact ⟨.first, fun _ _ _ => rfl⟩

theorem Swaps.splice_eq_error (h : Swaps target contents e) (hnone : ∀ line ∈ lines, target.isIn line = false)
    (path : Text) : e.splice settings path lines = .error (missing target path) := by
  obtain ⟨which, hsplice⟩ := h.exists_which
  rw [hsplice, Block.find?_eq_none_iff.2 hnone]

/-- **As long as a line contains the target**, one of those lines is edited. -/
theorem Swaps.exists_splice (h : Swaps target contents e) (settings : Settings)
    (hsome : ∃ line ∈ lines, target.isIn line = true) :
    ∃ front line back, lines = front ++ line :: back ∧ target.isIn line = true ∧
      ∀ path, e.splice settings path lines =
        .ok ⟨front.length, 1, expand (detect lines settings.newline.text) contents⟩ := by
  obtain ⟨which, hsplice⟩ := h.exists_which
  cases hfind : Block.find? which target lines with
  | none =>
    obtain ⟨line, hmem, hline⟩ := hsome
    rw [Block.find?_eq_none_iff.1 hfind line hmem] at hline
    cases hline
  | some index =>
    obtain ⟨front, line, back, hlines, hlength, hline⟩ := Block.exists_of_find? hfind
    refine ⟨front, line, back, hlines, hline, fun path => ?_⟩
    rw [hsplice, hfind, hlength]

/-- The course of an edit that is repeated: a content after each success, then a failure that leaves some lines. -/
structure Exhausting (settings : Settings) (target : Target) (e : Edit) (content : Text) (count : Nat)
    (lines after : List Text) : Prop where
  length : after.length = count
  last : (content :: after).getLast? = some lines.flatten
  regular : Regular settings.newline lines
  course (path : Text) : course settings path content (List.replicate (count + 1) e) =
    after.map (.ok (), ·) ++ [(.error (missing target path), lines.flatten)]

/-- **A run of edits** of regular lines edits each line with the target once. -/
theorem Swaps.exists_exhausting (h : Swaps target contents e) (hregular : Regular settings.newline lines)
    (hrows : expand (detect lines settings.newline.text) contents = rows)
    (hunmatched : ∀ row ∈ rows, target.isIn row = false) :
    ∃ after, Exhausting settings target e lines.flatten (lines.countP target.isIn) (target.substitute rows lines)
      after := by
  induction hcount : lines.countP target.isIn generalizing lines with
  | zero =>
    have hnone : ∀ line ∈ lines, target.isIn line = false := fun line hline => by
      simpa using List.countP_eq_zero.1 hcount line hline
    rw [Target.substitute_eq_self hnone]
    refine ⟨[], rfl, rfl, hregular, fun path => ?_⟩
    have hfails : e.rewritten settings path lines.flatten = .error (missing target path) := by
      rw [rewritten_eq_error_iff, hregular.split_flatten]
      exact h.splice_eq_error hnone path
    rw [List.replicate_one, course_cons_error hfails]
    rfl
  | succ less ih =>
    have hsome : ∃ line ∈ lines, target.isIn line = true := List.countP_pos_iff.1 (by omega)
    obtain ⟨front, line, back, rfl, hline, hsplice⟩ := h.exists_splice settings hsome
    rw [hrows] at hsplice
    -- the rows stay what they are in the edited lines, which have one line less with the target
    have happly : Splice.apply ⟨front.length, 1, rows⟩ (front ++ line :: back) = front ++ rows ++ back := by
      simp [Splice.apply]
    have hnext : Regular settings.newline (front ++ rows ++ back) := happly ▸ regular_of_splice hregular (hsplice [])
    have hsame : expand (detect (front ++ rows ++ back) settings.newline.text) contents = rows := by
      have hswap := expand_swap hregular contents
      rwa [hrows] at hswap
    have hless : (front ++ rows ++ back).countP target.isIn = less := by
      have hswap := Target.countP_swap front back hline hunmatched
      omega
    obtain ⟨after, hlength, hlast, hlines, hcourse⟩ := ih hnext hsame hless
    rw [Target.substitute_swap hline hunmatched] at hlast hlines hcourse
    refine ⟨(front ++ rows ++ back).flatten :: after, by rw [List.length_cons, hlength], ?_, hlines, fun path => ?_⟩
    · rw [List.getLast?_cons_cons]
      exact hlast
    · have hedited := rewritten_of_regular hregular (hsplice path)
      rw [happly] at hedited
      rw [List.replicate_succ, course_cons_ok hedited, hcourse path]
      rfl

/-- An edit of a file that is repeated succeeds a number of times and then fails because its target is missing.
The file then has some lines, which the last success left. -/
def Exhausts (settings : Settings) (target : Target) (e : Edit) (content : Text) (count : Nat) (lines : List Text) :
    Prop :=
  ∃ after : List Text, after.length = count ∧ (content :: after).getLast? = some lines.flatten ∧
    split settings.newline.text lines.flatten = lines ∧
    Storage.Yields settings content (List.replicate (count + 1) e) fun path =>
      after.map (.ok (), ·) ++ [(.error (missing target path), lines.flatten)]

theorem Swaps.exhausts (h : Swaps target contents e) (hclean : Clean settings.newline content) :
    let lines := split settings.newline.text content
    let rows := expand (detect lines settings.newline.text) contents
    (∀ row ∈ rows, target.isIn row = false) →
      Exhausts settings target e content (lines.countP target.isIn) (target.substitute rows lines) := by
  intro lines rows hunmatched
  obtain ⟨after, hlength, hlast, hregular, hcourse⟩ := h.exists_exhausting hclean.regular_split rfl hunmatched
  rw [flatten_split] at hlast hcourse
  refine ⟨after, hlength, hlast, hregular.split_flatten, Storage.yields_of_course ?_ hcourse⟩
  intro other hother
  rw [List.eq_of_mem_replicate hother]
  exact h.creates_eq_false

/-- **A target is exhausted** by as many edits as lines contain it. A replacement that does not contain it is then
in the stead of all these lines, whether the first or the last of them is replaced each time. Where they are removed,
the lines that do not contain it are left. -/
theorem exhausts_of_clean (target : Target) (hclean : Clean settings.newline content) :
    let lines := split settings.newline.text content
    (∀ (which : Occurrence) (contents : List Text),
      (∀ row ∈ expand (detect lines settings.newline.text) contents, target.isIn row = false) →
        Exhausts settings target (.replace which target contents) content (lines.countP target.isIn)
          (target.substitute (expand (detect lines settings.newline.text) contents) lines)) ∧
      Exhausts settings target (.remove target) content (lines.countP target.isIn)
        (lines.filter fun line => !target.isIn line) := by
  intro lines
  refine ⟨fun which contents hunmatched => (Swaps.replace which contents).exhausts hclean hunmatched, ?_⟩
  rw [← Target.substitute_nil]
  exact Swaps.remove.exhausts hclean nofun

/-- Two lines with a target, the last one unterminated, and two rows in the stead of each. -/
theorem exhausts_of_clean_open :
    Clean .lf (Text.lit "foo\nbar\nfoo") ∧
      (∀ row ∈ expand ['\n'] [Text.lit "x\ny"], (Target.text (Text.lit "foo")).isIn row = false) ∧
      Exhausts {} (.text (Text.lit "foo")) (.replace .last (.text (Text.lit "foo")) [Text.lit "x\ny"])
        (Text.lit "foo\nbar\nfoo") 2 (["x\n", "y\n", "bar\n", "x\n", "y\n"].map Text.lit) ∧
      ∃ m : Memory, m.Reachable ∧
        (Op.outcome (Storage.read (Text.lit "utf-8") ['f']) m).1 = .ok (Text.lit "foo\nbar\nfoo") ∧
        Storage.history {} ['f'] m
            (List.replicate 3 (.replace .last (.text (Text.lit "foo")) [Text.lit "x\ny"])) =
          [(.ok (), .ok (Text.lit "foo\nbar\nx\ny\n")), (.ok (), .ok (Text.lit "x\ny\nbar\nx\ny\n")),
            (.error (missing (.text (Text.lit "foo")) ['f']), .ok (Text.lit "x\ny\nbar\nx\ny\n"))] := by
  have hclean : Clean .lf (Text.lit "foo\nbar\nfoo") := .inr (.inr (by decide))
  have hsplit : split Newline.lf.text (Text.lit "foo\nbar\nfoo") = ["foo\n", "bar\n", "foo"].map Text.lit := by
    decide +kernel
  have hunmatched : ∀ row ∈ expand ['\n'] [Text.lit "x\ny"], (Target.text (Text.lit "foo")).isIn row = false := by
    decide +kernel
  have hexhausts := (@exhausts_of_clean {} _ (.text (Text.lit "foo")) hclean).1 .last [Text.lit "x\ny"]
  rw [hsplit] at hexhausts
  exact ⟨hclean, hunmatched, hexhausts hunmatched, _,
    Memory.Reachable.start.move (.act {} (.write ['f'] (Text.lit "foo\nbar\nfoo"))), rfl, by decide +kernel⟩

end Edit

end Linework
