import Linework.Proofs.Block.Depth
import Linework.Proofs.Pattern.Match

/-!
# How edits fail

An edit fails only because its target is missing (`Edit.missing_of_splice`). Blocks are looked for
from lines that open one: the line found for a block does by its search, and the head of a class does
because whatever reads as such a head opens a class body (`Delimiter.opens_pos_of_classHeader`). So
the scan for the end of a block is never refused.
-/

namespace Linework

namespace Delimiter

/-- The head of a class or a module reads as a definition. -/
theorem isSome_run_definition (cursor : Cursor) (h : (classHeader.expr.run cursor some).isSome) :
    (definition.run cursor some).isSome := by
  have hwords : ∀ mid next, ((anyWord ["class", "module"]).run mid next).isSome →
      ((anyWord ["class", "module", "def"]).run mid next).isSome := by
    intro mid next hword
    rcases (Expr.isSome_run_alt _ _ mid next).1 hword with hclass | hmodule
    · exact (Expr.isSome_run_alt _ _ mid next).2 (.inl hclass)
    · exact (Expr.isSome_run_alt _ _ mid next).2 (.inr ((Expr.isSome_run_alt _ _ mid next).2 (.inl hmodule)))
  exact Expr.run_mono lineStart cursor _ _ (fun start => Expr.run_mono blanks start _ _ fun mid => hwords mid _) h

theorem opens_pos_of_classHeader {line : Text} (h : classHeader.matchesIn line = true) :
    0 < classBody.opens line := by
  refine (Pattern.count_pos_iff _ _).2 (Expr.matchesFrom_mono (fun cursor hcursor => ?_) 0 [] line h)
  exact (Expr.isSome_run_alt definition _ cursor some).2 (.inl (isSome_run_definition cursor hcursor))

end Delimiter

namespace Block

variable {lines : List Text} {target : Target} {delimiter : Delimiter}

/-- A block is scanned to its end from any line that opens one. -/
theorem exists_matchingEnd {start : Nat} (hstart : start < lines.length)
    (hopens : delimiter.opens lines[start] ≠ 0) : ∃ stop, matchingEnd delimiter lines start = .ok stop :=
  ⟨_, (matchingEnd_natCast hstart).trans (if_neg hopens)⟩

/-- What is nearest above a line, the line included, is a head, and none comes between. -/
structure Nearest (header : Pattern) (lines : List Text) (inner start : Nat) : Prop where
  le : start ≤ inner
  head : ∃ h : start < lines.length, header.matchesIn lines[start] = true
  between : ∀ index, start < index → index ≤ inner → ∀ h : index < lines.length,
    header.matchesIn lines[index] = false

theorem exists_enclosing (header : Pattern) {inner : Nat} (hinner : inner < lines.length) :
    ∃ found, enclosing header lines inner = .ok found ∧ ∀ start, found = some start →
      Nearest header lines inner start := by
  rw [enclosing, if_neg (by omega), if_neg (by rw [Int.toNat_natCast]; omega)]
  refine ⟨_, rfl, fun start hstart => ?_⟩
  obtain ⟨back, hback, rfl⟩ := Option.map_eq_some_iff.1 hstart
  rw [Int.toNat_natCast] at hback ⊢
  obtain ⟨hlength, hline, hnone⟩ := List.findIdx?_eq_some_iff_getElem.1 hback
  have htake : (lines.take (inner + 1)).length = inner + 1 := List.length_take_of_le hinner
  rw [List.length_reverse, htake] at hlength
  have hget : ∀ offset (hoffset : offset < (lines.take (inner + 1)).reverse.length),
      (lines.take (inner + 1)).reverse[offset] = lines[inner - offset] := by
    intro offset hoffset
    simp only [List.getElem_reverse, List.getElem_take, htake, Nat.add_sub_cancel]
  rw [hget] at hline
  refine ⟨Nat.sub_le _ _, ⟨by omega, hline⟩, fun index habove hindex h => ?_⟩
  have hearlier := hnone (inner - index) (by omega)
  rw [hget, Bool.not_eq_true] at hearlier
  have hplace : inner - (inner - index) = index := by omega
  simpa only [hplace] using hearlier

/-- The head that a target refers to is one of the lines, and a head. -/
theorem exists_findHeader (header : Pattern) (target : Target) (lines : List Text) :
    ∃ found, findHeader header target lines = .ok found ∧
      ∀ index, found = some index → ∃ h : index < lines.length, header.matchesIn lines[index] = true := by
  unfold findHeader
  cases hdirect : lines.findIdx? fun line => header.matchesIn line && target.isIn line with
  | some index =>
    obtain ⟨hindex, hline, -⟩ := List.findIdx?_eq_some_iff_getElem.1 hdirect
    rw [Bool.and_eq_true] at hline
    refine ⟨some index, rfl, ?_⟩
    rintro _ ⟨⟩
    exact ⟨hindex, hline.1⟩
  | none =>
    dsimp only
    cases hinner : findFirst? target lines with
    | none => exact ⟨none, rfl, nofun⟩
    | some inner =>
      have hlt := (List.findIdx?_eq_some_iff_getElem.1 hinner).1
      obtain ⟨found, hfound, hnearest⟩ := exists_enclosing header hlt
      exact ⟨found, hfound, fun start hstart => (hnearest start hstart).head⟩

theorem exists_classSpan (target : Target) (lines : List Text) :
    ∃ found, classSpan target lines = .ok found := by
  obtain ⟨header, hheader, hline⟩ := exists_findHeader Delimiter.classHeader target lines
  unfold classSpan
  rw [hheader]
  cases header with
  | none => exact ⟨none, rfl⟩
  | some start =>
    obtain ⟨hstart, hmatch⟩ := hline start rfl
    obtain ⟨stop, hstop⟩ := exists_matchingEnd hstart (Nat.ne_of_gt (Delimiter.opens_pos_of_classHeader hmatch))
    show ∃ found, (matchingEnd Delimiter.classBody lines start >>= _) = _
    rw [hstop]
    cases stop <;> exact ⟨_, rfl⟩

end Block

namespace Edit

variable {settings : Settings} {path : Text} {edit : Edit} {lines : List Text} {failure : Failure}

/-- What follows a search that always ends fails in its own way. -/
theorem eq_of_bind_eq_error {α β : Type} {search : Except Failure α} {goesOn : α → Except Failure β}
    {failure refusal : Failure} (hsearch : ∃ found, search = .ok found)
    (hrefused : ∀ found other, goesOn found = .error other → other = refusal)
    (h : (search >>= goesOn) = .error failure) : failure = refusal := by
  obtain ⟨found, rfl⟩ := hsearch
  exact hrefused found failure h

/-- **An edit that finds no place fails because its target is missing.** -/
theorem missing_of_splice (h : edit.splice settings path lines = .error failure) :
    ∃ target, edit.target? = some target ∧ failure = missing target path := by
  unfold splice at h
  dsimp only at h
  cases edit with
  | prepend contents | append contents => cases h
  | replace which target contents =>
    refine ⟨target, rfl, ?_⟩
    dsimp only at h
    split at h
    · exact (Except.error.inj h).symm
    · cases h
  | insert which side target contents =>
    refine ⟨target, rfl, ?_⟩
    dsimp only at h
    split at h
    · exact (Except.error.inj h).symm
    · cases side <;> cases h
  | remove target =>
    refine ⟨target, rfl, ?_⟩
    dsimp only at h
    split at h
    · exact (Except.error.inj h).symm
    · cases h
  | insertBlockTop target contents | insertBlockBottom target contents =>
    refine ⟨target, rfl, eq_of_bind_eq_error ⟨_, Block.span_eq target lines⟩ (fun found other hother => ?_) h⟩
    rcases found with _ | ⟨start, stop⟩
    · exact (Except.error.inj hother).symm
    · dsimp only at hother
      split at hother
      · exact (Except.error.inj hother).symm
      · cases hother
  | removeBlock target =>
    refine ⟨target, rfl, eq_of_bind_eq_error ⟨_, Block.span_eq target lines⟩ (fun found other hother => ?_) h⟩
    rcases found with _ | ⟨start, stop⟩
    · exact (Except.error.inj hother).symm
    · cases hother
  | insertClassBottom target contents =>
    refine ⟨target, rfl, eq_of_bind_eq_error (Block.exists_classSpan target lines) (fun found other hother => ?_) h⟩
    rcases found with _ | ⟨start, stop⟩
    · exact (Except.error.inj hother).symm
    · dsimp only at hother
      split at hother
      · exact (Except.error.inj hother).symm
      · cases hother

end Edit

end Linework
