import Linework.Proofs.Path.Normal

/-!
# Joined paths

A joined path is told by its solid pieces, which are those of its tokens one after the other, and by
whether it is absolute (`joinTexts_congr`). It starts at the root when its first token does, but also when
the first token is empty and another follows (`isAbsolute_join_iff`). What is joined may be joined before,
in parts, and nested to any depth (`join_in_parts`).
-/

namespace Linework

namespace Path

variable {path first : Text} {texts others rest : List Text}

/-! ## Pieces of a joined path -/

theorem bare_of_mem_flatMap_solid {piece : Text} (h : piece ∈ texts.flatMap solid) : Bare piece ∧ piece ≠ [] := by
  obtain ⟨path, -, hpiece⟩ := List.mem_flatMap.1 h
  exact bare_of_mem_solid hpiece

theorem solid_slash (path : Text) : solid ('/' :: path) = solid path := by
  simp [solid, split_slash]

/-- A joined path is written from the solid pieces of its texts, behind a slash or not. -/
theorem joinTexts_eq (texts : List Text) :
    joinTexts texts =
      if isAbsolute (joinTexts texts) then ofSegments (texts.flatMap solid) else ofPieces (texts.flatMap solid) := by
  have hsolid : (texts.flatMap split).filter (· ≠ []) = texts.flatMap solid := List.filter_flatMap
  have hbody : isAbsolute (ofPieces (texts.flatMap solid)) = false :=
    isAbsolute_ofPieces fun _ => bare_of_mem_flatMap_solid
  by_cases hroot : (texts.flatMap split).head? = some [] ∧ 1 < (texts.flatMap split).length
  · have hjoin : joinTexts texts = ofSegments (texts.flatMap solid) := by
      simp only [joinTexts, if_pos hroot, hsolid, ofSegments]
    rw [hjoin, isAbsolute_ofSegments, if_pos rfl]
  · have hjoin : joinTexts texts = ofPieces (texts.flatMap solid) := by
      simp only [joinTexts, if_neg hroot, hsolid]
    rw [hjoin, hbody, if_neg (by simp)]

theorem joinTexts_congr (habs : isAbsolute (joinTexts texts) = isAbsolute (joinTexts others))
    (hsolid : texts.flatMap solid = others.flatMap solid) : joinTexts texts = joinTexts others := by
  rw [joinTexts_eq texts, joinTexts_eq others, habs, hsolid]

theorem solid_joinTexts (texts : List Text) : solid (joinTexts texts) = texts.flatMap solid := by
  have hpieces : solid (ofPieces (texts.flatMap solid)) = texts.flatMap solid := by
    rw [solid_ofPieces fun piece hpiece => (bare_of_mem_flatMap_solid hpiece).1]
    exact List.filter_eq_self.2 fun piece hpiece => by simp [(bare_of_mem_flatMap_solid hpiece).2]
  rw [joinTexts_eq]
  split
  · rw [ofSegments, solid_slash, hpieces]
  · exact hpieces

/-! ## Where a joined path starts -/

/-- A relative path that is not empty has a piece to start with. -/
theorem solid_ne_nil (hne : path ≠ []) (h : isAbsolute path = false) : solid path ≠ [] := by
  obtain ⟨piece, more, hsplit⟩ := List.exists_cons_of_ne_nil (Text.pieces_ne_nil isSeparator path)
  have hhead := head?_split_ne hne h
  rw [split, hsplit] at hhead
  have hpiece : piece ≠ [] := by simpa using hhead
  apply List.ne_nil_of_mem
  exact List.mem_filter.2 ⟨hsplit ▸ List.mem_cons_self, by simpa using hpiece⟩

/-- An empty text counts as a piece in front, so with another text behind it the path has a root. -/
theorem isAbsolute_joinTexts_nil_cons : isAbsolute (joinTexts ([] :: rest)) = true ↔ rest ≠ [] := by
  cases rest with
  | nil => simp [joinTexts, split, Text.pieces, ofPieces, isAbsolute]
  | cons next more =>
    have hlength : 0 < (split next).length := List.length_pos_iff.2 (Text.pieces_ne_nil _ _)
    have hroot : (([] :: next :: more).flatMap split).head? = some [] ∧
        1 < (([] :: next :: more).flatMap split).length := by
      have hnil : split [] = [[]] := rfl
      rw [List.flatMap_cons, hnil, List.flatMap_cons]
      refine ⟨rfl, ?_⟩
      simp only [List.length_append, List.length_singleton]
      omega
    simp only [joinTexts, if_pos hroot]
    simp [isAbsolute, isSeparator]

theorem isAbsolute_joinTexts_iff :
    isAbsolute (joinTexts (first :: rest)) = true ↔ isAbsolute first = true ∨ first = [] ∧ rest ≠ [] := by
  by_cases hne : first = []
  · subst hne
    rw [isAbsolute_joinTexts_nil_cons]
    simp [isAbsolute]
  · rw [isAbsolute_joinTexts_cons hne]
    simp [hne]

theorem isAbsolute_joinTexts_singleton (path : Text) : isAbsolute (joinTexts [path]) = isAbsolute path := by
  rw [Bool.eq_iff_iff, isAbsolute_joinTexts_iff]
  simp

/-- Nothing is joined to nothing but from a single empty text. -/
theorem joinTexts_cons_eq_nil_iff : joinTexts (first :: rest) = [] ↔ first = [] ∧ rest = [] := by
  constructor
  · intro hnil
    have habs : ¬ isAbsolute (joinTexts (first :: rest)) = true := by
      rw [hnil]
      decide
    rw [isAbsolute_joinTexts_iff, not_or] at habs
    -- A first text that is not empty leaves a solid piece, and that is joined too.
    have hfirst : first = [] := by
      by_contra hne
      have hsolid := solid_joinTexts (first :: rest)
      rw [hnil, List.flatMap_cons] at hsolid
      exact solid_ne_nil hne (by simpa using habs.1) (List.append_eq_nil_iff.1 hsolid.symm).1
    exact ⟨hfirst, by simpa [hfirst] using habs.2⟩
  · rintro ⟨rfl, rfl⟩
    rfl

/-! ## Joining tokens -/

/-- **A joined path is absolute** exactly if its first text is, or if that is empty and not alone. -/
theorem isAbsolute_join_iff {tokens : List PathToken} (htexts : PathToken.textsOfAll tokens = first :: rest) :
    isAbsolute (join tokens) = true ↔ isAbsolute first = true ∨ first = [] ∧ rest ≠ [] := by
  rw [join, htexts]
  exact isAbsolute_joinTexts_iff

/-- The first text is deep in a group behind an empty one, and written with a backslash. -/
theorem isAbsolute_join_nested :
    PathToken.textsOfAll [.group [.group [], .group [.text (Text.lit "\\a")]], .text []] = [Text.lit "\\a", []] ∧
      isAbsolute (join [.group [.group [], .group [.text (Text.lit "\\a")]], .text []]) = true :=
  ⟨rfl, (isAbsolute_join_iff rfl).2 (.inl (by decide))⟩

/-- **An empty first text makes a relative path absolute.** -/
theorem isAbsolute_join_of_empty :
    PathToken.textsOfAll [.text [], .text (Text.lit "a")] = [[], Text.lit "a"] ∧ isAbsolute [] = false ∧
      join [.text [], .text (Text.lit "a")] = Text.lit "/a" ∧
      isAbsolute (join [.text [], .text (Text.lit "a")]) = true := by
  decide

theorem joinTexts_joinTexts (texts : List Text) : joinTexts [joinTexts texts] = joinTexts texts := by
  apply joinTexts_congr
  · exact isAbsolute_joinTexts_singleton _
  · rw [List.flatMap_singleton, solid_joinTexts]

/-- Texts may be joined in two parts, unless one of the parts is of no text at all. -/
theorem joinTexts_append (htexts : texts ≠ []) (hothers : others ≠ []) :
    joinTexts [joinTexts texts, joinTexts others] = joinTexts (texts ++ others) := by
  obtain ⟨first, rest, rfl⟩ := List.exists_cons_of_ne_nil htexts
  apply joinTexts_congr
  · rw [List.cons_append, Bool.eq_iff_iff, isAbsolute_joinTexts_iff, isAbsolute_joinTexts_iff,
      isAbsolute_joinTexts_iff, joinTexts_cons_eq_nil_iff]
    have happend : rest ++ others ≠ [] := List.append_ne_nil_of_right_ne_nil rest hothers
    by_cases hrest : rest = []
    · simp [hrest, hothers]
    · simp [hrest]
  · rw [List.flatMap_cons, List.flatMap_singleton, solid_joinTexts, solid_joinTexts, List.flatMap_append]

theorem textsOfAll_groups (tokens more : List PathToken) :
    PathToken.textsOfAll [.group tokens, .group more] = PathToken.textsOfAll tokens ++ PathToken.textsOfAll more := by
  simp [PathToken.textsOfAll, PathToken.texts]

/-- **Joining may be done in parts.** The segments of a joined path are those of its texts, in order; a
joined path is joined once and for all; and what is joined in two groups may be joined in each of them first,
as long as there is a text in both. -/
theorem join_in_parts (tokens more : List PathToken) :
    segments (join tokens) = (PathToken.textsOfAll tokens).flatMap segments ∧
      join [.text (join tokens)] = join tokens ∧
      (PathToken.textsOfAll tokens ≠ [] → PathToken.textsOfAll more ≠ [] →
        join [.text (join tokens), .text (join more)] = join [.group tokens, .group more]) := by
  refine ⟨segments_joinTexts _, joinTexts_joinTexts _, fun htokens hmore => ?_⟩
  rw [join, join, join, join, textsOfAll_groups, ← joinTexts_append htokens hmore]
  rfl

/-- Empty texts, both separators and climbs, nested unevenly. -/
theorem join_in_parts_nested :
    let tokens := [PathToken.text [], .group [.text (Text.lit "a\\."), .group []]]
    let more := [PathToken.group [.group [.text (Text.lit "/b//")]], .text (Text.lit "..")]
    PathToken.textsOfAll tokens ≠ [] ∧ PathToken.textsOfAll more ≠ [] ∧
      segments (join tokens) = [Text.lit "a"] ∧ join [.text (join tokens)] = Text.lit "/a/." ∧
      join [.text (join tokens), .text (join more)] = Text.lit "/a/./b/.." := by
  intro tokens more
  have htokens : PathToken.textsOfAll tokens ≠ [] := by decide
  have hmore : PathToken.textsOfAll more ≠ [] := by decide
  obtain ⟨hsegments, hagain, hparts⟩ := join_in_parts tokens more
  exact ⟨htokens, hmore, hsegments.trans (by decide), hagain.trans (by decide),
    (hparts htokens hmore).trans (by decide)⟩

end Path

end Linework
