import Linework.Path

/-!
# Segments of written paths

Cutting a path into segments undoes writing it from segments. A piece without a separator in it
comes back whole from `split`, so joining concatenates segments (`segments_joinTexts`) and
normalizing resolves them (`segments_normalize`). Where nothing climbs there is nothing to resolve
(`resolve_of_up_notMem`).
-/

namespace Linework

/-- Pieces are cut at every separator. -/
theorem Text.sep_eq_false_of_mem_pieces {sep : CodePoint → Bool} {t piece : Text} (h : piece ∈ pieces sep t) :
    ∀ c ∈ piece, sep c = false := by
  induction t generalizing piece with
  | nil =>
    rw [List.mem_singleton.1 h]
    nofun
  | cons c rest ih =>
    rw [pieces] at h
    split at h
    · rcases List.mem_cons.1 h with rfl | h
      · nofun
      · exact ih h
    · rename_i hc
      have hcf : sep c = false := by simpa using hc
      split at h
      · rw [List.mem_singleton.1 h]
        simpa using hcf
      · rename_i front more hpieces
        rcases List.mem_cons.1 h with rfl | h
        · intro d hd
          rcases List.mem_cons.1 hd with rfl | hd
          · exact hcf
          · exact ih (by rw [hpieces]; exact List.mem_cons_self) d hd
        · exact ih (by rw [hpieces]; exact List.mem_cons_of_mem _ h)

namespace Path

/-- A piece with no separator in it. -/
def Bare (piece : Text) : Prop := ∀ c ∈ piece, isSeparator c = false

/-- A segment that can name an entry. -/
structure Plain (segment : Text) : Prop where
  ne_nil : segment ≠ []
  ne_dot : segment ≠ (['.'] : Text)
  ne_up : segment ≠ up
  bare : Bare segment

instance (piece : Text) : Decidable (Bare piece) := List.decidableBAll _ piece

instance (segment : Text) : Decidable (Plain segment) :=
  decidable_of_iff (segment ≠ [] ∧ segment ≠ (['.'] : Text) ∧ segment ≠ up ∧ Bare segment)
    ⟨fun ⟨hnil, hdot, hup, hbare⟩ => ⟨hnil, hdot, hup, hbare⟩, fun h => ⟨h.ne_nil, h.ne_dot, h.ne_up, h.bare⟩⟩

theorem bare_of_mem_split {path piece : Text} (h : piece ∈ split path) : Bare piece :=
  Text.sep_eq_false_of_mem_pieces h

theorem bare_of_mem_segments {path segment : Text} (h : segment ∈ segments path) : Bare segment := by
  simp only [segments, solid, List.mem_filter] at h
  exact bare_of_mem_split h.1.1

theorem split_slash (path : Text) : split ('/' :: path) = [] :: split path := by
  simp [split, Text.pieces, isSeparator]

theorem segments_slash (path : Text) : segments ('/' :: path) = segments path := by
  simp [segments, solid, split_slash]

theorem ofPieces_cons_cons (piece next : Text) (more : List Text) :
    ofPieces (piece :: next :: more) = piece ++ ('/' : CodePoint) :: ofPieces (next :: more) := by
  simp [ofPieces]

/-- Pieces with a separator between each two are cut into these pieces again. -/
theorem pieces_ofPieces {sep : CodePoint → Bool} (hsep : sep '/' = true) {pieces : List Text} (hne : pieces ≠ [])
    (hfree : ∀ piece ∈ pieces, ∀ c ∈ piece, sep c = false) : Text.pieces sep (ofPieces pieces) = pieces := by
  induction pieces with
  | nil => exact absurd rfl hne
  | cons piece rest ih =>
    have hpiece : Text.pieces sep piece = [piece] := Text.pieces_of_none (hfree piece List.mem_cons_self)
    cases rest with
    | nil => simpa [ofPieces] using hpiece
    | cons next more =>
      have hrest := ih (by simp) fun p hp => hfree p (List.mem_cons_of_mem _ hp)
      rw [ofPieces_cons_cons, Text.pieces_append_cons hsep, hpiece, hrest]
      rfl

theorem split_ofPieces {pieces : List Text} (hne : pieces ≠ []) (hbare : ∀ piece ∈ pieces, Bare piece) :
    split (ofPieces pieces) = pieces :=
  pieces_ofPieces (by decide) hne hbare

theorem solid_ofPieces {pieces : List Text} (hbare : ∀ piece ∈ pieces, Bare piece) :
    solid (ofPieces pieces) = pieces.filter (· ≠ []) := by
  cases pieces with
  | nil => rfl
  | cons piece rest => rw [solid, split_ofPieces (by simp) hbare]

theorem segments_ofPieces {pieces : List Text} (hbare : ∀ piece ∈ pieces, Bare piece) :
    segments (ofPieces pieces) = (pieces.filter (· ≠ [])).filter (· ≠ (['.'] : Text)) := by
  rw [segments, solid_ofPieces hbare]

/-- Pieces that are segments already come back as they are. -/
theorem segments_ofPieces_of_segments {segs : List Text}
    (h : ∀ s ∈ segs, Bare s ∧ s ≠ [] ∧ s ≠ (['.'] : Text)) : segments (ofPieces segs) = segs := by
  rw [segments_ofPieces fun s hs => (h s hs).1, List.filter_filter]
  refine List.filter_eq_self.2 fun s hs => ?_
  simp [(h s hs).2.1, (h s hs).2.2]

theorem segments_ofSegments {segs : List Text} (h : ∀ s ∈ segs, Bare s ∧ s ≠ [] ∧ s ≠ (['.'] : Text)) :
    segments (ofSegments segs) = segs := by
  rw [ofSegments, segments_slash, segments_ofPieces_of_segments h]

theorem up_notMem_of_plain {segs : List Text} (h : ∀ s ∈ segs, Plain s) : up ∉ segs :=
  fun hmem => (h up hmem).ne_up rfl

/-- An absolute path that is written from plain segments has these segments. -/
theorem segments_ofSegments_of_plain {segs : List Text} (h : ∀ s ∈ segs, Plain s) :
    segments (ofSegments segs) = segs :=
  segments_ofSegments fun s hs => ⟨(h s hs).bare, (h s hs).ne_nil, (h s hs).ne_dot⟩

theorem solid_ofSegments {segs : List Text} (h : ∀ s ∈ segs, Plain s) : solid (ofSegments segs) = segs := by
  have hslash : solid (ofSegments segs) = solid (ofPieces segs) := by
    simp [solid, ofSegments, split_slash]
  rw [hslash, solid_ofPieces fun s hs => (h s hs).bare]
  exact List.filter_eq_self.2 fun s hs => by simp [(h s hs).ne_nil]

/-! ## Joining -/

theorem segments_joinTexts (texts : List Text) :
    segments (joinTexts texts) = texts.flatMap segments := by
  have hbare : ∀ piece ∈ (texts.flatMap split).filter (· ≠ []), Bare piece := by
    intro piece hpiece
    obtain ⟨path, _, hmem⟩ := List.mem_flatMap.1 (List.mem_filter.1 hpiece).1
    exact bare_of_mem_split hmem
  have hbody : segments (ofPieces ((texts.flatMap split).filter (· ≠ []))) = texts.flatMap segments := by
    rw [segments_ofPieces hbare, List.filter_flatMap, List.filter_flatMap, List.filter_flatMap]
    simp only [List.filter_filter, Bool.and_self]
    simp only [← List.filter_filter]
    rfl
  unfold joinTexts
  dsimp only
  split
  · rw [segments_slash, hbody]
  · exact hbody

theorem isAbsolute_joinTexts_ofSegments (segs : List Text) (texts : List Text) :
    isAbsolute (joinTexts (ofSegments segs :: texts)) = true := by
  have hlen : 0 < (split (ofPieces segs)).length :=
    List.length_pos_iff.2 (Text.pieces_ne_nil _ _)
  unfold joinTexts
  dsimp only
  rw [if_pos]
  · rfl
  · simp only [List.flatMap_cons, ofSegments, split_slash, List.cons_append, List.head?_cons,
      List.length_cons, List.length_append]
    exact ⟨trivial, by omega⟩

/-! ## Resolving -/

theorem mem_push {absolute : Bool} {resolved : List Text} {next segment : Text}
    (h : segment ∈ push absolute resolved next) : segment ∈ resolved ∨ segment = next ∨ segment = up := by
  unfold push at h
  split at h
  · rcases List.mem_cons.1 h with h | h
    · exact .inr (.inl h)
    · exact .inl h
  · split at h
    · rename_i top rest
      split at h
      · exact .inl (List.mem_cons_of_mem _ h)
      · split at h
        · exact .inl h
        · rcases List.mem_cons.1 h with h | h
          · exact .inr (.inr h)
          · exact .inl h
    · split at h
      · cases h
      · exact .inr (.inr (List.mem_singleton.1 h))

theorem mem_foldl_push {absolute : Bool} {segment : Text} (segs : List Text) :
    ∀ resolved, segment ∈ segs.foldl (push absolute) resolved →
      segment ∈ resolved ∨ segment ∈ segs ∨ segment = up := by
  induction segs with
  | nil => exact fun _ h => .inl h
  | cons next rest ih =>
    intro resolved h
    rcases ih _ h with h | h | h
    · rcases mem_push h with h | h | h
      · exact .inl h
      · exact .inr (.inl (h ▸ List.mem_cons_self))
      · exact .inr (.inr h)
    · exact .inr (.inl (List.mem_cons_of_mem _ h))
    · exact .inr (.inr h)

theorem mem_resolve {absolute : Bool} {segs : List Text} {segment : Text}
    (h : segment ∈ resolve absolute segs) : segment ∈ segs ∨ segment = up := by
  have := mem_foldl_push segs [] (List.mem_reverse.1 h)
  simpa using this

theorem foldl_push_of_up_notMem {absolute : Bool} (segs : List Text) (h : up ∉ segs) :
    ∀ resolved, segs.foldl (push absolute) resolved = segs.reverse ++ resolved := by
  induction segs with
  | nil => simp
  | cons next rest ih =>
    intro resolved
    have hup := List.ne_and_not_mem_of_not_mem_cons h
    have hpush : push absolute resolved next = next :: resolved := by
      unfold push
      rw [if_pos (Ne.symm hup.1)]
    rw [List.foldl_cons, hpush, ih hup.2]
    simp

theorem resolve_of_up_notMem {absolute : Bool} {segs : List Text} (h : up ∉ segs) :
    resolve absolute segs = segs := by
  simp [resolve, foldl_push_of_up_notMem segs h]

theorem segments_normalize (path : Text) :
    segments (normalize path) = resolve (isAbsolute path) (segments path) := by
  have hsegs : ∀ s ∈ resolve (isAbsolute path) (segments path), Bare s ∧ s ≠ [] ∧ s ≠ (['.'] : Text) := by
    intro s hs
    rcases mem_resolve hs with h | rfl
    · exact ⟨bare_of_mem_segments h, mem_segments h⟩
    · refine ⟨?_, by decide, by decide⟩
      simp [Bare, up, isSeparator]
  unfold normalize
  dsimp only
  split
  · exact segments_ofSegments hsegs
  · split
    · rename_i hnil
      rw [hnil]
      rfl
    · exact segments_ofPieces_of_segments hsegs

/-- A path is already normal if its segments are plain. -/
theorem normalize_ofSegments {segs : List Text} (h : ∀ s ∈ segs, Plain s) :
    normalize (ofSegments segs) = ofSegments segs := by
  unfold normalize
  rw [isAbsolute_ofSegments, if_pos rfl, segments_ofSegments_of_plain h, resolve_of_up_notMem (up_notMem_of_plain h)]

/-- A normal absolute path is written from its segments. -/
theorem ofSegments_segments_normalize {path : Text} (habs : isAbsolute path = true) :
    ofSegments (segments (normalize path)) = normalize path := by
  rw [segments_normalize, habs, normalize, if_pos habs, habs]

/-- An absolute path normalizes to plain segments. -/
theorem plain_of_mem_segments_normalize {path segment : Text} (habs : isAbsolute path = true)
    (h : segment ∈ segments (normalize path)) : Plain segment where
  ne_nil := (mem_segments h).1
  ne_dot := (mem_segments h).2
  ne_up := by
    rintro rfl
    rw [segments_normalize, habs] at h
    exact up_notMem_resolve _ h
  bare := bare_of_mem_segments h

end Path

end Linework
