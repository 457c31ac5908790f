import Linework.Proofs.Path.Segments
import Mathlib.Data.List.Forall2

/-!
# Normal paths

Resolving leaves climbs in front at most, and none where the path is absolute (`settled_resolve`); what
is left is not resolved any further (`resolve_of_settled`). So segments may be resolved in parts, the
front first (`resolve_resolve_append`). A path is normalized by its segments and by whether it is
absolute (`normalize_congr`), so normalizing is done once and for all, goes with joining, and does not
ask which separator a path is written with (`normalize_canonical`).
-/

namespace Linework

namespace Path

variable {absolute : Bool} {segs stack : List Text} {path other : Text}

/-! ## Resolved segments -/

/-- Climbs in front at most, and none where there is a root. -/
def Settled (absolute : Bool) (segs : List Text) : Prop :=
  ∃ climbs names, segs = List.replicate climbs up ++ names ∧ up ∉ names ∧ (absolute = true → climbs = 0)

theorem push_of_ne_up {segment : Text} (h : segment ≠ up) : push absolute stack segment = segment :: stack := by
  unfold push
  rw [if_pos h]

/-- A name is undone by the climb behind it. -/
theorem push_up_of_ne_up {top : Text} (h : top ≠ up) : push absolute (top :: stack) up = stack := by
  simp [push, h]

/-- Climbs add up, unless there is a root. -/
theorem push_up_replicate (climbs : Nat) :
    push false (List.replicate climbs up) up = List.replicate (climbs + 1) up := by
  cases climbs <;> simp [push, List.replicate_succ]

theorem settled_push (h : Settled absolute stack.reverse) (segment : Text) :
    Settled absolute (push absolute stack segment).reverse := by
  obtain ⟨climbs, names, hsegs, hnames, hroot⟩ := h
  by_cases hup : segment = up
  · subst hup
    rcases List.eq_nil_or_concat names with rfl | ⟨front, top, rfl⟩
    · have hstack : stack = List.replicate climbs up := by
        simpa using congrArg List.reverse hsegs
      cases absolute with
      | true =>
        obtain rfl := hroot rfl
        rw [hstack]
        exact ⟨0, [], rfl, hnames, hroot⟩
      | false =>
        rw [hstack, push_up_replicate, List.reverse_replicate]
        exact ⟨climbs + 1, [], (List.append_nil _).symm, hnames, nofun⟩
    · have hstack : stack = top :: (List.replicate climbs up ++ front).reverse := by
        simpa using congrArg List.reverse hsegs
      have htop : top ≠ up := fun h => hnames (by simp [h])
      rw [hstack, push_up_of_ne_up htop, List.reverse_reverse]
      exact ⟨climbs, front, rfl, fun h => hnames (by simp [h]), hroot⟩
  · rw [push_of_ne_up hup, List.reverse_cons, hsegs, List.append_assoc]
    exact ⟨climbs, names ++ [segment], rfl, by simp [hnames, Ne.symm hup], hroot⟩

theorem settled_foldl_push (segs : List Text) :
    ∀ stack, Settled absolute stack.reverse → Settled absolute (segs.foldl (push absolute) stack).reverse := by
  induction segs with
  | nil => exact fun _ h => h
  | cons segment rest ih => exact fun stack h => ih _ (settled_push h segment)

theorem settled_resolve (absolute : Bool) (segs : List Text) : Settled absolute (resolve absolute segs) :=
  settled_foldl_push segs [] ⟨0, [], rfl, by simp, fun _ => rfl⟩

theorem foldl_push_replicate_up (climbs : Nat) :
    (List.replicate climbs up).foldl (push false) [] = List.replicate climbs up := by
  induction climbs with
  | zero => rfl
  | succ climbs ih =>
    rw [List.replicate_succ', List.foldl_append, ih, List.foldl_cons, List.foldl_nil, push_up_replicate,
      List.replicate_succ']

theorem resolve_of_settled (h : Settled absolute segs) : resolve absolute segs = segs := by
  obtain ⟨climbs, names, rfl, hnames, hroot⟩ := h
  have hclimbs : (List.replicate climbs up).foldl (push absolute) [] = List.replicate climbs up := by
    cases absolute with
    | true => rw [hroot rfl]; rfl
    | false => exact foldl_push_replicate_up climbs
  rw [resolve, List.foldl_append, hclimbs, foldl_push_of_up_notMem names hnames]
  simp

/-- The front of the segments may be resolved beforehand. -/
theorem resolve_resolve_append (absolute : Bool) (front back : List Text) :
    resolve absolute (resolve absolute front ++ back) = resolve absolute (front ++ back) := by
  have hfront : (resolve absolute front).foldl (push absolute) [] = front.foldl (push absolute) [] := by
    simpa [resolve] using congrArg List.reverse (resolve_of_settled (settled_resolve absolute front))
  unfold resolve at hfront ⊢
  rw [List.foldl_append, List.foldl_append, hfront]

theorem resolve_resolve (absolute : Bool) (segs : List Text) :
    resolve absolute (resolve absolute segs) = resolve absolute segs :=
  resolve_of_settled (settled_resolve absolute segs)

/-- At the root a climb takes the last segment away, if there is one. -/
theorem resolve_concat_up (segs : List Text) : resolve true (segs ++ [up]) = (resolve true segs).dropLast := by
  have hnone : up ∉ segs.foldl (push true) [] := up_notMem_foldl_push segs [] List.not_mem_nil
  unfold resolve
  rw [List.foldl_append, List.foldl_cons, List.foldl_nil, List.dropLast_reverse]
  cases hstack : segs.foldl (push true) [] with
  | nil => rfl
  | cons top rest =>
    rw [hstack] at hnone
    rw [push_up_of_ne_up (Ne.symm (List.ne_and_not_mem_of_not_mem_cons hnone).1), List.tail_cons]

/-! ## Where paths start -/

theorem isAbsolute_ofPieces {pieces : List Text} (h : ∀ piece ∈ pieces, Bare piece ∧ piece ≠ []) :
    isAbsolute (ofPieces pieces) = false := by
  cases pieces with
  | nil => rfl
  | cons first rest =>
    obtain ⟨hbare, hne⟩ := h first List.mem_cons_self
    obtain ⟨c, more, rfl⟩ := List.exists_cons_of_ne_nil hne
    have hc := hbare c List.mem_cons_self
    cases rest with
    | nil => simpa [isAbsolute, ofPieces] using hc
    | cons next others => simpa [isAbsolute, ofPieces_cons_cons] using hc

theorem bare_up : Bare up := by decide

theorem resolved_of_mem_resolve {segment : Text} (h : segment ∈ resolve absolute (segments path)) :
    Bare segment ∧ segment ≠ [] := by
  rcases mem_resolve h with h | rfl
  · exact ⟨bare_of_mem_segments h, (mem_segments h).1⟩
  · exact ⟨bare_up, by decide⟩

/-- How pieces are written as a path. -/
def written (absolute : Bool) (pieces : List Text) : Text :=
  if absolute then ofSegments pieces else if pieces = [] then ['.'] else ofPieces pieces

theorem normalize_eq_written (path : Text) :
    normalize path = written (isAbsolute path) (resolve (isAbsolute path) (segments path)) := rfl

theorem parent_eq_written (path : Text) : parent path = written (isAbsolute path) (solid path).dropLast := rfl

theorem isAbsolute_written {pieces : List Text} (h : ∀ piece ∈ pieces, Bare piece ∧ piece ≠ []) :
    isAbsolute (written absolute pieces) = absolute := by
  unfold written
  cases absolute with
  | true => rw [if_pos rfl, isAbsolute_ofSegments]
  | false =>
    rw [if_neg (by simp)]
    split
    · rfl
    · exact isAbsolute_ofPieces h

theorem written_ne_nil {pieces : List Text} (h : ∀ piece ∈ pieces, Bare piece ∧ piece ≠ []) :
    written absolute pieces ≠ [] := by
  unfold written
  split
  · exact List.cons_ne_nil _ _
  · split
    · exact List.cons_ne_nil _ _
    · rename_i hne
      intro hnil
      obtain ⟨first, rest, rfl⟩ := List.exists_cons_of_ne_nil hne
      have hfirst := (h first List.mem_cons_self).2
      cases rest with
      | nil => exact hfirst (by simpa [ofPieces] using hnil)
      | cons next more => simp [ofPieces_cons_cons] at hnil

theorem segments_written {pieces : List Text} (h : ∀ piece ∈ pieces, Bare piece ∧ piece ≠ []) :
    segments (written absolute pieces) = pieces.filter (· ≠ (['.'] : Text)) := by
  have hpieces : segments (ofPieces pieces) = pieces.filter (· ≠ (['.'] : Text)) := by
    have hsolid : pieces.filter (· ≠ []) = pieces :=
      List.filter_eq_self.2 fun piece hpiece => by simp [(h piece hpiece).2]
    rw [segments_ofPieces fun piece hpiece => (h piece hpiece).1, hsolid]
  unfold written
  split
  · rw [ofSegments, segments_slash, hpieces]
  · split
    · rename_i hnil
      rw [hnil]
      rfl
    · exact hpieces

theorem isAbsolute_normalize (path : Text) : isAbsolute (normalize path) = isAbsolute path :=
  isAbsolute_written fun _ => resolved_of_mem_resolve

theorem normalize_ne_nil (path : Text) : normalize path ≠ [] := written_ne_nil fun _ => resolved_of_mem_resolve

/-- The first piece is empty and not alone just where a path starts with a separator. -/
theorem split_of_isAbsolute (h : isAbsolute path = true) : ∃ rest, split path = [] :: split rest := by
  cases path with
  | nil => cases h
  | cons c rest =>
    have hc : isSeparator c = true := h
    exact ⟨rest, by rw [split, Text.pieces, if_pos hc, split]⟩

theorem head?_split_ne (hne : path ≠ []) (h : isAbsolute path = false) : (split path).head? ≠ some [] := by
  obtain ⟨c, rest, rfl⟩ := List.exists_cons_of_ne_nil hne
  have hc : isSeparator c = false := by simpa [isAbsolute] using h
  simp only [split, Text.pieces, hc]
  cases hrest : Text.pieces isSeparator rest <;> simp

/-- A joined path starts as its first text does. -/
theorem isAbsolute_joinTexts_cons (hne : path ≠ []) (texts : List Text) :
    isAbsolute (joinTexts (path :: texts)) = isAbsolute path := by
  have hbody : isAbsolute (ofPieces (((path :: texts).flatMap split).filter (· ≠ []))) = false := by
    refine isAbsolute_ofPieces fun piece hpiece => ?_
    obtain ⟨hmem, hsolid⟩ := List.mem_filter.1 hpiece
    obtain ⟨text, -, hsplit⟩ := List.mem_flatMap.1 hmem
    exact ⟨bare_of_mem_split hsplit, by simpa using hsolid⟩
  obtain ⟨first, more, hsplit⟩ := List.exists_cons_of_ne_nil (Text.pieces_ne_nil isSeparator path)
  unfold joinTexts
  dsimp only
  cases habs : isAbsolute path with
  | true =>
    obtain ⟨rest, hrest⟩ := split_of_isAbsolute habs
    have hlength : 0 < (split rest).length := List.length_pos_iff.2 (Text.pieces_ne_nil _ _)
    rw [if_pos]
    · rfl
    · rw [List.flatMap_cons, hrest]
      exact ⟨rfl, by simp only [List.cons_append, List.length_cons, List.length_append]; omega⟩
  | false =>
    rw [if_neg, hbody]
    rintro ⟨hhead, -⟩
    refine head?_split_ne hne habs ?_
    rw [List.flatMap_cons, split, hsplit] at hhead
    rw [split, hsplit]
    exact hhead

/-! ## Normalizing -/

theorem normalize_congr (habs : isAbsolute path = isAbsolute other)
    (hsegs : resolve (isAbsolute path) (segments path) = resolve (isAbsolute path) (segments other)) :
    normalize path = normalize other := by
  rw [normalize_eq_written, normalize_eq_written, ← habs, hsegs]

theorem normalize_normalize (path : Text) : normalize (normalize path) = normalize path := by
  refine normalize_congr (isAbsolute_normalize path) ?_
  rw [segments_normalize, isAbsolute_normalize, resolve_resolve]

/-- A directory may be normalized before a path is joined to it. -/
theorem normalize_joinTexts {dir : Text} (hne : dir ≠ []) (path : Text) :
    normalize (joinTexts [dir, path]) = normalize (joinTexts [normalize dir, path]) := by
  have habs : isAbsolute (joinTexts [dir, path]) = isAbsolute dir := isAbsolute_joinTexts_cons hne _
  have habs' : isAbsolute (joinTexts [normalize dir, path]) = isAbsolute dir :=
    (isAbsolute_joinTexts_cons (normalize_ne_nil dir) _).trans (isAbsolute_normalize dir)
  refine normalize_congr (habs.trans habs'.symm) ?_
  simp only [habs, segments_joinTexts, List.flatMap_cons, List.flatMap_nil, List.append_nil, segments_normalize,
    resolve_resolve_append]

/-! ## Parents -/

theorem bare_of_mem_solid {piece : Text} (h : piece ∈ solid path) : Bare piece ∧ piece ≠ [] := by
  obtain ⟨hsplit, hne⟩ := List.mem_filter.1 h
  exact ⟨bare_of_mem_split hsplit, by simpa using hne⟩

theorem bare_of_mem_parents {piece : Text} (h : piece ∈ (solid path).dropLast) : Bare piece ∧ piece ≠ [] :=
  bare_of_mem_solid (List.dropLast_subset _ h)

theorem isAbsolute_parent (path : Text) : isAbsolute (parent path) = isAbsolute path :=
  isAbsolute_written fun _ => bare_of_mem_parents

theorem parent_ne_nil (path : Text) : parent path ≠ [] := written_ne_nil fun _ => bare_of_mem_parents

theorem segments_parent (path : Text) : segments (parent path) = (solid path).dropLast.filter (· ≠ (['.'] : Text)) :=
  segments_written fun _ => bare_of_mem_parents

theorem solid_of_mem_solid {piece : Text} (h : piece ∈ solid path) : solid piece = [piece] := by
  obtain ⟨hbare, hne⟩ := bare_of_mem_solid h
  rw [solid, split, Text.pieces_of_none hbare]
  exact List.filter_eq_self.2 (by simpa using hne)

/-- A piece is a segment of its own, unless it is a dot. -/
theorem segments_of_mem_solid {piece : Text} (h : piece ∈ solid path) :
    segments piece = if piece = (['.'] : Text) then [] else [piece] := by
  rw [segments, solid_of_mem_solid h]
  by_cases hdot : piece = (['.'] : Text) <;> simp [hdot]

theorem up_notMem_segments_of_ne {piece : Text} (h : piece ∈ solid path) (hup : piece ≠ up) : up ∉ segments piece := by
  rw [segments_of_mem_solid h]
  split
  · exact List.not_mem_nil
  · exact fun hmem => hup (List.mem_singleton.1 hmem).symm

/-- The segments of a path are those of its parent, and its last piece if that is one. -/
theorem segments_parent_append {last : Text} (hlast : (solid path).getLast? = some last) :
    segments (parent path) ++ segments last = segments path := by
  have hsplit : (solid path).dropLast ++ [last] = solid path := List.dropLast_append_getLast? last hlast
  rw [segments_parent, segments, solid_of_mem_solid (List.mem_of_getLast? hlast), ← List.filter_append, hsplit,
    segments]

/-- A path leads from its parent by its last piece. -/
theorem normalize_joinTexts_parent {last : Text} (hlast : (solid path).getLast? = some last) :
    normalize (joinTexts [parent path, last]) = normalize path := by
  refine normalize_congr ((isAbsolute_joinTexts_cons (parent_ne_nil path) _).trans (isAbsolute_parent path)) ?_
  congr 1
  rw [segments_joinTexts, List.flatMap_cons, List.flatMap_singleton, segments_parent_append hlast]

/-! ## Spelling -/

/-- The same path with some of its separators written otherwise. -/
def Respelled (path other : Text) : Prop :=
  List.Forall₂ (fun c d => c = d ∨ isSeparator c = true ∧ isSeparator d = true) path other

theorem Respelled.split_eq (h : Respelled path other) : split path = split other := by
  unfold split
  induction h with
  | nil => rfl
  | cons hhead _ ih =>
    rcases hhead with rfl | ⟨hc, hd⟩
    · rw [Text.pieces, Text.pieces, ih]
    · rw [Text.pieces, Text.pieces, if_pos hc, if_pos hd, ih]

theorem Respelled.isAbsolute_eq (h : Respelled path other) : isAbsolute path = isAbsolute other := by
  cases h with
  | nil => rfl
  | cons hhead _ =>
    rcases hhead with rfl | ⟨hc, hd⟩
    · rfl
    · simp [isAbsolute, hc, hd]

theorem Respelled.solid_eq (h : Respelled path other) : solid path = solid other := by
  rw [solid, solid, h.split_eq]

theorem Respelled.normalize_eq (h : Respelled path other) : normalize path = normalize other :=
  normalize_congr h.isAbsolute_eq (by rw [segments, segments, h.solid_eq])

theorem Respelled.parent_eq (h : Respelled path other) : parent path = parent other := by
  rw [parent_eq_written, parent_eq_written, h.solid_eq, h.isAbsolute_eq]

theorem Respelled.joinTexts_eq (h : Respelled path other) (dir : Text) :
    joinTexts [dir, path] = joinTexts [dir, other] := by
  simp only [joinTexts, List.flatMap_cons, h.split_eq]

/-- **A path is normalized once and for all, and in parts.** What is normal stays as it is, starts where the
path does, and climbs only in front. A directory may be normalized before it is joined to, and a path leads
from its parent by its last piece. Which of the two separators is written makes no difference. -/
theorem normalize_canonical (path : Text) :
    normalize (normalize path) = normalize path ∧
      isAbsolute (normalize path) = isAbsolute path ∧
      Settled (isAbsolute path) (segments (normalize path)) ∧
      (∀ dir, dir ≠ [] →
        normalize (join [.text dir, .text path]) = normalize (join [.text (normalize dir), .text path])) ∧
      (∀ last, (solid path).getLast? = some last →
        normalize (join [.text (parent path), .text last]) = normalize path) ∧
      ∀ other, Respelled path other →
        normalize path = normalize other ∧ isAbsolute path = isAbsolute other ∧ parent path = parent other ∧
          solid path = solid other ∧ ∀ dir, join [.text dir, .text path] = join [.text dir, .text other] := by
  refine ⟨normalize_normalize path, isAbsolute_normalize path, ?_, ?_, ?_, ?_⟩
  · rw [segments_normalize]
    exact settled_resolve _ _
  · exact fun dir hne => normalize_joinTexts hne path
  · exact fun last hlast => normalize_joinTexts_parent hlast
  · intro other h
    exact ⟨h.normalize_eq, h.isAbsolute_eq, h.parent_eq, h.solid_eq, h.joinTexts_eq⟩

/-- A relative path that climbs out, and the same path written with both separators. -/
theorem normalize_canonical_climbing :
    Text.lit "a/.." ≠ [] ∧ (solid (Text.lit "../b/../..//c/.")).getLast? = some (['.'] : Text) ∧
      Respelled (Text.lit "../b/../..//c/.") (Text.lit "..\\b/..\\../\\c/.") ∧
      normalize (join [.text (Text.lit "a/.."), .text (Text.lit "../b/../..//c/.")]) =
        normalize (join [.text ['.'], .text (Text.lit "../b/../..//c/.")]) ∧
      normalize (join [.text (parent (Text.lit "../b/../..//c/.")), .text ['.']]) = Text.lit "../../c" ∧
      normalize (Text.lit "..\\b/..\\../\\c/.") = Text.lit "../../c" := by
  obtain ⟨-, -, -, hjoin, hparent, hspelling⟩ := normalize_canonical (Text.lit "../b/../..//c/.")
  have hrespelled : Respelled (Text.lit "../b/../..//c/.") (Text.lit "..\\b/..\\../\\c/.") := by
    unfold Respelled
    decide
  exact ⟨by decide, by decide, hrespelled, hjoin _ (by decide), (hparent _ (by decide)).trans (by decide),
    (hspelling _ hrespelled).1.symm.trans (by decide)⟩

end Path

end Linework
