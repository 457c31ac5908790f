import Linework.Disk.HostPath
import Linework.Proofs.Path.Segments
import Linework.Proofs.Text.HostName

/-!
# Paths that the host reads as they are written

The absolute path of plain names without a NUL in them is in its collapsed form already, and the host
cuts it into just these names. It is no path to a directory by its form, and its parent is the path
of the names but the last.
-/

namespace Linework

namespace HostPath

/-- A piece of a path as it is looked up. -/
structure Shown (name : Text) : Prop where
  bare : ∀ c ∈ name, isSlash c = false
  listed : name.listed = name

theorem shown_of_mem_names {path name : Text} (h : name ∈ names path) : Shown name := by
  obtain ⟨piece, hpiece, rfl⟩ := List.mem_map.1 h
  refine ⟨fun c hc => ?_, Text.listed_listed piece⟩
  cases hslash : isSlash c with
  | false => rfl
  | true =>
    -- a slash would be one of the piece itself
    have heq : c = ('/' : CodePoint) := by simpa [isSlash] using hslash
    have hmem : c ∈ piece := Text.mem_of_mem_listed (by rw [heq]; decide) hc
    rw [← hslash]
    exact Text.sep_eq_false_of_mem_pieces hpiece c hmem

end HostPath

namespace Path

/-- A name that every storage takes. -/
structure Name (segment : Text) : Prop extends Plain segment where
  no_nul : ('\x00' : CodePoint) ∉ segment
  scalar : Text.Scalar segment

instance (segment : Text) : Decidable (Name segment) :=
  decidable_of_iff (Plain segment ∧ ('\x00' : CodePoint) ∉ segment ∧ Text.Scalar segment)
    ⟨fun h => ⟨h.1, h.2.1, h.2.2⟩, fun h => ⟨h.toPlain, h.no_nul, h.scalar⟩⟩

variable {route : List Text}

theorem isSlash_eq_false_of_bare {c : CodePoint} (h : isSeparator c = false) : HostPath.isSlash c = false := by
  simp only [isSeparator, Bool.or_eq_false_iff] at h
  exact h.1

theorem pieces_ofSegments (hne : route ≠ []) (h : ∀ s ∈ route, Plain s) :
    HostPath.pieces (ofSegments route) = [] :: route := by
  have hbody : Text.pieces HostPath.isSlash (ofPieces route) = route :=
    pieces_ofPieces (by decide) hne fun s hs c hc => isSlash_eq_false_of_bare ((h s hs).bare c hc)
  rw [HostPath.pieces, ofSegments]
  simp [Text.pieces, HostPath.isSlash] at hbody ⊢
  exact hbody

theorem names_ofSegments (hne : route ≠ []) (h : ∀ s ∈ route, Name s) :
    HostPath.names (ofSegments route) = [] :: route := by
  have hlisted : route.map Text.listed = route :=
    Text.map_listed fun s hs => Text.listed_of_scalar (h s hs).scalar
  rw [HostPath.names, pieces_ofSegments hne fun s hs => (h s hs).toPlain, List.map_cons, hlisted]
  rfl

theorem isSlash_head?_ofPieces (h : ∀ s ∈ route, Plain s) : ∀ c, (ofPieces route).head? = some c →
    HostPath.isSlash c = false := by
  intro c hc
  cases route with
  | nil => cases hc
  | cons first rest =>
    have hfirst := h first List.mem_cons_self
    obtain ⟨d, more, rfl⟩ := List.exists_cons_of_ne_nil hfirst.ne_nil
    have hd : d = c := by
      cases rest with
      | nil => simpa [ofPieces] using hc
      | cons next others => simpa [ofPieces_cons_cons] using hc
    subst hd
    exact isSlash_eq_false_of_bare (hfirst.bare d List.mem_cons_self)

theorem slashes_ofSegments (h : ∀ s ∈ route, Plain s) : HostPath.slashes (ofSegments route) = (['/'] : Text) := by
  have hrun : (ofSegments route).takeWhile HostPath.isSlash = (['/'] : Text) := by
    rw [ofSegments, List.takeWhile_cons_of_pos (by decide)]
    cases hbody : ofPieces route with
    | nil => rfl
    | cons c rest =>
      have hc := isSlash_head?_ofPieces h c (by rw [hbody]; rfl)
      rw [List.takeWhile_cons_of_neg (by simp [hc])]
  rw [HostPath.slashes, hrun]
  rfl

theorem ofText_ofSegments (h : ∀ s ∈ route, Plain s) :
    HostPath.ofText (ofSegments route) = ⟨['/'], route⟩ := by
  rw [HostPath.ofText, slashes_ofSegments h]
  congr 1
  by_cases hne : route = []
  · subst hne
    rfl
  · rw [pieces_ofSegments hne h, List.filter_cons_of_neg (by simp)]
    exact List.filter_eq_self.2 fun s hs => by simp [(h s hs).ne_nil, (h s hs).ne_dot]

theorem text_hostPath (route : List Text) : (HostPath.mk ['/'] route).text = ofSegments route := by
  simp [HostPath.text, ofSegments, ofPieces]

theorem collapse_ofSegments (h : ∀ s ∈ route, Plain s) :
    HostPath.collapse (ofSegments route) = ofSegments route := by
  rw [HostPath.collapse, ofText_ofSegments h, text_hostPath]

theorem parent_ofSegments (h : ∀ s ∈ route, Plain s) :
    parent (ofSegments route) = ofSegments route.dropLast := by
  rw [parent, solid_ofSegments h]
  rfl

theorem mem_ofPieces {c : CodePoint} (h : c ∈ ofPieces route) : c = '/' ∨ ∃ s ∈ route, c ∈ s := by
  induction route with
  | nil => cases h
  | cons first rest ih =>
    cases rest with
    | nil => exact .inr ⟨first, List.mem_cons_self, by simpa [ofPieces] using h⟩
    | cons next more =>
      rw [ofPieces_cons_cons] at h
      rcases List.mem_append.1 h with h | h
      · exact .inr ⟨first, List.mem_cons_self, h⟩
      · rcases List.mem_cons.1 h with h | h
        · exact .inl h
        · rcases ih h with h | ⟨s, hs, hc⟩
          · exact .inl h
          · exact .inr ⟨s, List.mem_cons_of_mem _ hs, hc⟩

theorem surrogateFault?_eq_none {path : Text} (h : Text.Scalar path) (pos : Nat) :
    HostPath.surrogateFault? pos path = none := by
  induction path generalizing pos with
  | nil => rfl
  | cons c rest ih =>
    rw [HostPath.surrogateFault?, h c List.mem_cons_self]
    exact ih (fun d hd => h d (List.mem_cons_of_mem _ hd)) (pos + 1)

theorem mem_ofSegments {c : CodePoint} (h : c ∈ ofSegments route) : c = '/' ∨ ∃ s ∈ route, c ∈ s := by
  rcases List.mem_cons.1 h with h | h
  · exact .inl h
  · exact mem_ofPieces h

theorem takes_ofSegments (h : ∀ s ∈ route, Name s) : HostPath.Takes (ofSegments route) := by
  have hscalar : Text.Scalar (ofSegments route) := by
    intro c hc
    rcases mem_ofSegments hc with rfl | ⟨s, hs, hc⟩
    · rfl
    · exact (h s hs).scalar c hc
  have hnul : ('\x00' : CodePoint) ∉ ofSegments route := by
    intro hc
    rcases mem_ofSegments hc with hc | ⟨s, hs, hc⟩
    · cases hc
    · exact (h s hs).no_nul hc
  rw [HostPath.Takes, HostPath.fault?, surrogateFault?_eq_none hscalar]
  exact if_neg hnul

theorem ofPieces_concat {front : List Text} {last : Text} (hne : front ≠ []) :
    ofPieces (front ++ [last]) = ofPieces front ++ ('/' : CodePoint) :: last := by
  induction front with
  | nil => exact absurd rfl hne
  | cons first rest ih =>
    cases rest with
    | nil => simp [ofPieces]
    | cons next more =>
      rw [List.cons_append, List.cons_append, ofPieces_cons_cons, ← List.cons_append, ih (by simp),
        ofPieces_cons_cons, List.append_assoc, List.cons_append]

/-- A path of names does not end in a slash. -/
theorem dropEndWhile_ofSegments (hne : route ≠ []) (h : ∀ s ∈ route, Plain s) :
    Text.dropEndWhile HostPath.isSlash (ofSegments route) = ofSegments route := by
  obtain ⟨front, last, rfl⟩ : ∃ front last, route = front ++ [last] :=
    ⟨_, _, (List.dropLast_concat_getLast hne).symm⟩
  have hlast := h last (by simp)
  obtain ⟨body, c, rfl⟩ : ∃ body c, last = body ++ [c] :=
    ⟨_, _, (List.dropLast_concat_getLast hlast.ne_nil).symm⟩
  have hc := isSlash_eq_false_of_bare (hlast.bare c (by simp))
  obtain ⟨start, hstart⟩ : ∃ start, ofSegments (front ++ [body ++ [c]]) = start ++ [c] := by
    by_cases hfront : front = []
    · subst hfront
      exact ⟨'/' :: body, by simp [ofSegments, ofPieces]⟩
    · exact ⟨'/' :: (ofPieces front ++ ('/' : CodePoint) :: body), by simp [ofSegments, ofPieces_concat hfront]⟩
  rw [hstart, Text.dropEndWhile, List.reverse_concat, List.dropWhile_cons_of_neg (by simp [hc]),
    List.reverse_cons, List.reverse_reverse]

end Path

end Linework
