import Linework.Text.Basic

/-!
# Paths

A path is a text cut at either separator, `/` or `\`. Its pieces may be empty; its segments
are the pieces that name something, so neither empty nor `.`. Everything here is lexical:
`..` is resolved against the pieces before it, never against a storage.
-/

namespace Linework

/-- What a path is joined from: texts, nested in lists to any depth. -/
inductive PathToken where
  | text (t : Text)
  | group (tokens : List PathToken)

namespace PathToken

mutual

/-- The texts of a token, in order. -/
def texts : PathToken → List Text
  | text t => [t]
  | group tokens => textsOfAll tokens

/-- The texts of several tokens, in order. -/
def textsOfAll : List PathToken → List Text
  | [] => []
  | token :: rest => token.texts ++ textsOfAll rest

end

end PathToken

namespace Path

/-- The two characters that separate pieces. -/
def isSeparator (c : CodePoint) : Bool := c == '/' || c == '\\'

/-- The segment that climbs to the parent. -/
def up : Text := ['.', '.']

/-- The pieces of a path, empty ones included. -/
def split (path : Text) : List Text := Text.pieces isSeparator path

/-- The pieces that are not empty. -/
def solid (path : Text) : List Text := (split path).filter (· ≠ [])

/-- The pieces that are neither empty nor `.`. -/
def segments (path : Text) : List Text := (solid path).filter (· ≠ (['.'] : Text))

/-- Whether a path starts at the root. -/
def isAbsolute (path : Text) : Bool := path.head?.any isSeparator

/-- Pieces with a slash between each two. -/
def ofPieces (pieces : List Text) : Text := List.intercalate ['/'] pieces

/-- The absolute path of some segments. -/
def ofSegments (segs : List Text) : Text := '/' :: ofPieces segs

/-- Joins texts after cutting each into pieces. A slash in front stays when the first piece of
several is empty. -/
def joinTexts (texts : List Text) : Text :=
  let all := texts.flatMap split
  let body := ofPieces (all.filter (· ≠ []))
  if all.head? = some [] ∧ 1 < all.length then '/' :: body else body

/-- Joins path tokens. -/
def join (tokens : List PathToken) : Text := joinTexts (PathToken.textsOfAll tokens)

/-- The path without its last piece: the root for a path at the root, `.` for a bare name. -/
def parent (path : Text) : Text :=
  let parents := (solid path).dropLast
  if isAbsolute path then ofSegments parents
  else if parents = [] then ['.'] else ofPieces parents

/-- Adds a segment to resolved ones, the last of them first. A climb undoes a segment; at the
bottom it stays, unless the path is absolute. -/
def push (absolute : Bool) (resolved : List Text) (segment : Text) : List Text :=
  if segment ≠ up then segment :: resolved
  else match resolved with
    | top :: rest => if top ≠ up then rest else if absolute then resolved else up :: resolved
    | [] => if absolute then [] else [up]

/-- The segments that are left once every climb has been resolved. -/
def resolve (absolute : Bool) (segs : List Text) : List Text :=
  (segs.foldl (push absolute) []).reverse

/-- A path without `.`, and without `..` where it can be resolved. -/
def normalize (path : Text) : Text :=
  let resolved := resolve (isAbsolute path) (segments path)
  if isAbsolute path then ofSegments resolved
  else if resolved = [] then ['.'] else ofPieces resolved

theorem mem_segments {path segment : Text} (h : segment ∈ segments path) :
    segment ≠ [] ∧ segment ≠ (['.'] : Text) := by
  simp only [segments, solid, List.mem_filter, decide_eq_true_eq] at h
  exact ⟨h.1.2, h.2⟩

theorem isAbsolute_ofSegments (segs : List Text) : isAbsolute (ofSegments segs) := rfl

/-- At the root a climb leaves no trace. -/
theorem up_notMem_foldl_push (segs : List Text) :
    ∀ resolved, up ∉ resolved → up ∉ segs.foldl (push true) resolved := by
  induction segs with
  | nil => exact fun _ h => h
  | cons segment rest ih =>
    intro resolved h
    refine ih _ ?_
    unfold push
    split
    · rename_i hne
      exact List.not_mem_cons_of_ne_of_not_mem (Ne.symm hne) h
    · cases resolved with
      | nil => simp
      | cons top more =>
        have hup := List.ne_and_not_mem_of_not_mem_cons h
        simp [Ne.symm hup.1, hup.2]

theorem up_notMem_resolve (segs : List Text) : up ∉ resolve true segs := by
  simpa [resolve] using up_notMem_foldl_push segs [] (by simp)

end Path

end Linework
