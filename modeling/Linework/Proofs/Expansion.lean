import Linework.Proofs.Memory.Reachable
import Linework.Proofs.Disk.Grounded
import Linework.Proofs.Path.Host
import Linework.Proofs.Path.Normal
import Mathlib.Data.List.TakeWhile

/-!
# Expanding paths on both storages

A portable path has no backslash in it and does not start with exactly two slashes, so the host cuts it
where a path is cut, and normalizes it alike (`Portable.normalize_eq`). The host adds a path to a directory
as a text; the pieces are those of joining (`segments_joined`). A memory normalizes a base before it joins a
path to it and a disk does so once, at the end; from the same working directory both come to the same path
(`expand_eq_of_portable`).
-/

namespace Linework

namespace Path

variable {path dir : Text}

/-- A path that the host reads as it is written. -/
structure Portable (path : Text) : Prop where
  no_backslash : ('\\' : CodePoint) ∉ path
  no_pair : (path.takeWhile HostPath.isSlash).length ≠ 2

instance (path : Text) : Decidable (Portable path) :=
  decidable_of_iff (('\\' : CodePoint) ∉ path ∧ (path.takeWhile HostPath.isSlash).length ≠ 2)
    ⟨fun h => ⟨h.1, h.2⟩, fun h => ⟨h.no_backslash, h.no_pair⟩⟩

theorem isSlash_eq_isSeparator {c : CodePoint} (h : ('\\' : CodePoint) ∉ path) (hc : c ∈ path) :
    HostPath.isSlash c = isSeparator c := by
  have hne : c ≠ '\\' := fun heq => h (heq ▸ hc)
  simp [HostPath.isSlash, isSeparator, hne]

theorem head?_eq_slash_iff (h : ('\\' : CodePoint) ∉ path) :
    path.head? = some ('/' : CodePoint) ↔ isAbsolute path = true := by
  cases path with
  | nil => simp [isAbsolute]
  | cons c rest =>
    have hc := isSlash_eq_isSeparator h List.mem_cons_self
    rw [isAbsolute, List.head?_cons, Option.any_some, ← hc]
    simp [HostPath.isSlash]

theorem pieces_eq_split (h : ('\\' : CodePoint) ∉ path) : HostPath.pieces path = split path := by
  unfold HostPath.pieces split
  induction path with
  | nil => rfl
  | cons c rest ih =>
    rw [Text.pieces, Text.pieces, ih (List.not_mem_of_not_mem_cons h), isSlash_eq_isSeparator h List.mem_cons_self]

/-- At a root the host has no climb to keep, so its steps are those of resolving. -/
theorem hostPush_eq {rooted : Bool} {stack : List Text} {piece : Text} (hne : piece ≠ [])
    (hdot : piece ≠ (['.'] : Text))
    (hroot : rooted = true → up ∉ stack) : HostPath.push rooted stack piece = push rooted stack piece := by
  have hhost : HostPath.up = up := rfl
  by_cases hup : piece = up
  · subst hup
    cases stack with
    | nil => simp [HostPath.push, push, hhost, hne, hdot]
    | cons top rest =>
      cases rooted with
      | true =>
        have htop : top ≠ up := fun heq => hroot rfl (heq ▸ List.mem_cons_self)
        simp [HostPath.push, push, hhost, hne, hdot, htop]
      | false =>
        by_cases htop : top = up <;> simp [HostPath.push, push, hhost, hne, hdot, htop]
  · simp [HostPath.push, push, hhost, hne, hdot, hup]

/-- The host resolves pieces as segments are resolved: the others it passes over. -/
theorem foldl_hostPush (rooted : Bool) (pieces : List Text) :
    ∀ stack, (rooted = true → up ∉ stack) → pieces.foldl (HostPath.push rooted) stack =
      ((pieces.filter (· ≠ [])).filter (· ≠ (['.'] : Text))).foldl (push rooted) stack := by
  induction pieces with
  | nil => exact fun _ _ => rfl
  | cons piece rest ih =>
    intro stack hroot
    rw [List.foldl_cons]
    by_cases hskip : piece = [] ∨ piece = (['.'] : Text)
    · have hpush : HostPath.push rooted stack piece = stack := by
        unfold HostPath.push
        rw [if_pos (by simpa using hskip)]
      rw [hpush, ih stack hroot]
      rcases hskip with rfl | rfl <;> simp
    · obtain ⟨hne, hdot⟩ := not_or.1 hskip
      rw [hostPush_eq hne hdot hroot, ih]
      · simp [hne, hdot]
      · rintro rfl
        exact up_notMem_foldl_push [piece] stack (hroot rfl)

theorem Portable.slashes_eq (h : Portable path) :
    HostPath.slashes path = if isAbsolute path then (['/'] : Text) else [] := by
  have habs := head?_eq_slash_iff h.no_backslash
  have hpair := h.no_pair
  unfold HostPath.slashes
  cases path with
  | nil => rfl
  | cons c rest =>
    by_cases hc : c = '/'
    · subst hc
      rw [if_pos (habs.1 rfl)]
      split
      · rename_i hzero
        simp [HostPath.isSlash] at hzero
      · rename_i htwo
        exact absurd htwo hpair
      · rfl
    · rw [if_neg fun ht => hc (by simpa using habs.2 ht)]
      simp [HostPath.isSlash, hc]

/-- **The host normalizes a portable path as it is normalized without a host.** -/
theorem Portable.normalize_eq (h : Portable path) : HostPath.normalize path = normalize path := by
  have hresolve : ∀ rooted : Bool, ((HostPath.pieces path).foldl (HostPath.push rooted) []).reverse =
      resolve rooted (segments path) := by
    intro rooted
    rw [pieces_eq_split h.no_backslash, foldl_hostPush rooted _ [] fun _ => List.not_mem_nil]
    rfl
  unfold HostPath.normalize normalize HostPath.text
  rw [h.slashes_eq]
  cases isAbsolute path with
  | true =>
    dsimp only
    rw [hresolve]
    simp [ofSegments, ofPieces]
  | false =>
    dsimp only
    rw [hresolve]
    simp [ofPieces]

/-! ## Adding a path to a directory -/

theorem joined_of_relative (hrelative : path.head? ≠ some ('/' : CodePoint)) (dir : Text) :
    ∃ seam, HostPath.joined dir path = dir ++ seam ++ path ∧
      ((seam = [] ∧ (dir = [] ∨ dir.getLast? = some ('/' : CodePoint))) ∨
        seam = (['/'] : Text) ∧ dir ≠ [] ∧ dir.getLast? ≠ some ('/' : CodePoint)) := by
  unfold HostPath.joined
  rw [if_neg hrelative]
  split
  · rename_i hend
    exact ⟨[], by simp, .inl ⟨rfl, by simpa using hend⟩⟩
  · rename_i hend
    exact ⟨['/'], by simp, .inr ⟨rfl, by simpa using hend⟩⟩

theorem isAbsolute_joined (hpath : Portable path) (hrelative : path.head? ≠ some ('/' : CodePoint)) (dir : Text) :
    isAbsolute (HostPath.joined dir path) = isAbsolute dir := by
  have hpathabs : isAbsolute path = false := by
    rw [← Bool.not_eq_true, ← head?_eq_slash_iff hpath.no_backslash]
    exact hrelative
  obtain ⟨seam, hjoined, hseam⟩ := joined_of_relative hrelative dir
  rw [hjoined]
  cases dir with
  | nil =>
    obtain ⟨rfl, -⟩ | ⟨-, hne, -⟩ := hseam
    · exact hpathabs
    · exact absurd rfl hne
  | cons c rest => rfl

/-- What is added to a directory as a text has the segments of what is joined. -/
theorem segments_joined (hrelative : path.head? ≠ some ('/' : CodePoint)) (dir : Text) :
    segments (HostPath.joined dir path) = segments dir ++ segments path := by
  have hcut : ∀ front, segments (front ++ ('/' : CodePoint) :: path) = segments front ++ segments path := by
    intro front
    simp [segments, solid, split, @Text.pieces_append_cons isSeparator '/' rfl]
  obtain ⟨seam, hjoined, ⟨rfl, rfl | hend⟩ | ⟨rfl, -⟩⟩ := joined_of_relative hrelative dir
  · rw [hjoined]
    rfl
  · obtain ⟨front, rfl⟩ := List.getLast?_eq_some_iff.1 hend
    have hfront : segments (front ++ (['/'] : Text)) = segments front := by
      simp [segments, solid, split, @Text.pieces_append_cons isSeparator '/' rfl, Text.pieces]
    rw [hjoined, hfront, List.append_nil, List.append_assoc, List.singleton_append, hcut]
  · rw [hjoined, List.append_assoc, List.singleton_append, hcut]

/-- No pair of slashes comes about in front. -/
theorem Portable.joined (hdir : Portable dir) (hpath : Portable path) : Portable (HostPath.joined dir path) := by
  by_cases hrelative : path.head? = some ('/' : CodePoint)
  · rwa [HostPath.joined, if_pos hrelative]
  obtain ⟨seam, hjoined, hseam⟩ := joined_of_relative hrelative dir
  have hslash : ∀ c ∈ seam, c = '/' := by
    obtain ⟨rfl, -⟩ | ⟨rfl, -⟩ := hseam <;> simp
  refine ⟨fun hmem => ?_, ?_⟩
  · rw [hjoined] at hmem
    rcases List.mem_append.1 hmem with hmem | hmem
    · rcases List.mem_append.1 hmem with hmem | hmem
      · exact hdir.no_backslash hmem
      · exact absurd (hslash _ hmem) (by decide)
    · exact hpath.no_backslash hmem
  · have hfront : path.takeWhile HostPath.isSlash = [] := by
      cases path with
      | nil => rfl
      | cons c rest =>
        rw [List.takeWhile_cons_of_neg]
        simpa [HostPath.isSlash] using hrelative
    rw [hjoined, List.append_assoc, List.takeWhile_append]
    split
    · rename_i hall
      have hseamless : seam = [] := by
        rcases hseam with ⟨hnil, -⟩ | ⟨-, hne, hlast⟩
        · exact hnil
        · obtain ⟨front, last, rfl⟩ : ∃ front last, dir = front ++ [last] :=
            ⟨_, _, (List.dropLast_concat_getLast hne).symm⟩
          have hmem : last ∈ (front ++ [last]).takeWhile HostPath.isSlash := by
            rw [(List.takeWhile_prefix _).eq_of_length hall]
            simp
          have hslash := List.mem_takeWhile_imp hmem
          simp only [HostPath.isSlash, beq_iff_eq] at hslash
          simp [hslash] at hlast
      rw [hseamless, List.nil_append, hfront, List.append_nil, ← hall]
      exact hdir.no_pair
    · exact hdir.no_pair

/-! ## Paths seen from a directory -/

variable {base : Text}

/-- Seen from a directory with a root, a path is resolved behind the segments of the directory, unless it has a
root of its own. -/
theorem segments_expandFrom_of_isAbsolute (hdir : isAbsolute dir = true) (path : Text) :
    segments (Memory.expandFrom dir path) =
      resolve true ((if isAbsolute path then [] else segments dir) ++ segments path) := by
  have hne : dir ≠ [] := by
    rintro rfl
    cases hdir
  unfold Memory.expandFrom
  split
  · rename_i habs
    rw [segments_normalize, habs, List.nil_append]
  · rw [segments_normalize, isAbsolute_joinTexts_cons hne, hdir, segments_joinTexts, List.flatMap_cons,
      List.flatMap_singleton]

theorem isAbsolute_expandFrom (hdir : isAbsolute dir = true) (path : Text) :
    isAbsolute (Memory.expandFrom dir path) = true := by
  have hne : dir ≠ [] := by
    rintro rfl
    cases hdir
  unfold Memory.expandFrom
  split
  · rwa [isAbsolute_normalize]
  · rwa [isAbsolute_normalize, isAbsolute_joinTexts_cons hne]

theorem ofSegments_segments_expandFrom (hdir : isAbsolute dir = true) (path : Text) :
    ofSegments (segments (Memory.expandFrom dir path)) = Memory.expandFrom dir path := by
  have habs := isAbsolute_expandFrom hdir path
  unfold Memory.expandFrom at habs ⊢
  split
  · exact ofSegments_segments_normalize ‹_›
  · rename_i hrelative
    rw [if_neg hrelative, isAbsolute_normalize] at habs
    exact ofSegments_segments_normalize habs

/-- The host adds a path to a directory as a text and normalizes what it gets. -/
theorem normalize_joined (habs : isAbsolute dir = true) (hdir : Portable dir) (hpath : Portable path) :
    HostPath.normalize (HostPath.joined dir path) = Memory.expandFrom dir path := by
  rw [(hdir.joined hpath).normalize_eq, ← ofSegments_segments_expandFrom habs, segments_expandFrom_of_isAbsolute habs]
  by_cases hroot : path.head? = some ('/' : CodePoint)
  · have hpathabs := (head?_eq_slash_iff hpath.no_backslash).1 hroot
    rw [HostPath.joined, if_pos hroot, if_pos hpathabs, List.nil_append, ← ofSegments_segments_normalize hpathabs,
      segments_normalize, hpathabs]
  · have hrelative : ¬ isAbsolute path = true := fun h => hroot ((head?_eq_slash_iff hpath.no_backslash).2 h)
    have hjoined := (isAbsolute_joined hpath hroot dir).trans habs
    rw [if_neg hrelative, ← ofSegments_segments_normalize hjoined, segments_normalize, hjoined, segments_joined hroot]

/-- **A base may be expanded before a path is seen from it.** -/
theorem expandFrom_joined (habs : isAbsolute dir = true) (hpath : Portable path) (base : Text) :
    Memory.expandFrom dir (HostPath.joined base path) = Memory.expandFrom (Memory.expandFrom dir base) path := by
  have hbase := isAbsolute_expandFrom habs base
  rw [← ofSegments_segments_expandFrom habs, ← ofSegments_segments_expandFrom hbase,
    segments_expandFrom_of_isAbsolute habs, segments_expandFrom_of_isAbsolute hbase,
    segments_expandFrom_of_isAbsolute habs]
  by_cases hroot : path.head? = some ('/' : CodePoint)
  · have hpathabs := (head?_eq_slash_iff hpath.no_backslash).1 hroot
    rw [HostPath.joined, if_pos hroot, if_pos hpathabs, if_pos hpathabs]
  · have hrelative : ¬ isAbsolute path = true := fun h => hroot ((head?_eq_slash_iff hpath.no_backslash).2 h)
    rw [if_neg hrelative, isAbsolute_joined hpath hroot, segments_joined hroot, resolve_resolve_append,
      List.append_assoc]

end Path

/-! ## Both storages -/

namespace Disk

open Op

variable {d : Disk} {dir : Text}

theorem head?_joined_of_root (hroot : dir.head? = some ('/' : CodePoint)) (path : Text) :
    (HostPath.joined dir path).head? = some ('/' : CodePoint) := by
  unfold HostPath.joined
  split
  · assumption
  · split <;> rw [List.head?_append, hroot, Option.some_or]

/-- A disk puts the base and the path behind the working directory, then normalizes. -/
theorem ends_expand (hdir : d.pwd? = some dir) (hroot : dir.head? = some ('/' : CodePoint)) (path : Text)
    (base : Option Text) :
    Ends (Disk.expand path base) d fun result _ => result =
      .ok (HostPath.normalize (HostPath.joined dir ((base.map (HostPath.joined · path)).getD path))) := by
  have hworking : Ends workingDir d fun result after => result = .ok dir ∧ after = d := by
    unfold workingDir
    refine .get ?_
    rw [hdir]
    exact ends_pure.2 ⟨rfl, rfl⟩
  -- Whatever has a root already stands for itself behind the working directory.
  have hrest : ∀ t, Ends (if t.head? = some ('/' : CodePoint) then (return HostPath.normalize t : Op Disk Text)
      else do return HostPath.normalize (HostPath.joined (← workingDir) t)) d
        fun result _ => result = .ok (HostPath.normalize (HostPath.joined dir t)) := by
    intro t
    split
    · rename_i hroot
      rw [HostPath.joined, if_pos hroot]
      exact ends_pure.2 rfl
    · refine .bind (hworking.mono ?_)
      rintro _ _ ⟨rfl, rfl⟩
      exact ends_pure.2 rfl
  unfold Disk.expand
  cases base with
  | none =>
    refine .bind (hworking.mono ?_)
    rintro _ _ ⟨rfl, rfl⟩
    have hstands : HostPath.joined dir (HostPath.joined dir path) = HostPath.joined dir path := by
      rw [HostPath.joined, if_pos (head?_joined_of_root hroot path)]
    show Ends _ _ fun result _ => result = .ok (HostPath.normalize (HostPath.joined dir path))
    rw [← hstands]
    exact hrest (HostPath.joined dir path)
  | some base => exact .bind (ends_pure.2 (hrest (HostPath.joined base path)))

end Disk

/-- **Both storages expand a portable path alike**, from whatever base, if they work in the same directory. -/
theorem expand_eq_of_portable {m : Memory} {d : Disk} (hdir : d.pwd? = some m.pwd) (hportable : Path.Portable m.pwd)
    {path : Text} (hpath : Path.Portable path) {base : Option Text} (hbase : ∀ b, base = some b → Path.Portable b) :
    (Op.outcome (Storage.expand path base) d).1 = (Op.outcome (Storage.expand path base) m).1 ∧
      (Op.outcome (Storage.expand path base) d).1 = .ok (m.expand path base) := by
  have habs : Path.isAbsolute m.pwd = true := rfl
  have hmemory : (Op.outcome (Storage.expand path base) m).1 = .ok (m.expand path base) := rfl
  have hdisk := (Disk.ends_expand hdir rfl path base).outcome
  suffices heq : HostPath.normalize (HostPath.joined m.pwd ((base.map (HostPath.joined · path)).getD path)) =
      m.expand path base by
    rw [heq] at hdisk
    exact ⟨hdisk.trans hmemory.symm, hdisk⟩
  cases base with
  | none => exact Path.normalize_joined habs hportable hpath
  | some b =>
    have hb := hbase b rfl
    calc HostPath.normalize (HostPath.joined m.pwd (HostPath.joined b path))
      _ = Memory.expandFrom m.pwd (HostPath.joined b path) := Path.normalize_joined habs hportable (hb.joined hpath)
      _ = Memory.expandFrom (Memory.expandFrom m.pwd b) path := Path.expandFrom_joined habs hpath b

/-- In a directory that has been made and entered. -/
def settled : Memory :=
  (Op.outcome (Move.run (.enter (Text.lit "/a/b")))
    (Op.outcome (Move.run (.act {} (.makeDir (Text.lit "/a/b")))) ({} : Memory)).2.store).2.store

/-- A base that leads back to the working directory, and a path that climbs above it. -/
theorem expand_eq_climbing :
    settled.Reachable ∧ (Disk.atRoute [Text.lit "a", Text.lit "b"]).pwd? = some settled.pwd ∧
      Path.Portable settled.pwd ∧
      Path.Portable (Text.lit "..//x/./y") ∧ Path.Portable (Text.lit "c/..") ∧
      (Op.outcome (Storage.expand (Text.lit "..//x/./y") (some (Text.lit "c/..")))
        (Disk.atRoute [Text.lit "a", Text.lit "b"])).1 = .ok (Text.lit "/a/x/y") ∧
      (Op.outcome (Storage.expand (Text.lit "..//x/./y") (some (Text.lit "c/.."))) settled).1 =
        .ok (Text.lit "/a/x/y") := by
  have hexpand : settled.expand (Text.lit "..//x/./y") (some (Text.lit "c/..")) = Text.lit "/a/x/y" := by decide
  obtain ⟨hagree, hdisk⟩ := @expand_eq_of_portable settled (Disk.atRoute [Text.lit "a", Text.lit "b"]) rfl (by decide)
    (Text.lit "..//x/./y") (by decide) (some (Text.lit "c/..")) (by rintro _ ⟨⟩; decide)
  have hanswer := hdisk.trans (congrArg _ hexpand)
  have hreachable : settled.Reachable :=
    (Memory.Reachable.start.move (.act {} (.makeDir (Text.lit "/a/b")))).move (.enter (Text.lit "/a/b"))
  exact ⟨hreachable, rfl, by decide, by decide, by decide, hanswer, hagree.symm.trans hanswer⟩

end Linework
