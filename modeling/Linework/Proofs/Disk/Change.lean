import Linework.Proofs.Disk.Carries

/-!
# What is added to a disk

Making the parents of a file adds directories and nothing else, whether or not it succeeds, and nothing at all
where they are there (`ends_makeDir`). A file that is opened and filled is the only other change that writing
makes (`Filled`).
-/

namespace Linework

namespace Disk

open Op Failure

/-- Directories have been added to a disk; what is at a spared route is left open. -/
structure Grown (d : Disk) (spared : Option Route) (after : Disk) : Prop where
  others (route : Route) : spared ≠ some route →
    after.find? route = d.find? route ∨ d.find? route = none ∧ ∃ mode, after.find? route = some (.directory mode)
  here : after.here = d.here
  saved : after.saved = d.saved
  host : after.host = d.host

/-- A file holds bytes now, and directories have been added: it keeps its permissions unless it is new. -/
structure Filled (d : Disk) (route : Route) (bytes : List UInt8) (after : Disk) : Prop extends
    Grown d (some route) after where
  file : ∃ mode, after.find? route = some (.file mode bytes) ∧
    (d.find? route = none ∧ mode = fileMode ∨ ∃ old, d.find? route = some (.file mode old))

variable {d made after opened : Disk} {route : Route} {bytes old : List UInt8} {spared : Option Route} {path : Text}

namespace Grown

theorem refl (d : Disk) (spared : Option Route) : d.Grown spared d := ⟨fun _ _ => .inl rfl, rfl, rfl, rfl⟩

theorem weaken (h : d.Grown none after) (spared : Option Route) : d.Grown spared after :=
  ⟨fun route _ => h.others route nofun, h.here, h.saved, h.host⟩

theorem trans (h : d.Grown spared made) (hafter : made.Grown spared after) : d.Grown spared after where
  others route hroute := by
    rcases h.others route hroute with hsame | ⟨hnone, mode, hmode⟩
    · rcases hafter.others route hroute with hkept | ⟨hfree, hdirectory⟩
      · exact .inl (hkept.trans hsame)
      · exact .inr ⟨hsame ▸ hfree, hdirectory⟩
    · rcases hafter.others route hroute with hkept | ⟨hfree, -⟩
      · exact .inr ⟨hnone, mode, hkept.trans hmode⟩
      · rw [hmode] at hfree
        cases hfree
  here := hafter.here.trans h.here
  saved := hafter.saved.trans h.saved
  host := hafter.host.trans h.host

theorem put_directory (hnone : d.find? route = none) (mode : Nat) : d.Grown none (d.put route (.directory mode)) where
  others other _ := by
    rw [find?_put]
    split
    · rename_i hother
      exact .inr ⟨hother ▸ hnone, mode, rfl⟩
    · exact .inl rfl
  here := rfl
  saved := rfl
  host := rfl

/-- What was there is there still. -/
theorem kept (h : d.Grown spared after) {entry : DiskEntry} (hroute : spared ≠ some route)
    (hentry : d.find? route = some entry) : after.find? route = some entry := by
  rcases h.others route hroute with hsame | ⟨hnone, -⟩
  · exact hsame.trans hentry
  · rw [hentry] at hnone
    cases hnone

/-- What is there has been there, or it is a directory. -/
theorem was (h : d.Grown spared after) {entry : DiskEntry} (hroute : spared ≠ some route)
    (hentry : after.find? route = some entry) : d.find? route = some entry ∨
      d.find? route = none ∧ ∃ mode, entry = .directory mode := by
  rcases h.others route hroute with hsame | ⟨hnone, mode, hmode⟩
  · exact .inl (hsame.symm.trans hentry)
  · rw [hentry] at hmode
    exact .inr ⟨hnone, mode, Option.some.inj hmode⟩

theorem carries (h : d.Grown none after) : d.Carries after where
  kept hentry := ⟨_, h.kept nofun hentry, .refl _⟩
  unlinked hnone hlink := by
    rcases h.was nofun hlink with hwas | ⟨-, mode, hmode⟩
    · rw [hnone] at hwas
      cases hwas
    · cases hmode
  host := h.host

end Grown

namespace Filled

theorem of_grown (h : d.Grown none made) (hafter : made.Filled route bytes after) : d.Filled route bytes after where
  toGrown := (h.weaken _).trans hafter.toGrown
  file := by
    obtain ⟨mode, hmode, hwas⟩ := hafter.file
    refine ⟨mode, hmode, ?_⟩
    rcases hwas with ⟨hnone, hnew⟩ | ⟨old, hold⟩
    · rcases h.others route nofun with hsame | ⟨hfree, -⟩
      · exact .inl ⟨hsame ▸ hnone, hnew⟩
      · exact .inl ⟨hfree, hnew⟩
    · rcases h.was nofun hold with hwas | ⟨-, mode, ⟨⟩⟩
      exact .inr ⟨old, hwas⟩

theorem putBytes (h : d.Filled route old opened) (bytes : List UInt8) :
    d.Filled route bytes (opened.putBytes route bytes) := by
  obtain ⟨mode, hmode, hwas⟩ := h.file
  have hput : opened.putBytes route bytes = opened.put route (.file mode bytes) := by
    unfold Disk.putBytes
    rw [hmode]
  rw [hput]
  refine ⟨⟨fun other hother => ?_, h.here, h.saved, h.host⟩, mode, ?_, hwas⟩
  · have hne : other ≠ route := fun heq => hother (heq ▸ rfl)
    rw [find?_put, if_neg hne]
    exact h.others other hother
  · rw [find?_put, if_pos rfl]

theorem then_grown (h : d.Filled route bytes made) (hafter : made.Grown none after) : d.Filled route bytes after where
  toGrown := h.toGrown.trans (hafter.weaken _)
  file := by
    obtain ⟨mode, hmode, hwas⟩ := h.file
    exact ⟨mode, hafter.kept nofun hmode, hwas⟩

theorem then_filled (h : d.Filled route old made) (hafter : made.Filled route bytes after) :
    d.Filled route bytes after where
  toGrown := h.toGrown.trans hafter.toGrown
  file := by
    obtain ⟨mode, hmode, hwas⟩ := h.file
    obtain ⟨mode', hmode', ⟨hnone, -⟩ | ⟨other, hother⟩⟩ := hafter.file
    · rw [hmode] at hnone
      cases hnone
    · rw [hmode] at hother
      cases hother
      exact ⟨mode, hmode', hwas⟩

theorem put_file (hnone : d.find? route = none) : d.Filled route [] (d.put route (.file fileMode [])) := by
  refine ⟨⟨fun other hother => ?_, rfl, rfl, rfl⟩, fileMode, ?_, .inl ⟨hnone, rfl⟩⟩
  · have hne : other ≠ route := fun heq => hother (heq ▸ rfl)
    rw [find?_put, if_neg hne]
    exact .inl rfl
  · rw [find?_put, if_pos rfl]

theorem of_openOver {links : Nat} (h : d.openOver links path = .ok (route, opened)) :
    ∃ old, d.Filled route old opened := by
  rcases opened_of_openOver h with ⟨mode, old, hfile, rfl⟩ | ⟨hnone, rfl⟩
  · exact ⟨old, .refl _ _, mode, hfile, .inr ⟨old, hfile⟩⟩
  · exact ⟨[], put_file hnone⟩

theorem carries (h : d.Filled route bytes after) : d.Carries after where
  kept {other entry} hentry := by
    by_cases hother : other = route
    · subst hother
      obtain ⟨mode, hmode, ⟨hnone, -⟩ | ⟨old, hold⟩⟩ := h.file
      · rw [hentry] at hnone
        cases hnone
      · rw [hentry] at hold
        cases hold
        exact ⟨_, hmode, .file ..⟩
    · exact ⟨entry, h.kept (fun heq => hother (Option.some.inj heq).symm) hentry, .refl _⟩
  unlinked {other target} hnone hlink := by
    by_cases hother : other = route
    · subst hother
      obtain ⟨mode, hmode, -⟩ := h.file
      rw [hlink] at hmode
      cases hmode
    · rcases h.was (fun heq => hother (Option.some.inj heq).symm) hlink with hwas | ⟨-, mode, ⟨⟩⟩
      rw [hnone] at hwas
      cases hwas
  host := h.host

end Filled

/-! ## Directories -/

/-- What is left when a directory is made, whether or not that succeeds: nothing new where there is one. -/
structure Made (d : Disk) (path : Text) (made : Disk) : Prop where
  grown : d.Grown none made
  there : d.leadsToDirectory (HostPath.collapse path) = .ok true → made = d

theorem Made.refl (d : Disk) (path : Text) : d.Made path d := ⟨.refl d none, fun _ => rfl⟩

theorem Made.trans (h : d.Made path made) (hafter : made.Made path after) : d.Made path after where
  grown := h.grown.trans hafter.grown
  there hthere := by
    obtain rfl := h.there hthere
    exact hafter.there hthere

theorem grown_of_makeDirectory (h : d.makeDirectory path = .ok made) : d.Grown none made := by
  rw [makeDirectory_eq] at h
  split at h
  · rename_i hfree
    cases h
    exact .put_directory (find?_eq_none_of_resolve hfree) _
  · cases h
  · cases h

theorem ends_settle (path : Text) (code : Errno) (d : Disk) :
    Ends (settle path code) d fun result after => after = d ∧ Only IsStorage result := by
  unfold settle
  refine .bind (ends_answer_cases (fun found _ => ?_) fun failure hstorage => ⟨rfl, hstorage⟩)
  rw [andThen_ok]
  split
  · exact ends_answer_cases (fun _ _ => ⟨rfl, trivial⟩) fun failure hstorage => ⟨rfl, hstorage⟩
  · exact ends_pure.2 ⟨rfl, trivial⟩

theorem ends_makeAll (root : Text) (pieces : List Text) (d : Disk) :
    Ends (makeAll root pieces) d fun result after => d.Grown none after ∧ Only IsStorage result := by
  induction pieces with
  | nil => exact ends_pure.2 ⟨.refl d none, trivial⟩
  | cons piece above ih =>
    have hsettle : ∀ path code made, d.Grown none made →
        Ends (settle path code) made fun result after => d.Grown none after ∧ Only IsStorage result := by
      intro path code made hgrown
      refine (ends_settle path code made).mono ?_
      rintro result _ ⟨rfl, honly⟩
      exact ⟨hgrown, honly⟩
    unfold makeAll
    refine .get ?_
    split
    · rename_i made hmade
      exact ends_setStore.2 ⟨grown_of_makeDirectory hmade, trivial⟩
    split
    · -- the directories above come first, then the request is made once more
      refine .bind (ih.mono ?_)
      rintro (failure | _) made ⟨hgrown, honly⟩
      · exact ⟨hgrown, honly⟩
      rw [andThen_ok]
      refine .get ?_
      split
      · rename_i again hmade
        exact ends_setStore.2 ⟨hgrown.trans (grown_of_makeDirectory hmade), trivial⟩
      split
      · exact ends_answer_cases (fun _ _ => ⟨hgrown, trivial⟩) fun failure hstorage => ⟨hgrown, hstorage⟩
      · exact hsettle _ _ _ hgrown
    · exact hsettle _ _ _ (.refl d none)

/-- A directory that is there is found without a link at the end, or behind one. -/
theorem makeDirectory_there (h : d.leadsToDirectory path = .ok true) :
    d.makeDirectory path = .error Errno.entryExists := by
  unfold leadsToDirectory at h
  split at h
  · rename_i found hfound
    obtain ⟨hpath, hlength, hreaches⟩ := resolve_eq_ok_iff.1 hfound
    rw [makeDirectory_eq]
    rcases hreaches.unfollowed with hsame | ⟨live, name, target, fewer, -, hlink, -⟩
    · rw [resolve_eq_ok_iff.2 ⟨hpath, hlength, hsame⟩]
      cases found with
      | missing route => cases h
      | entry | removed => rfl
    · rw [resolve_eq_ok_iff.2 ⟨hpath, hlength, hlink⟩]
  · split at h <;> cases h

theorem ends_makeAll_there {root : Text} {pieces : List Text}
    (h : d.leadsToDirectory (HostPath.mk root pieces.reverse).text = .ok true) :
    Ends (makeAll root pieces) d fun _ after => after = d := by
  cases pieces with
  | nil => exact ends_pure.2 rfl
  | cons piece above =>
    unfold makeAll
    refine .get ?_
    rw [makeDirectory_there h]
    exact (ends_settle _ _ d).mono fun _ _ hafter => hafter.1

theorem ends_makeDir (path : Text) (d : Disk) :
    Ends (makeDir path) d fun result after => d.Made path after ∧ Only OfPath result := by
  unfold makeDir
  refine .bind (ends_usable_cases (fun _ => ?_) fun fault => ⟨.refl d path, ofPath_unusable fault⟩)
  rw [andThen_ok]
  by_cases hthere : d.leadsToDirectory (HostPath.collapse path) = .ok true
  · have hkept : Ends (makeAll (HostPath.ofText path).root (HostPath.ofText path).parts.reverse) d
        fun _ after => after = d := by
      refine ends_makeAll_there ?_
      rw [List.reverse_reverse]
      exact hthere
    refine ((ends_makeAll _ _ d).and hkept).mono ?_
    rintro (failure | _) after ⟨⟨hgrown, honly⟩, rfl⟩
    · exact ⟨.refl after path, .inl honly⟩
    · exact ⟨.refl after path, trivial⟩
  · refine (ends_makeAll _ _ d).mono ?_
    rintro (failure | _) after ⟨hgrown, honly⟩
    · exact ⟨⟨hgrown, fun h => absurd h hthere⟩, .inl honly⟩
    · exact ⟨⟨hgrown, fun h => absurd h hthere⟩, trivial⟩

end Disk

end Linework
