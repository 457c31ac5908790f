import Linework.Proofs.Disk.Request

/-!
# Disks with more on them

One disk carries over to another when all its entries are there still, of the same kind, and nothing that was
added is a link. A path that led to something leads to the same place then, and sees what is there now
(`resolve_seen`); a file that could be opened is opened again (`openOver_seen`).
-/

namespace Linework

/-- Entries of one kind; links have one target, too. -/
inductive DiskEntry.Alike : DiskEntry → DiskEntry → Prop
  | directory (mode mode' : Nat) : Alike (.directory mode) (.directory mode')
  | file (mode mode' : Nat) (bytes bytes' : List UInt8) : Alike (.file mode bytes) (.file mode' bytes')
  | link (target : Text) : Alike (.link target) (.link target)

namespace DiskEntry.Alike

theorem refl (entry : DiskEntry) : Alike entry entry := by
  cases entry with
  | directory mode => exact .directory mode mode
  | file mode bytes => exact .file mode mode bytes bytes
  | link target => exact .link target

theorem trans {first second third : DiskEntry} (h : Alike first second) (hother : Alike second third) :
    Alike first third := by
  cases h with
  | directory mode mode' =>
    cases hother with
    | directory _ mode'' => exact .directory mode mode''
  | file mode mode' bytes bytes' =>
    cases hother with
    | file _ mode'' _ bytes'' => exact .file mode mode'' bytes bytes''
  | link target =>
    cases hother with
    | link => exact .link target

end DiskEntry.Alike

namespace Disk

structure Carries (d after : Disk) : Prop where
  kept {route : Route} {entry : DiskEntry} : d.find? route = some entry →
    ∃ entry', after.find? route = some entry' ∧ entry.Alike entry'
  unlinked {route : Route} {target : Text} : d.find? route = none → after.find? route ≠ some (.link target)
  host : after.host = d.host

/-- What is found at a route: its entry, or a free name. -/
def foundAt (d : Disk) (route : Route) : Found :=
  match d.find? route with
  | some entry => .entry route entry
  | none => .missing route

/-- What is seen on another disk in the place that was found. -/
def seen (after : Disk) : Found → Found
  | .entry route _ | .missing route => after.foundAt route
  | .removed spot => after.standing spot

variable {d after : Disk} {follow : Bool} {links : Nat} {spot : Spot} {pieces : List Text} {found : Found}
  {path : Text} {route : Route}

theorem foundAt_eq {entry : DiskEntry} (h : d.find? route = some entry) : d.foundAt route = .entry route entry := by
  rw [foundAt, h]

namespace Carries

theorem trans {last : Disk} (h : d.Carries after) (hlast : after.Carries last) : d.Carries last where
  kept hentry := by
    obtain ⟨entry, hafter, halike⟩ := h.kept hentry
    obtain ⟨entry', hfound, halike'⟩ := hlast.kept hafter
    exact ⟨entry', hfound, halike.trans halike'⟩
  unlinked {route target} hnone := by
    cases hafter : after.find? route with
    | none => exact hlast.unlinked hafter
    | some entry =>
      obtain ⟨entry', hfound, halike⟩ := hlast.kept hafter
      rw [hfound]
      rintro ⟨⟩
      cases halike
      exact h.unlinked hnone hafter
  host := hlast.host.trans h.host

variable (h : d.Carries after)
include h

theorem directory {mode : Nat} (hdirectory : d.find? route = some (.directory mode)) :
    ∃ mode', after.find? route = some (.directory mode') := by
  obtain ⟨entry, hentry, halike⟩ := h.kept hdirectory
  cases halike
  exact ⟨_, hentry⟩

theorem file {mode : Nat} {bytes : List UInt8} (hfile : d.find? route = some (.file mode bytes)) :
    ∃ mode' bytes', after.find? route = some (.file mode' bytes') := by
  obtain ⟨entry, hentry, halike⟩ := h.kept hfile
  cases halike
  exact ⟨_, _, hentry⟩

theorem link {target : Text} (hlink : d.find? route = some (.link target)) :
    after.find? route = some (.link target) := by
  obtain ⟨entry, hentry, halike⟩ := h.kept hlink
  cases halike
  exact hentry

theorem takes {piece : Text} (htakes : d.Takes piece) : after.Takes piece :=
  ⟨htakes.ne_nil, htakes.ne_dot, htakes.ne_up, by rw [h.host]; exact htakes.fits⟩

theorem firm (hfirm : d.Firm route) : after.Firm route where
  named := hfirm.named
  way above habove := by
    obtain ⟨mode, hmode⟩ := hfirm.way above habove
    exact h.directory hmode

omit h in
theorem seen_standing (h : d.Carries after) : after.seen (d.standing spot) = after.standing spot := by
  unfold standing
  split
  · cases hentry : d.find? spot.live with
    | none =>
      rename_i hgone
      show after.standing spot = _
      rw [standing, if_pos hgone]
    | some entry =>
      obtain ⟨entry', hentry', -⟩ := h.kept hentry
      show after.foundAt spot.live = _
      rw [foundAt_eq hentry', hentry']
  · rename_i hgone
    show after.standing spot = _
    rw [standing, if_neg hgone]

end Carries

/-- The last piece of a path leads to what is at its route, unless that is a link. -/
theorem Reaches.last {live : Route} {piece : Text} (htakes : d.Takes piece)
    (hlink : ∀ target, d.find? (live ++ [piece]) ≠ some (.link target)) :
    Reaches d follow links ⟨live, []⟩ [piece] (d.foundAt (live ++ [piece])) := by
  unfold foundAt
  cases hentry : d.find? (live ++ [piece]) with
  | none => exact .missing htakes hentry
  | some entry =>
    cases entry with
    | directory mode =>
      have hstanding : d.standing ⟨live ++ [piece], []⟩ = .entry (live ++ [piece]) (.directory mode) := by
        rw [standing, if_pos rfl, hentry]
      have hdone : Reaches d follow links ⟨live ++ [piece], []⟩ [] (d.standing ⟨live ++ [piece], []⟩) := .done
      rw [hstanding] at hdone
      exact .directory htakes hentry hdone
    | file mode bytes => exact .file htakes hentry
    | link target => exact absurd hentry (hlink target)

/-- **Pieces lead where they led.** -/
theorem Reaches.seen (h : Reaches d follow links spot pieces found) (hcarries : d.Carries after) :
    Reaches after follow links spot pieces (after.seen found) := by
  induction h with
  | done =>
    rw [hcarries.seen_standing]
    exact .done
  | stay hpiece _ ih => exact .stay hpiece ih
  | up _ ih => exact .up ih
  | missing htakes hnone => exact .last (hcarries.takes htakes) fun target => hcarries.unlinked hnone
  | directory htakes hdirectory _ ih =>
    obtain ⟨mode, hmode⟩ := hcarries.directory hdirectory
    exact .directory (hcarries.takes htakes) hmode ih
  | file htakes hfile =>
    obtain ⟨mode, bytes, hbytes⟩ := hcarries.file hfile
    refine .last (hcarries.takes htakes) fun target => ?_
    rw [hbytes]
    nofun
  | link htakes hlink hfollow =>
    have hlink' := hcarries.link hlink
    show Reaches _ _ _ _ _ (after.foundAt _)
    rw [foundAt_eq hlink']
    exact .link (hcarries.takes htakes) hlink' hfollow
  | jump htakes hlink hfollow _ ih => exact .jump (hcarries.takes htakes) (hcarries.link hlink) hfollow ih

/-- **A path leads where it led**, seen from the same working directory. -/
theorem resolve_seen (hcarries : d.Carries after) (hhere : after.here = d.here)
    (h : d.resolve follow path = .ok found) : after.resolve follow path = .ok (after.seen found) := by
  obtain ⟨hpath, hlength, hreaches⟩ := resolve_eq_ok_iff.1 h
  rw [← hcarries.host] at hlength
  rw [← hhere] at hreaches
  exact resolve_eq_ok_iff.2 ⟨hpath, hlength, hreaches.seen hcarries⟩

/-- **A file is opened again**, wherever the links on the way led. -/
theorem openOver_seen (hcarries : d.Carries after) (hhere : after.here = d.here) {opened : Disk} {mode : Nat}
    {bytes : List UInt8} (hfile : after.find? route = some (.file mode bytes))
    (h : d.openOver links path = .ok (route, opened)) : after.openOver links path = .ok (route, after) := by
  induction links generalizing path with
  | zero => cases h
  | succ fewer ih =>
    unfold openOver at h ⊢
    dsimp only at h ⊢
    split at h
    · split at h <;> cases h
    rename_i hname
    rw [if_neg hname]
    split at h
    · rename_i was old hentry
      cases h
      have hseen : after.seen (.entry route (.file was old)) = .entry route (.file mode bytes) := foundAt_eq hfile
      rw [resolve_seen hcarries hhere hentry, hseen]
    · rename_i other target hentry
      have hlink := hcarries.link (find?_eq_some_of_resolve hentry)
      have hseen : after.seen (.entry other (.link target)) = .entry other (.link target) := foundAt_eq hlink
      rw [resolve_seen hcarries hhere hentry, hseen]
      exact ih h
    · rename_i hfree
      cases h
      have hseen : after.seen (.missing route) = .entry route (.file mode bytes) := foundAt_eq hfile
      rw [resolve_seen hcarries hhere hfree, hseen]
    · cases h
    · cases h

end Disk

end Linework
