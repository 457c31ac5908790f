import Linework.Proofs.Disk.Grounded
import Linework.Proofs.Disk.ReadBack

/-!
# Blocks on a disk

What a program does from a place on: it acts, and works inside directories and leaves them again, however it is
controlled (`Runs`), and so do scripts (`Step.runs_runAll`). Leaving a block goes back to the directory that was
there before exactly if there is a way back to it; otherwise the program stays where it is, with a fault of the host
(`governed_of_visits`).
-/

namespace Linework

namespace Disk

open Op

/-- The disks that a program may come to, with as many blocks open as at first. -/
inductive Runs (rules : Rules) : Disk → Disk → Prop
  | rest {d : Disk} : Runs rules d d
  | act {d s : Disk} (h : Runs rules d s) (action : Action) :
      Runs rules d (Op.outcome (action.perform rules) s).2.store
  | refused {d s : Disk} (h : Runs rules d s) {path : Text} {failure : Failure}
      (hrefused : (Op.outcome (Storage.enter path) s).1 = .error failure) :
      Runs rules d (Op.outcome (Storage.enter path) s).2.store
  | block {d s last : Disk} (h : Runs rules d s) {path : Text}
      (hentered : (Op.outcome (Storage.enter path) s).1 = .ok ())
      (hbody : Runs rules (Op.outcome (Storage.enter path) s).2.store last) :
      Runs rules d (Op.outcome Storage.leave last).2.store

/-- Directories all along a route, and a path to it that the host takes. -/
structure Back (d : Disk) (live : Route) : Prop where
  way : d.Open live
  path : d.host.refusesPath (Route.text live) = false
  names : ∀ name ∈ live, d.host.refusesName name = false

variable {rules : Rules} {d s last after : Disk} {path : Text} {live start names : Route} {found : Found} {spot : Spot}
  {links : Nat} {follow : Bool}

/-! ## Ways back -/

theorem names_text_root (hshown : ∀ name ∈ live, HostPath.Shown name) :
    ∃ rest, HostPath.names (Route.text live) = [] :: rest ∧ (rest = live ∨ live = [] ∧ rest = [[]]) := by
  by_cases hne : live = []
  · subst hne
    exact ⟨[[]], rfl, .inr ⟨rfl, rfl⟩⟩
  · exact ⟨live, names_text hne hshown, .inl rfl⟩

/-- A walk along directories ends at the last of them. -/
theorem reaches_of_open (hopen : d.Open (start ++ names)) (htakes : ∀ name ∈ names, d.Takes name) :
    ∃ mode, Reaches d follow links ⟨start, []⟩ names (.entry (start ++ names) (.directory mode)) := by
  induction names generalizing start with
  | nil =>
    rw [List.append_nil] at hopen ⊢
    obtain ⟨mode, hmode⟩ := hopen start (List.prefix_refl _)
    have hstanding : d.standing ⟨start, []⟩ = .entry start (.directory mode) := by
      rw [standing, if_pos rfl, hmode]
    refine ⟨mode, ?_⟩
    rw [← hstanding]
    exact .done
  | cons name rest ih =>
    have hassoc : start ++ name :: rest = start ++ [name] ++ rest := by simp
    rw [hassoc] at hopen ⊢
    obtain ⟨mode, hmode⟩ := hopen (start ++ [name]) (List.prefix_append _ _)
    obtain ⟨last, hlast⟩ := ih hopen fun other hother => htakes other (List.mem_cons_of_mem _ hother)
    exact ⟨last, .directory (htakes name List.mem_cons_self) hmode hlast⟩

/-- A walk along names without a link among them comes to a directory only over directories. -/
theorem Reaches.open_names (h : Reaches d true links ⟨start, []⟩ names found)
    (hnamed : ∀ name ∈ names, name ≠ [] ∧ name ≠ (['.'] : Text) ∧ name ≠ HostPath.up)
    (hlinks : ∀ above, above <+: names → ∀ target, d.find? (start ++ above) ≠ some (.link target))
    (hspot : found.spot? = some spot) (hstart : d.Open start) :
    d.Open (start ++ names) ∧ (∀ name ∈ names, d.host.refusesName name = false) ∧ spot = ⟨start ++ names, []⟩ := by
  induction names generalizing start with
  | nil =>
    cases h
    obtain ⟨mode, hmode⟩ := hstart start (List.prefix_refl _)
    rw [standing, if_pos rfl, hmode] at hspot
    rw [List.append_nil]
    exact ⟨hstart, fun name hname => absurd hname List.not_mem_nil, (Option.some.inj hspot).symm⟩
  | cons name rest ih =>
    obtain ⟨hnil, hdot, hup⟩ := hnamed name List.mem_cons_self
    cases h with
    | stay hpiece => exact absurd hpiece (not_or.2 ⟨hnil, hdot⟩)
    | up => exact absurd rfl hup
    | missing | file => cases hspot
    | link _ _ hfollow => cases hfollow
    | jump _ hlink => exact absurd hlink (hlinks [name] (by simp) _)
    | directory htakes hdirectory hrest =>
      have hassoc : start ++ name :: rest = start ++ [name] ++ rest := by simp
      have hlinks' : ∀ above, above <+: rest → ∀ target, d.find? (start ++ [name] ++ above) ≠ some (.link target) := by
        intro above habove target
        rw [List.append_assoc]
        exact hlinks (name :: above) (List.cons_prefix_cons.2 ⟨rfl, habove⟩) target
      obtain ⟨hway, hfits, heq⟩ := ih hrest (fun other hother => hnamed other (List.mem_cons_of_mem _ hother)) hlinks'
        (open_concat hstart hdirectory)
      rw [hassoc]
      refine ⟨hway, fun other hother => ?_, heq⟩
      rcases List.mem_cons.1 hother with rfl | hother
      · exact htakes.fits
      · exact hfits other hother

theorem moveTo_ok (h : d.moveTo path = .ok after) :
    ∃ found spot, d.resolve true path = .ok found ∧ found.spot? = some spot ∧ after = { d with here := spot } := by
  unfold moveTo at h
  cases hlocate : d.locate path with
  | error code =>
    rw [hlocate] at h
    cases h
  | ok found =>
    rw [hlocate] at h
    dsimp only [bind, Except.bind] at h
    split at h
    · rename_i spot heq
      cases h
      exact ⟨found, spot, (locate_eq_ok_iff.1 hlocate).1, heq, rfl⟩
    · cases h

theorem firm_of_spot (h : d.FirmAt found) (hspot : found.spot? = some spot) : d.Firm spot.live := by
  cases found with
  | missing => cases hspot
  | removed other =>
    cases hspot
    exact h
  | entry route entry =>
    cases entry with
    | file | link => cases hspot
    | directory mode =>
      cases hspot
      exact h

/-- Where a program is does not matter to a way, nor what it goes back to. -/
theorem Firm.elsewhere (h : d.Firm live) (here : Spot) (saved : List Text) :
    ({ d with here, saved } : Disk).Firm live := ⟨h.named, h.way⟩

section Back

variable (hnamed : ∀ name ∈ live, name ≠ [] ∧ name ≠ (['.'] : Text) ∧ name ≠ HostPath.up ∧ HostPath.Shown name)
include hnamed

theorem Back.moveTo (h : d.Back live) : d.moveTo (Route.text live) = .ok { d with here := ⟨live, []⟩ } := by
  obtain ⟨mode, hreaches⟩ : ∃ mode, Reaches d true linkLimit (origin d.here (Route.text live))
      (HostPath.names (Route.text live)) (.entry live (.directory mode)) := by
    have hopen : d.Open ([] ++ live) := h.way
    have htakes : ∀ name ∈ live, d.Takes name := fun name hname =>
      ⟨(hnamed name hname).1, (hnamed name hname).2.1, (hnamed name hname).2.2.1, h.names name hname⟩
    obtain ⟨mode, hwalk⟩ : ∃ mode, Reaches d true linkLimit ⟨[], []⟩ live (.entry live (.directory mode)) :=
      reaches_of_open hopen htakes
    obtain ⟨rest, hpieces, hrest⟩ := names_text_root fun name hname => (hnamed name hname).2.2.2
    refine ⟨mode, ?_⟩
    rw [hpieces]
    rcases hrest with hsame | ⟨hnil, hrest⟩
    · rw [hsame]
      exact .stay (.inl rfl) hwalk
    · rw [hnil] at hwalk ⊢
      rw [hrest]
      exact .stay (.inl rfl) (.stay (.inl rfl) hwalk)
  have hresolve := resolve_eq_ok_iff.2 ⟨List.cons_ne_nil _ _, h.path, hreaches⟩
  have hlocate : d.locate (Route.text live) = .ok (.entry live (.directory mode)) :=
    locate_eq_ok_iff.2 ⟨hresolve, nofun⟩
  unfold Disk.moveTo
  rw [hlocate]
  rfl

/-- Whoever comes to the directory at a route has a way to it. -/
theorem back_of_moveTo (hd : d.Grounded)
    (hlinks : ∀ above, above <+: live → ∀ target, d.find? above ≠ some (.link target)) (h : d.moveTo (Route.text live) = .ok after) : d.Back live ∧ after = { d with here := ⟨live, []⟩ } := by
  obtain ⟨found, spot, hresolve, hspot, rfl⟩ := moveTo_ok h
  obtain ⟨-, hpath, hreaches⟩ := resolve_eq_ok_iff.1 hresolve
  have hroot : d.Open [] := fun above habove => hd.way above (List.prefix_nil.1 habove ▸ List.nil_prefix)
  have hwalk : Reaches d true linkLimit ⟨[], []⟩ live found := by
    obtain ⟨rest, hpieces, hrest⟩ := names_text_root fun name hname => (hnamed name hname).2.2.2
    rw [hpieces] at hreaches
    rcases hrest with hsame | ⟨hnil, hrest⟩
    · rw [hsame] at hreaches
      exact hreaches.of_nil_cons
    · rw [hrest] at hreaches
      rw [hnil]
      exact hreaches.of_nil_cons.of_nil_cons
  obtain ⟨hway, hfits, rfl⟩ := hwalk.open_names
    (fun name hname => ⟨(hnamed name hname).1, (hnamed name hname).2.1, (hnamed name hname).2.2.1⟩) hlinks hspot hroot
  exact ⟨⟨hway, hpath, hfits⟩, rfl⟩

end Back

/-! ## Blocks -/

/-- A block is entered from a working directory that is there, and remembers it. -/
theorem ends_enter (path : Text) (d : Disk) :
    Ends (Storage.enter path) d fun result after =>
      (d.here.gone ≠ [] ∧ result = .error (.system (.ofErrno Errno.noEntry)) ∧ after = d) ∨
      d.here.gone = [] ∧ ((∃ failure, result = .error failure ∧ failure.OfPath ∧ after = d) ∨
        ∃ spot, result = .ok () ∧ (d.Grounded → d.Firm spot.live) ∧
          after = { d with here := spot, saved := Route.text d.here.live :: d.saved }) := by
  change Ends (enter path) d _
  unfold enter
  refine .bind ((ends_workingDir d).mono ?_)
  rintro _ d ⟨rfl, ⟨hthere, rfl⟩ | ⟨hgone, rfl⟩⟩
  · have hrefused : ∀ failure, failure.OfPath → (d.here.gone ≠ [] ∧
        (.error failure : Except Failure Unit) = .error (.system (.ofErrno Errno.noEntry)) ∧ d = d) ∨
        d.here.gone = [] ∧ ((∃ other, (.error failure : Except Failure Unit) = .error other ∧ other.OfPath ∧ d = d) ∨
          ∃ spot, (.error failure : Except Failure Unit) = .ok () ∧ (d.Grounded → d.Firm spot.live) ∧
            d = { d with here := spot, saved := Route.text d.here.live :: d.saved }) :=
      fun failure hpath => .inr ⟨hthere, .inl ⟨failure, rfl, hpath, rfl⟩⟩
    rw [andThen_ok]
    refine .bind (ends_usable_cases (fun _ => ?_) fun fault => hrefused _ (Failure.ofPath_unusable fault))
    rw [andThen_ok]
    refine .bind (ends_perform_cases (fun after hmoved => ?_) fun failure hstorage => hrefused _ (.inl hstorage))
    obtain ⟨found, spot, hresolve, hspot, rfl⟩ := moveTo_ok hmoved
    rw [andThen_ok]
    refine .get (.get (ends_setStore.2 (.inr ⟨hthere, .inr ⟨spot, rfl, fun hd => ?_, rfl⟩⟩)))
    exact firm_of_spot (hd.firmAt hresolve) hspot
  · exact .inl ⟨hgone, rfl, rfl⟩

/-- A block is left for the directory that it remembers, or it fails there where it is. -/
theorem ends_leave {previous : Text} {rest : List Text} (hsaved : d.saved = previous :: rest) :
    Ends Storage.leave d fun result after =>
      (result = .ok () ∧ ({ d with saved := rest } : Disk).moveTo previous = .ok after) ∨
      ∃ code, ({ d with saved := rest } : Disk).moveTo previous = .error code ∧
        result = .error (.system (.about code previous)) ∧ after = { d with saved := rest } := by
  change Ends leave d _
  unfold leave
  refine .get ?_
  rw [hsaved]
  refine .set (.bind (ends_query_cases (fun moved hmoved => ?_) fun code hcode => ?_))
  · rw [andThen_ok]
    exact ends_setStore.2 (.inl ⟨rfl, hmoved⟩)
  · exact .inr ⟨code, hcode, rfl, rfl⟩

/-- Where a program is inside a block. -/
theorem entered_of (hentered : (Op.outcome (Storage.enter path) s).1 = .ok ()) :
    s.here.gone = [] ∧ ∃ spot, (s.Grounded → s.Firm spot.live) ∧
      (Op.outcome (Storage.enter path) s).2.store =
        { s with here := spot, saved := Route.text s.here.live :: s.saved } := by
  rcases (ends_enter path s).outcome with ⟨-, hresult, -⟩ | ⟨hthere, ⟨failure, hresult, -, -⟩ | ⟨spot, -, hfirm, hstore⟩⟩
  · rw [hresult] at hentered
    cases hentered
  · rw [hresult] at hentered
    cases hentered
  · exact ⟨hthere, spot, hfirm, hstore⟩

/-- A directory that cannot be entered leaves a program where it is. -/
theorem store_of_refused {failure : Failure} (hrefused : (Op.outcome (Storage.enter path) s).1 = .error failure) :
    (Op.outcome (Storage.enter path) s).2.store = s := by
  rcases (ends_enter path s).outcome with ⟨-, -, hstore⟩ | ⟨-, ⟨-, -, -, hstore⟩ | ⟨spot, hresult, -, -⟩⟩
  · exact hstore
  · exact hstore
  · rw [hresult] at hrefused
    cases hrefused

/-- What a program keeps that works inside a directory and comes back. -/
theorem Steady.block (hentered : (Op.outcome (Storage.enter path) s).1 = .ok ())
    (hbody : (Op.outcome (Storage.enter path) s).2.store.Steady last) :
    s.Steady (Op.outcome Storage.leave last).2.store := by
  obtain ⟨-, spot, hfirm, hstore⟩ := entered_of hentered
  rw [hstore] at hbody
  have hlast : s.Grounded → last.Grounded := fun hs => hbody.grounded ((hfirm hs).elsewhere spot _)
  rcases (ends_leave hbody.saved).outcome with ⟨-, hmoved⟩ | ⟨code, -, -, hleft⟩
  · obtain ⟨found, back, hresolve, hspot, hleft⟩ := moveTo_ok hmoved
    rw [hleft]
    refine ⟨fun hs => ?_, fun hlink => hbody.links hlink, rfl, hbody.host⟩
    have hlast : ({ last with saved := s.saved } : Disk).Grounded := (hlast hs).elsewhere last.here s.saved
    exact (firm_of_spot (hlast.firmAt hresolve) hspot).elsewhere back s.saved
  · rw [hleft]
    exact ⟨fun hs => (hlast hs).elsewhere last.here s.saved, fun hlink => hbody.links hlink, rfl, hbody.host⟩

/-- **Programs** keep what every one of their actions keeps. -/
theorem Runs.steady (h : Runs rules d s) : d.Steady s := by
  induction h with
  | rest => exact .refl _
  | act _ action ih => exact ih.trans (ends_perform_acts rules action _).outcome.1
  | refused _ hrefused ih => exact (store_of_refused hrefused).symm ▸ ih
  | block _ hentered _ ih ihbody => exact ih.trans (.block hentered ihbody)

theorem Runs.trans (h : Runs rules d s) (hafter : Runs rules s after) : Runs rules d after := by
  induction hafter with
  | rest => exact h
  | act _ action ih => exact .act (ih h) action
  | refused _ hrefused ih => exact .refused (ih h) hrefused
  | block _ hentered hbody ih _ => exact .block (ih h) hentered hbody

/-! ## What programs can rely on -/

/-- What a program can rely on from where it has come to. -/
structure Governed (rules : Rules) (s : Disk) : Prop where
  /-- Faults that are let through by actions. -/
  acts (action : Action) (fault : SystemFault) :
    (Op.outcome (action.perform rules) s).1 = .error (.system fault) ↔ s.Bare action fault
  /-- Faults that are let through when a block is entered. -/
  enters (path : Text) (fault : SystemFault) :
    (Op.outcome (Storage.enter path) s).1 = .error (.system fault) ↔ s.here.gone ≠ [] ∧ fault = .ofErrno Errno.noEntry
  stays {path : Text} {failure : Failure} : (Op.outcome (Storage.enter path) s).1 = .error failure →
    (Op.outcome (Storage.enter path) s).2.store = s
  /-- A block goes back as long as there is a way. -/
  returns {path : Text} {last : Disk} : (Op.outcome (Storage.enter path) s).1 = .ok () →
    Runs rules (Op.outcome (Storage.enter path) s).2.store last → last.Back s.here.live →
      (Op.outcome Storage.leave last).1 = .ok () ∧
        (Op.outcome Storage.leave last).2.store = { last with here := s.here, saved := s.saved }
  /-- Otherwise it ends where it is. -/
  strands {path : Text} {last : Disk} : (Op.outcome (Storage.enter path) s).1 = .ok () →
    Runs rules (Op.outcome (Storage.enter path) s).2.store last → ¬ last.Back s.here.live →
      (∃ code, (Op.outcome Storage.leave last).1 = .error (.system (.about code (Route.text s.here.live)))) ∧
        (Op.outcome Storage.leave last).2.store = { last with saved := s.saved }

theorem enter_eq_system_iff {fault : SystemFault} (path : Text) (s : Disk) :
    (Op.outcome (Storage.enter path) s).1 = .error (.system fault) ↔
      s.here.gone ≠ [] ∧ fault = .ofErrno Errno.noEntry := by
  rcases (ends_enter path s).outcome with
    ⟨hgone, hresult, -⟩ | ⟨hthere, ⟨failure, hresult, hpath, -⟩ | ⟨spot, hresult, -, -⟩⟩
  · rw [hresult]
    constructor
    · rintro ⟨⟩
      exact ⟨hgone, rfl⟩
    · rintro ⟨-, rfl⟩
      rfl
  · rw [hresult]
    constructor
    · rintro ⟨⟩
      rcases hpath with ⟨cause, path, ⟨⟩⟩ | ⟨fault, ⟨⟩⟩
    · exact fun h => absurd hthere h.1
  · rw [hresult]
    exact ⟨nofun, fun h => absurd hthere h.1⟩

/-- What is left of a program when it leaves a block for the directory that it entered it from. -/
theorem leave_of_block (hs : s.Grounded) (hentered : (Op.outcome (Storage.enter path) s).1 = .ok ())
    (hbody : Runs rules (Op.outcome (Storage.enter path) s).2.store last) :
    (last.Back s.here.live ∧ (Op.outcome Storage.leave last).1 = .ok () ∧
        (Op.outcome Storage.leave last).2.store = { last with here := s.here, saved := s.saved }) ∨
      ¬ last.Back s.here.live ∧
        (∃ code, (Op.outcome Storage.leave last).1 = .error (.system (.about code (Route.text s.here.live)))) ∧
        (Op.outcome Storage.leave last).2.store = { last with saved := s.saved } := by
  obtain ⟨hthere, spot, hfirm, hstore⟩ := entered_of hentered
  have hsteady := hbody.steady
  rw [hstore] at hsteady
  have hlast : ({ last with saved := s.saved } : Disk).Grounded :=
    (hsteady.grounded ((hfirm hs).elsewhere spot _)).elsewhere last.here s.saved
  -- A directory that was there may have been removed since, but no link can have come in its place.
  have hlinks : ∀ above, above <+: s.here.live → ∀ target, last.find? above ≠ some (.link target) := by
    intro above habove target hlink
    obtain ⟨mode, hmode⟩ := hs.way above habove
    have hwas : s.find? above = some (.link target) := hsteady.links hlink
    rw [hmode] at hwas
    cases hwas
  have hhere : s.here = ⟨s.here.live, []⟩ := by rw [← hthere]
  rcases (ends_leave hsteady.saved).outcome with ⟨hresult, hmoved⟩ | ⟨code, hrefused, hresult, hleft⟩
  · obtain ⟨hback, hleft⟩ := back_of_moveTo hs.named hlast hlinks hmoved
    refine .inl ⟨⟨hback.way, hback.path, hback.names⟩, hresult, ?_⟩
    rw [hleft, hhere]
  · refine .inr ⟨fun hback => ?_, ⟨code, hresult⟩, hleft⟩
    have hback : ({ last with saved := s.saved } : Disk).Back s.here.live := ⟨hback.way, hback.path, hback.names⟩
    have hmoved := hback.moveTo hs.named
    rw [hrefused] at hmoved
    cases hmoved

theorem Governed.of_grounded (hs : s.Grounded) : s.Governed rules where
  acts action fault := perform_eq_system_iff rules action s fault
  enters path fault := enter_eq_system_iff path s
  stays := store_of_refused
  returns hentered hbody hback := by
    rcases leave_of_block hs hentered hbody with ⟨-, hleft⟩ | ⟨hno, -⟩
    · exact hleft
    · exact absurd hback hno
  strands hentered hbody hno := by
    rcases leave_of_block hs hentered hbody with ⟨hback, -⟩ | ⟨-, hleft⟩
    · exact absurd hback hno
    · exact hleft

/-- The disks that a program may come to, inside of blocks as well. -/
inductive Visits (rules : Rules) : Disk → Disk → Prop
  | here {d s : Disk} (h : Runs rules d s) : Visits rules d s
  | inside {d s after : Disk} (h : Runs rules d s) {path : Text}
      (hentered : (Op.outcome (Storage.enter path) s).1 = .ok ())
      (hinside : Visits rules (Op.outcome (Storage.enter path) s).2.store after) : Visits rules d after

theorem Visits.grounded (hd : d.Grounded) (h : Visits rules d s) : s.Grounded := by
  induction h with
  | here h => exact h.steady.grounded hd
  | inside h hentered _ ih =>
    obtain ⟨-, spot, hfirm, hstore⟩ := entered_of hentered
    refine ih ?_
    rw [hstore]
    exact (hfirm (h.steady.grounded hd)).elsewhere spot _

/-- **Wherever a program comes to**, faults are let through only for the working directory and for paths that are
too long, and a block ends in the directory that it was entered from if there is a way back to it. -/
theorem governed_of_visits (hd : d.Grounded) (h : Visits rules d s) : s.Governed rules :=
  .of_grounded (h.grounded hd)

/-- Inside of a directory with another one in it. -/
def nested : Disk :=
  let made := (Op.outcome (Action.perform {} (.makeDir ['a'])) (atRoute [])).2.store
  let entered := (Op.outcome (Storage.enter ['a']) made).2.store
  (Op.outcome (Action.perform {} (.makeDir ['b'])) entered).2.store

/-- Both of them removed, still inside. -/
def stranded : Disk := (Op.outcome (Action.perform {} (.removeTree ['/', 'a'])) nested).2.store

theorem runs_nested :
    Runs {}
      (Op.outcome (Storage.enter ['a'])
        (Op.outcome (Action.perform {} (.makeDir ['a'])) (atRoute [])).2.store).2.store
      nested := .act .rest (.makeDir ['b'])

theorem visits_nested : Visits {} (atRoute []) nested :=
  .inside (.act .rest (.makeDir ['a'])) rfl (.here runs_nested)

theorem visits_stranded : Visits {} (atRoute []) stranded :=
  .inside (.act .rest (.makeDir ['a'])) rfl (.here (.act runs_nested (.removeTree ['/', 'a'])))

/-- What holds where the working directory has been removed. -/
theorem governed_stranded :
    (atRoute []).Grounded ∧ Visits {} (atRoute []) stranded ∧ stranded.Governed {} :=
  ⟨grounded_atRoot, visits_stranded, governed_of_visits grounded_atRoot visits_stranded⟩

/-- A fault is let through where the working directory has been removed, and a block that is left there is not
left for the directory that it was entered from. -/
theorem stranded_faults :
    Visits {} (atRoute []) stranded ∧
      (Op.outcome (Action.perform {} .workingDir) stranded).1 = .error (.system (.ofErrno Errno.noEntry)) ∧
      ∃ s last, Visits {} (atRoute []) s ∧ (Op.outcome (Storage.enter ['b']) s).1 = .ok () ∧
        Runs {} (Op.outcome (Storage.enter ['b']) s).2.store last ∧
        (Op.outcome Storage.leave last).1 = .error (.system (.about Errno.noEntry ['/', 'a'])) ∧
        (Op.outcome Storage.leave last).2.store.here ≠ s.here := by
  refine ⟨visits_stranded, rfl, nested, _, visits_nested, rfl, .act .rest (.removeTree ['/', 'a']), rfl, ?_⟩
  decide

end Disk

/-! ## Scripts -/

namespace Step

open Disk

mutual

theorem runs_run (rules : Rules) (d : Disk) (step : Step Action) :
    Runs rules d (run (Action.perform rules) d step).after :=
  match step with
  | .act action => .act .rest action
  | .giveUp text => .rest
  | .within path body => by
    rw [run]
    cases hentered : Op.outcome (Storage.enter path) d with
    | mk result world =>
      cases result with
      | error failure =>
        have hrefused : (Op.outcome (Storage.enter path) d).1 = .error failure := by rw [hentered]
        have hruns : Runs rules d _ := .refused .rest hrefused
        rw [hentered] at hruns
        exact hruns
      | ok value =>
        have hok : (Op.outcome (Storage.enter path) d).1 = .ok () := by rw [hentered]
        have hbody := runs_runBlock rules (Op.outcome (Storage.enter path) d).2.store body
        have hruns := Runs.block .rest hok hbody
        rw [hentered] at hruns
        dsimp only
        rw [after_close]
        exact hruns

theorem runs_runBlock (rules : Rules) (d : Disk) (steps : List (Step Action)) :
    Runs rules d (final d (runBlock (Action.perform rules) d steps)) :=
  match steps with
  | [] => .rest
  | step :: rest => by
    have hstep := runs_run rules d step
    rw [runBlock]
    split
    · exact hstep
    · rw [final_cons]
      exact hstep.trans (runs_runBlock rules _ rest)

end

/-- **A script** is a program. -/
theorem runs_runAll (rules : Rules) (d : Disk) (steps : List (Step Action)) :
    Runs rules d (final d (runAll (Action.perform rules) d steps)) := by
  induction steps generalizing d with
  | nil => exact .rest
  | cons step rest ih =>
    have hstep := runs_run rules d step
    rw [runAll, final_cons]
    exact hstep.trans (ih _)

/-- What holds between the steps of scripts. -/
theorem governed_final {rules : Rules} {d : Disk} (hd : d.Grounded) (steps : List (Step Action)) :
    (final d (runAll (Action.perform rules) d steps)).Governed rules :=
  .of_grounded ((runs_runAll rules d steps).steady.grounded hd)

end Step

end Linework
