import Linework.Action
import Linework.Proofs.Disk.Writing

/-!
# The way to the working directory

A disk is grounded when there are directories all the way to what is left of its working directory. Whatever
an action does, and whether or not it succeeds, it keeps the disk grounded, it adds no link, and it leaves alone
what blocks are to go back to (`ends_perform_acts`). It fails with a fault that no storage took charge of
only where it asks for a working directory that has been removed, or looks up a path that is too long
(`perform_eq_system_iff`).
-/

namespace Linework

namespace Action

/-- The path that an action looks up before it does anything. -/
def looksUp? : Action → Option Text
  | touch path | hasEntry path | isDir path | copy path _ => some path
  | edit path e => if e.creates then some path else none
  | _ => none

/-- Whether an action asks for the working directory. -/
def asksHere : Action → Bool
  | workingDir | expand _ none => true
  | expand path (some base) => (HostPath.joined base path).head? != some ('/' : CodePoint)
  | _ => false

end Action

namespace Disk

open Op Failure

def Grounded (d : Disk) : Prop := d.Firm d.here.live

theorem grounded_atRoot : (atRoute []).Grounded := ⟨nofun, open_atRoute []⟩

/-- What every action leaves alone. -/
structure Steady (d after : Disk) : Prop where
  grounded : d.Grounded → after.Grounded
  links {route : Route} {target : Text} : after.find? route = some (.link target) →
    d.find? route = some (.link target)
  saved : after.saved = d.saved
  host : after.host = d.host

variable {d made after : Disk} {route : Route} {path : Text} {bytes : List UInt8} {entry : DiskEntry}

namespace Steady

theorem refl (d : Disk) : d.Steady d := ⟨id, id, rfl, rfl⟩

theorem trans (h : d.Steady made) (hafter : made.Steady after) : d.Steady after where
  grounded hd := hafter.grounded (h.grounded hd)
  links hlink := h.links (hafter.links hlink)
  saved := hafter.saved.trans h.saved
  host := hafter.host.trans h.host

theorem of_grown (h : d.Grown none after) : d.Steady after where
  grounded hd := by
    rw [Grounded, h.here]
    exact h.carries.firm hd
  links hlink := by
    rcases h.was nofun hlink with hwas | ⟨-, mode, ⟨⟩⟩
    exact hwas
  saved := h.saved
  host := h.host

theorem of_filled (h : d.Filled route bytes after) : d.Steady after where
  grounded hd := by
    rw [Grounded, h.here]
    exact h.carries.firm hd
  links {other target} hlink := by
    by_cases hother : other = route
    · subst hother
      obtain ⟨mode, hmode, -⟩ := h.file
      rw [hlink] at hmode
      cases hmode
    · rcases h.was (fun heq => hother (Option.some.inj heq).symm) hlink with hwas | ⟨-, mode, ⟨⟩⟩
      exact hwas
  saved := h.saved
  host := h.host

end Steady

/-! ## Removal -/

theorem links_erase {target : Text} {other : Route} (hlink : (d.erase route).find? other = some (.link target)) :
    d.find? other = some (.link target) := by
  rw [find?_erase] at hlink
  split at hlink
  · cases hlink
  · exact hlink

theorem links_clear {target : Text} {other : Route} (hlink : (d.clear route).find? other = some (.link target)) :
    d.find? other = some (.link target) := by
  rw [find?_clear] at hlink
  split at hlink
  · cases hlink
  · exact hlink

theorem here_erase (d : Disk) (route : Route) : (d.erase route).here =
    if d.here.live = route then ⟨route.dropLast, d.modeAt route :: d.here.gone⟩ else d.here := rfl

/-- What is no directory is not on the way to the working directory. -/
theorem Steady.erase (hentry : d.find? route = some entry) (hfile : ∀ mode, entry ≠ .directory mode) :
    d.Steady (d.erase route) where
  grounded hd := by
    have hway : ∀ above, above <+: d.here.live → above ≠ route := by
      rintro above habove rfl
      obtain ⟨mode, hmode⟩ := hd.way above habove
      rw [hmode] at hentry
      exact hfile mode (Option.some.inj hentry).symm
    have hhere : (d.erase route).here = d.here := by rw [here_erase, if_neg (hway _ (List.prefix_refl _))]
    rw [Grounded, hhere]
    refine ⟨hd.named, fun above habove => ?_⟩
    rw [find?_erase, if_neg (hway above habove)]
    exact hd.way above habove
  links := links_erase
  saved := rfl
  host := rfl

/-- The working directory is at a route that has been cleared, or outside of it. -/
theorem here_clear (d : Disk) (route : Route) :
    (d.clear route).here.live = route ∨
      (d.clear route).here = d.here ∧ ¬ route <+: d.here.live := by
  show (d.hereBelow route).live = route ∨ d.hereBelow route = d.here ∧ _
  unfold hereBelow
  split
  · exact .inl rfl
  · rename_i hpre
    exact .inr ⟨rfl, fun hprefix => hpre (List.isPrefixOf_iff_prefix.2 hprefix)⟩

theorem Steady.clear (hroute : d.Grounded → d.Firm route) : d.Steady (d.clear route) where
  grounded hd := by
    have hfirm : ∀ live, d.Firm live → (route <+: live → live = route) → (d.clear route).Firm live := by
      intro live hlive hout
      refine ⟨hlive.named, fun above habove => ?_⟩
      have hkept : ¬ (route <+: above ∧ above ≠ route) := by
        rintro ⟨hpre, hne⟩
        have hlast := hout (hpre.trans habove)
        subst hlast
        exact hne (habove.eq_of_length_le hpre.length_le)
      rw [find?_clear, if_neg hkept]
      exact hlive.way above habove
    rcases here_clear d route with hhere | ⟨hhere, hout⟩
    · rw [Grounded, hhere]
      exact hfirm route (hroute hd) fun _ => rfl
    · rw [Grounded, hhere]
      exact hfirm _ hd fun hpre => absurd hpre hout
  links := links_clear
  saved := rfl
  host := rfl

/-- Taking away a directory that has been cleared leaves the way to the one above. -/
theorem Steady.erase_clear {live : Route} {name : Text} (hroute : d.Grounded → d.Firm (live ++ [name])) :
    d.Steady ((d.clear (live ++ [name])).erase (live ++ [name])) where
  grounded hd := by
    have hcleared := (Steady.clear hroute).grounded hd
    have hfirm : ∀ way, (d.clear (live ++ [name])).Firm way → ¬ live ++ [name] <+: way →
        ((d.clear (live ++ [name])).erase (live ++ [name])).Firm way := by
      intro way hway hout
      refine ⟨hway.named, fun above habove => ?_⟩
      have hne : above ≠ live ++ [name] := fun heq => hout (heq ▸ habove)
      rw [find?_erase, if_neg hne]
      exact hway.way above habove
    have hbelow : ¬ live ++ [name] <+: live := by
      intro hpre
      have hlength := hpre.length_le
      rw [List.length_append, List.length_singleton] at hlength
      omega
    rcases here_clear d (live ++ [name]) with hhere | ⟨hhere, hout⟩
    · have hmoved : ((d.clear (live ++ [name])).erase (live ++ [name])).here.live = live := by
        rw [here_erase, if_pos hhere, List.dropLast_concat]
      rw [Grounded, hmoved]
      rw [Grounded, hhere] at hcleared
      exact hfirm live (hcleared.above (List.prefix_append _ _)) hbelow
    · have hsame : ((d.clear (live ++ [name])).erase (live ++ [name])).here = d.here := by
        have hne : (d.clear (live ++ [name])).here.live ≠ live ++ [name] := by
          rw [hhere]
          intro heq
          exact hout (heq ▸ List.prefix_refl _)
        rw [here_erase, if_neg hne, hhere]
      rw [Grounded, hsame]
      rw [Grounded, hhere] at hcleared
      exact hfirm _ hcleared hout
  links hlink := links_clear (links_erase hlink)
  saved := rfl
  host := rfl

theorem unlink_ok (h : d.unlink path = .ok after) :
    ∃ route entry, d.find? route = some entry ∧ (∀ mode, entry ≠ .directory mode) ∧ after = d.erase route := by
  unfold unlink at h
  cases hresolve : d.resolve false path with
  | error code =>
    rw [hresolve] at h
    cases h
  | ok found =>
    rw [hresolve] at h
    cases found with
    | missing | removed => cases h
    | entry route entry =>
      have hentry := find?_eq_some_of_resolve hresolve
      cases entry with
      | directory => cases h
      | file | link =>
        cases h
        exact ⟨route, _, hentry, nofun, rfl⟩

theorem removeDirectory_ok {host : HostPath} (h : d.removeDirectory host route = .ok after) :
    ∃ name, host.parts.getLast? = some name ∧ name ≠ HostPath.up ∧ after = d.erase route := by
  unfold removeDirectory at h
  cases hlocate : d.locate { host with parts := host.parts.dropLast }.text with
  | error code =>
    rw [hlocate] at h
    cases h
  | ok found =>
    rw [hlocate] at h
    cases hlast : host.parts.getLast? with
    | none =>
      rw [hlast] at h
      cases h
    | some name =>
      rw [hlast] at h
      refine ⟨name, rfl, ?_⟩
      by_cases hup : name = HostPath.up
      · have hrefused : (if name = HostPath.up then throw Errno.notEmpty else pure (d.erase route) :
            Except Errno Disk) = .ok after := h
        rw [if_pos hup] at hrefused
        cases hrefused
      · have herased : (if name = HostPath.up then throw Errno.notEmpty else pure (d.erase route) :
            Except Errno Disk) = .ok after := h
        rw [if_neg hup] at herased
        cases herased
        exact ⟨hup, rfl⟩

theorem getLast?_pieces_append {front name : Text} (hfront : front = [] ∨ front.getLast? = some ('/' : CodePoint))
    (hbare : ∀ c ∈ name, HostPath.isSlash c = false) : (HostPath.pieces (front ++ name)).getLast? = some name := by
  have hname : HostPath.pieces name = [name] := Text.pieces_of_none hbare
  rcases hfront with rfl | hlast
  · rw [List.nil_append, hname]
    rfl
  · obtain ⟨body, rfl⟩ := List.getLast?_eq_some_iff.1 hlast
    have hcut : HostPath.pieces (body ++ ('/' : CodePoint) :: name) = HostPath.pieces body ++ HostPath.pieces name :=
      Text.pieces_append_cons (by decide) body name
    rw [List.append_assoc, List.singleton_append, hcut, hname, List.getLast?_concat]

/-- The last piece of a path in its collapsed form names an entry, or it is that of the directory above. -/
theorem getLast?_pieces_collapse {name : Text} (h : (HostPath.ofText path).parts.getLast? = some name) :
    (HostPath.pieces (HostPath.collapse path)).getLast? = some name ∧ name ≠ [] ∧ name ≠ (['.'] : Text) := by
  have hmem : name ∈ (HostPath.ofText path).parts := List.mem_of_getLast? h
  obtain ⟨hpiece, hkept⟩ := List.mem_filter.1 hmem
  simp only [Bool.and_eq_true, decide_eq_true_eq] at hkept
  have hbare : ∀ c ∈ name, HostPath.isSlash c = false := Text.sep_eq_false_of_mem_pieces hpiece
  have hroot : (HostPath.ofText path).root = [] ∨ (HostPath.ofText path).root.getLast? = some ('/' : CodePoint) := by
    show HostPath.slashes path = [] ∨ (HostPath.slashes path).getLast? = some ('/' : CodePoint)
    unfold HostPath.slashes
    split
    · exact .inl rfl
    · exact .inr rfl
    · exact .inr rfl
  refine ⟨?_, hkept.1, hkept.2⟩
  obtain ⟨front, hparts⟩ := List.getLast?_eq_some_iff.1 h
  have htext : HostPath.collapse path = (HostPath.ofText path).root ++ Path.ofPieces (front ++ [name]) := by
    rw [HostPath.collapse, HostPath.text, if_neg (by simp [hparts]), hparts]
    rfl
  rw [htext]
  by_cases hfront : front = []
  · subst hfront
    have hone : Path.ofPieces ([] ++ [name]) = name := by simp [Path.ofPieces]
    rw [hone]
    exact getLast?_pieces_append hroot hbare
  · rw [Path.ofPieces_concat hfront, List.append_cons, ← List.append_assoc]
    refine getLast?_pieces_append (.inr ?_) hbare
    rw [← List.append_assoc, List.getLast?_concat]

/-- So it is once it is looked up. -/
theorem getLast?_names_collapse {name : Text} (h : (HostPath.ofText path).parts.getLast? = some name) :
    (HostPath.names (HostPath.collapse path)).getLast? = some name.listed ∧ name.listed ≠ [] ∧
      name.listed ≠ (['.'] : Text) := by
  obtain ⟨hlast, hnil, hdot⟩ := getLast?_pieces_collapse h
  refine ⟨?_, mt (Text.eq_of_listed (by decide)) hnil, mt (Text.eq_of_listed (by decide)) hdot⟩
  rw [HostPath.names, List.getLast?_map, hlast]
  rfl

theorem Grounded.firmAt (h : d.Grounded) {follow : Bool} {found : Found} (hfound : d.resolve follow path = .ok found) :
    d.FirmAt found :=
  (resolve_eq_ok_iff.1 hfound).2.2.firmAt (Firm.at_origin h path) fun _ hpiece => HostPath.shown_of_mem_names hpiece

theorem ends_remove_steady (path : Text) (d : Disk) :
    Ends (remove path) d fun result after => d.Steady after ∧ Only OfPath result := by
  unfold remove
  refine .bind (ends_hostPath_cases (fun _ => ?_) fun fault => ⟨.refl d, ofPath_unusable fault⟩)
  rw [andThen_ok]
  refine .bind (ends_perform_cases (fun after hafter => ?_) fun failure hstorage => ⟨.refl d, .inl hstorage⟩)
  obtain ⟨route, entry, hentry, hfile, rfl⟩ := unlink_ok hafter
  rw [andThen_ok]
  exact ends_note.2 ⟨.erase hentry hfile, trivial⟩

theorem ends_removeTree_steady (path : Text) (d : Disk) :
    Ends (removeTree path) d fun result after => d.Steady after ∧ Only OfPath result := by
  unfold removeTree
  refine .bind (ends_hostPath_cases (fun _ => ?_) fun fault => ⟨.refl d, ofPath_unusable fault⟩)
  rw [andThen_ok]
  refine .bind (ends_answer_cases (fun directory hdirectory => ?_) fun failure hstorage => ⟨.refl d, .inl hstorage⟩)
  clear hdirectory
  rw [andThen_ok]
  refine .get ?_
  have hbelow : ∀ found name, d.resolve false (HostPath.collapse path) = .ok found →
      (HostPath.ofText path).parts.getLast? = some name → name ≠ HostPath.up →
        ∃ live last, found = .missing (live ++ [last]) ∨ ∃ entry, found = .entry (live ++ [last]) entry := by
    intro found name hfound hname hup
    obtain ⟨hlast, hnil, hdot⟩ := getLast?_names_collapse hname
    have hup : name.listed ≠ HostPath.up := mt (Text.eq_of_listed (by decide)) hup
    exact (resolve_eq_ok_iff.1 hfound).2.2.found_below hlast hnil hdot hup
  split
  · rename_i route mode hfound
    have hfirm : d.Grounded → d.Firm route := fun hd => hd.firmAt hfound
    refine .get (.set (.bind (ends_perform_cases (fun after hafter => ?_) fun failure hstorage => ?_)))
    · obtain ⟨name, hname, hup, rfl⟩ := removeDirectory_ok hafter
      obtain ⟨live, last, heq | ⟨entry, heq⟩⟩ := hbelow _ name hfound hname hup
      · cases heq
      · cases heq
        rw [andThen_ok]
        exact ends_note.2 ⟨.erase_clear hfirm, trivial⟩
    · exact ⟨.clear hfirm, .inl hstorage⟩
  · rename_i spot hfound
    refine .bind (ends_perform_cases (fun after hafter => ?_) fun failure hstorage => ⟨.refl d, .inl hstorage⟩)
    obtain ⟨name, hname, hup, -⟩ := removeDirectory_ok hafter
    obtain ⟨live, last, heq | ⟨entry, heq⟩⟩ := hbelow _ name hfound hname hup <;> cases heq
  · refine .bind (ends_perform_cases (fun after hafter => ?_) fun failure hstorage => ⟨.refl d, .inl hstorage⟩)
    obtain ⟨route, entry, hentry, hfile, rfl⟩ := unlink_ok hafter
    rw [andThen_ok]
    exact ends_note.2 ⟨.erase hentry hfile, trivial⟩

/-! ## Permissions -/

theorem Steady.put_alike {entry' : DiskEntry} (hentry : d.find? route = some entry) (halike : entry.Alike entry') :
    d.Steady (d.put route entry') where
  grounded hd := by
    refine ⟨hd.named, fun above habove => ?_⟩
    obtain ⟨mode, hmode⟩ := hd.way above habove
    rw [find?_put]
    split
    · rename_i heq
      rw [heq, hentry] at hmode
      cases hmode
      cases halike
      exact ⟨_, rfl⟩
    · exact ⟨mode, hmode⟩
  links {other target} hlink := by
    rw [find?_put] at hlink
    split at hlink
    · rename_i heq
      cases hlink
      cases halike
      exact heq ▸ hentry
    · exact hlink
  saved := rfl
  host := rfl

theorem alike_setMode (entry : DiskEntry) (mode : Nat) : entry.Alike (entry.setMode mode) := by
  cases entry with
  | directory old => exact .directory old mode
  | file old bytes => exact .file old mode bytes bytes
  | link target => exact .link target

theorem steady_of_changeMode {mode : Nat} (h : d.changeMode path mode = .ok after) : d.Steady after := by
  unfold changeMode at h
  cases hlocate : d.locate path with
  | error code =>
    rw [hlocate] at h
    cases h
  | ok found =>
    rw [hlocate] at h
    cases found with
    | missing => cases h
    | entry route entry =>
      cases h
      exact .put_alike (find?_eq_some_of_resolve (locate_eq_ok_iff.1 hlocate).1) (alike_setMode entry mode)
    | removed spot =>
      have hchanged : (if spot.live = d.here.live then
          pure { d with here.gone := d.here.gone.set (spot.gone.length - 1) mode } else pure d : Except Errno Disk) =
            .ok after := h
      split at hchanged
      · cases hchanged
        exact ⟨fun hd => ⟨hd.named, hd.way⟩, id, rfl, rfl⟩
      · cases hchanged
        exact .refl d

/-! ## All actions -/

/-- A fault that an action fails with as it is, and why. -/
inductive Bare (d : Disk) (action : Action) : SystemFault → Prop
  | lost (hasks : action.asksHere = true) (hgone : d.here.gone ≠ []) : Bare d action (.ofErrno Errno.noEntry)
  | unanswered {path : Text} (hlooks : action.looksUp? = some path) (hpath : HostPath.Takes (HostPath.collapse path))
      (hlong : d.resolve true (HostPath.collapse path) = .error Errno.nameTooLong) :
      Bare d action (.about Errno.nameTooLong (HostPath.collapse path))

/-- A failure that a storage took charge of, or else one that the action is known to let through. -/
def Told (d : Disk) (action : Action) (failure : Failure) : Prop := ∀ fault, failure = .system fault → d.Bare action fault

variable {action : Action} {failure : Failure} {encoding : Text}

theorem told_of_ofPath (h : failure.OfPath) : d.Told action failure := by
  rintro fault rfl
  rcases h with ⟨cause, path, ⟨⟩⟩ | ⟨fault, ⟨⟩⟩

theorem told_of_unanswered (h : d.Unanswered path failure) (hlooks : action.looksUp? = some path) :
    d.Told action failure := by
  rintro fault rfl
  obtain ⟨hpath, hlong, hfault⟩ := h
  cases hfault
  exact .unanswered hlooks hpath hlong

variable {host : Host}

theorem told_of_textOf (h : host.textOf encoding bytes = .error failure) : d.Told action failure := by
  rintro fault rfl
  unfold Host.textOf at h
  split at h
  · cases h
  · rename_i codec _
    cases hdecode : codec.decode bytes <;> rw [hdecode] at h <;> cases h

theorem told_of_bytesOf {content : Text} (h : host.bytesOf encoding content = .error failure) :
    d.Told action failure := by
  rintro fault rfl
  unfold Host.bytesOf at h
  split at h
  · cases h
  · rename_i codec _
    cases hencode : codec.encode content <;> rw [hencode] at h <;> cases h

theorem told_of_unedited (h : Unedited host encoding failure) : d.Told action failure := by
  rcases h with hpath | ⟨bytes, hbytes⟩ | ⟨label, path, rfl⟩
  · exact told_of_ofPath hpath
  · exact told_of_textOf hbytes
  · nofun

/-- What an operation comes to that is done for an action. -/
def Acts {α : Type} (d : Disk) (action : Action) (result : Except Failure α) (after : Disk) : Prop :=
  d.Steady after ∧ Only (d.Told action) result

theorem acts_error {α : Type} (h : d.Steady after) (htold : d.Told action failure) :
    d.Acts action (.error failure : Except Failure α) after := ⟨h, htold⟩

theorem acts_ok {α : Type} (h : d.Steady after) (value : α) : d.Acts action (.ok value) after := ⟨h, trivial⟩

theorem acts_map {α β : Type} {op : Op Disk α} {f : α → β} (h : Ends op d (d.Acts action)) :
    Ends (op >>= fun value => pure (f value)) d (d.Acts action) := by
  refine .map (h.mono ?_)
  rintro (failure | value) after hacts
  · exact hacts
  · exact acts_ok hacts.1 _

theorem acts_of_ofPath {α : Type} {op : Op Disk α}
    (h : Ends op d fun result after => d.Steady after ∧ Only OfPath result) : Ends op d (d.Acts action) := by
  refine h.mono ?_
  rintro (failure | value) after ⟨hsteady, honly⟩
  · exact acts_error hsteady (told_of_ofPath honly)
  · exact acts_ok hsteady value

theorem acts_of_wrote {content : Text} {result : Except Failure Unit} (hmade : d.Steady made)
    (h : made.Wrote encoding path content result after) : d.Acts action result after := by
  cases result with
  | ok value =>
    obtain ⟨-, route, bytes, -, -, hfilled⟩ := h
    exact acts_ok (hmade.trans (.of_filled hfilled)) value
  | error failure =>
    rcases h with ⟨hpath, hafter⟩ | ⟨hbytes, route, -, hfilled⟩
    · exact acts_error (hmade.trans (.of_grown hafter.grown)) (told_of_ofPath hpath)
    · exact acts_error (hmade.trans (.of_filled hfilled)) (told_of_bytesOf hbytes)

theorem ends_touch_acts (hlooks : action.looksUp? = some path) : Ends (touch path) d (d.Acts action) := by
  refine (ends_touch path d).mono ?_
  rintro (failure | value) after htouched
  · obtain ⟨hmade, hpath | hunanswered⟩ := htouched
    · exact acts_error (.of_grown hmade.grown) (told_of_ofPath hpath)
    · exact acts_error (.of_grown hmade.grown) (told_of_unanswered hunanswered hlooks)
  · rcases htouched with hmade | ⟨-, route, made, -, -, hfilled⟩
    · exact acts_ok (.of_grown hmade.grown) value
    · exact acts_ok (.of_filled hfilled) value

theorem ends_rewrite_acts (files lines : Settings) (path : Text) (e : Edit) (hmade : d.Steady made) :
    Ends (Storage.rewrite files lines path e) made (d.Acts action) := by
  refine (ends_rewrite files lines path e made).mono ?_
  rintro result after (⟨rfl, failure, rfl, hunedited⟩ | ⟨content, splice, -, -, hwrote⟩)
  · exact acts_error hmade (told_of_unedited hunedited)
  · exact acts_of_wrote hmade hwrote

theorem ends_edit_acts (rules : Rules) (path : Text) (e : Edit) (d : Disk) :
    Ends (Storage.edit rules.edited rules.lines path e) d (d.Acts (.edit path e)) := by
  rw [Storage.edit_eq]
  split
  · rename_i hcreates
    have hlooks : (Action.edit path e).looksUp? = some path := if_pos hcreates
    refine .bind ((ends_touch_acts hlooks).mono ?_)
    rintro (failure | _) touched ⟨hsteady, honly⟩
    · exact acts_error hsteady honly
    · exact ends_rewrite_acts _ _ path e hsteady
  · exact ends_rewrite_acts _ _ path e (.refl d)

theorem ends_copy_acts (source destination : Text) (d : Disk) :
    Ends (copy source destination) d (d.Acts (.copy source destination)) := by
  refine (ends_copy source destination d).mono ?_
  rintro (failure | value) after hcopied
  · obtain ⟨hmade, hpath | hunanswered⟩ := hcopied
    · exact acts_error (.of_grown hmade.grown) (told_of_ofPath hpath)
    · exact acts_error (.of_grown hmade.grown) (told_of_unanswered hunanswered rfl)
  · obtain ⟨route, bytes, hfilled⟩ := hcopied
    exact acts_ok (.of_filled hfilled) value

theorem ends_read_acts (encoding path : Text) (d : Disk) : Ends (read encoding path) d (d.Acts action) := by
  refine (ends_read encoding path d).mono ?_
  rintro (failure | content) d ⟨rfl, hread⟩
  · rcases hread with hpath | ⟨bytes, hbytes⟩
    · exact acts_error (.refl d) (told_of_ofPath hpath)
    · exact acts_error (.refl d) (told_of_textOf hbytes)
  · exact acts_ok (.refl d) content

theorem ends_makeDir_acts (path : Text) (d : Disk) : Ends (makeDir path) d (d.Acts action) := by
  refine acts_of_ofPath ((ends_makeDir path d).mono fun result after hmade => ?_)
  exact ⟨.of_grown hmade.1.grown, hmade.2⟩

theorem ends_workingDir (d : Disk) :
    Ends workingDir d fun result after => after = d ∧
      ((d.here.gone = [] ∧ result = .ok (Route.text d.here.live)) ∨
        d.here.gone ≠ [] ∧ result = .error (.system (.ofErrno Errno.noEntry))) := by
  unfold workingDir
  refine .get ?_
  unfold pwd?
  by_cases hgone : d.here.gone = []
  · rw [if_pos hgone]
    exact ends_pure.2 ⟨rfl, .inl ⟨hgone, rfl⟩⟩
  · rw [if_neg hgone]
    exact ends_throw.2 ⟨rfl, .inr ⟨hgone, rfl⟩⟩

theorem ends_workingDir_acts (hasks : action.asksHere = true) (d : Disk) : Ends workingDir d (d.Acts action) := by
  refine (ends_workingDir d).mono ?_
  rintro _ d ⟨rfl, ⟨-, rfl⟩ | ⟨hgone, rfl⟩⟩
  · exact acts_ok (.refl d) _
  · refine acts_error (.refl d) ?_
    rintro _ ⟨⟩
    exact .lost hasks hgone

theorem ends_expand_acts (path : Text) (base : Option Text) (d : Disk) :
    Ends (expand path base) d (d.Acts (.expand path base)) := by
  have hrest : ∀ directory, (base = none ∨ base = some directory) →
      Ends (if (HostPath.joined directory path).head? = some ('/' : CodePoint) then
          (return HostPath.normalize (HostPath.joined directory path) : Op Disk Text)
        else do return HostPath.normalize (HostPath.joined (← workingDir) (HostPath.joined directory path)))
        d (d.Acts (.expand path base)) := by
    intro directory hbase
    split
    · exact ends_pure.2 (acts_ok (.refl d) _)
    · rename_i hrelative
      refine acts_map (ends_workingDir_acts ?_ d)
      rcases hbase with rfl | rfl
      · rfl
      · simpa [Action.asksHere] using hrelative
  unfold expand
  cases base with
  | none =>
    refine .bind ((ends_workingDir d).mono ?_)
    rintro _ d ⟨rfl, ⟨-, rfl⟩ | ⟨hgone, rfl⟩⟩
    · exact hrest _ (.inl rfl)
    · refine acts_error (.refl d) ?_
      rintro _ ⟨⟩
      exact .lost rfl hgone
  | some base => exact .bind (ends_pure.2 (hrest base (.inr rfl)))

/-- **Every action** keeps what it must leave alone, and tells its faults through the storage but for some. -/
theorem ends_perform_acts (rules : Rules) (action : Action) (d : Disk) :
    Ends (action.perform rules) d (d.Acts action) := by
  have hpath : ∀ {α : Type} {path : Text} {op : Op Disk α}, Ends op d (d.Acts action) →
      Ends (usable path >>= fun _ => op) d (d.Acts action) := by
    intro α path op hop
    exact .bind (ends_usable_cases (fun _ => hop) fun fault =>
      acts_error (.refl d) (told_of_ofPath (ofPath_unusable fault)))
  have hasked : ∀ {α : Type} {path : Text} {request : Disk → Except Errno α},
      Ends (answer path request) d (d.Acts action) := by
    intro α path request
    exact ends_answer_cases (fun value _ => acts_ok (.refl d) value) fun failure hstorage =>
      acts_error (.refl d) (told_of_ofPath (.inl hstorage))
  have hlooked : ∀ {α : Type} {path : Text} {op : Op Disk α}, action.looksUp? = some path →
      Ends op d (fun result after => after = d ∧ Only (d.Unanswered path) result) → Ends op d (d.Acts action) := by
    intro α path op hlooks hop
    refine hop.mono ?_
    rintro (failure | value) d ⟨rfl, honly⟩
    · exact acts_error (.refl d) (told_of_unanswered honly hlooks)
    · exact acts_ok (.refl d) value
  cases action with
  | touch path => exact acts_map (ends_touch_acts rfl)
  | read path => exact acts_map (ends_read_acts _ path d)
  | readLines path => exact acts_map (acts_map (ends_read_acts _ path d))
  | write path content =>
    exact acts_map ((ends_write _ path content d).mono fun _ _ hwrote => acts_of_wrote (.refl d) hwrote)
  | copy source destination => exact acts_map (ends_copy_acts source destination d)
  | makeDir path | makeParents path => exact acts_map (ends_makeDir_acts _ d)
  | remove path => exact acts_map (acts_of_ofPath (ends_remove_steady path d))
  | removeTree path => exact acts_map (acts_of_ofPath (ends_removeTree_steady path d))
  | workingDir => exact acts_map (ends_workingDir_acts rfl d)
  | join tokens => exact ends_pure.2 (acts_ok (.refl d) _)
  | expand path base => exact acts_map (ends_expand_acts path base d)
  | setMode path bits =>
    refine acts_map (hpath (ends_perform_cases (fun after hafter => ?_) fun failure hstorage => ?_))
    · exact acts_ok (steady_of_changeMode hafter) ()
    · exact acts_error (.refl d) (told_of_ofPath (.inl hstorage))
  | mode path | entries path => exact acts_map (hpath hasked)
  | hasEntry path => exact acts_map (hlooked rfl (ends_hasEntry path d))
  | isDir path => exact acts_map (hlooked rfl (ends_isDir path d))
  | isExecutable path => exact acts_map (hpath (.get (ends_pure.2 (acts_ok (.refl d) _))))
  | edit path e => exact acts_map (ends_edit_acts rules path e d)

/-! ## Faults that are let through -/

variable {fault : SystemFault}

theorem ends_isDir_unanswered (hpath : HostPath.Takes (HostPath.collapse path))
    (hlong : d.resolve true (HostPath.collapse path) = .error Errno.nameTooLong) :
    Ends (isDir path) d fun result _ =>
      result = .error (.system (.about Errno.nameTooLong (HostPath.collapse path))) := by
  have hrefused : d.leadsToDirectory (HostPath.collapse path) = .error Errno.nameTooLong := by
    unfold leadsToDirectory
    rw [hlong]
    rfl
  unfold isDir
  dsimp only
  rw [if_neg (not_not.2 hpath)]
  exact ends_query_refused hrefused rfl

theorem ends_hasEntry_unanswered (hpath : HostPath.Takes (HostPath.collapse path))
    (hlong : d.resolve true (HostPath.collapse path) = .error Errno.nameTooLong) :
    Ends (hasEntry path) d fun result _ =>
      result = .error (.system (.about Errno.nameTooLong (HostPath.collapse path))) := by
  have hrefused : d.lookUp (HostPath.collapse path) = .error Errno.nameTooLong := by
    unfold lookUp
    rw [hlong]
    rfl
  unfold hasEntry
  dsimp only
  rw [if_neg (not_not.2 hpath)]
  exact .bind (ends_query_refused hrefused rfl)

theorem ends_touch_unanswered (hpath : HostPath.Takes (HostPath.collapse path))
    (hlong : d.resolve true (HostPath.collapse path) = .error Errno.nameTooLong) :
    Ends (touch path) d fun result _ =>
      result = .error (.system (.about Errno.nameTooLong (HostPath.collapse path))) := by
  unfold touch
  exact .fails (ends_isDir_unanswered hpath hlong)

/-- Where there is no working directory, whoever asks for it fails. -/
theorem ends_asksHere (rules : Rules) (hasks : action.asksHere = true) (hgone : d.here.gone ≠ []) :
    Ends (action.perform rules) d fun result _ => result = .error (.system (.ofErrno Errno.noEntry)) := by
  have hlost : Ends workingDir d fun result _ => result = .error (.system (.ofErrno Errno.noEntry)) := by
    refine (ends_workingDir d).mono ?_
    rintro result _ ⟨rfl, ⟨hno, -⟩ | ⟨-, hresult⟩⟩
    · exact absurd hno hgone
    · exact hresult
  cases action with
  | workingDir => exact .fails hlost
  | expand path base =>
    have hexpand : Ends (expand path base) d fun result _ => result = .error (.system (.ofErrno Errno.noEntry)) := by
      unfold expand
      cases base with
      | none => exact .fails hlost
      | some base =>
        have hrelative : (HostPath.joined base path).head? ≠ some ('/' : CodePoint) := by
          simpa [Action.asksHere] using hasks
        refine .bind (ends_pure.2 ?_)
        rw [andThen_ok]
        dsimp only
        rw [if_neg hrelative]
        exact .fails hlost
    exact .fails hexpand
  | _ => cases hasks

theorem ends_bare (rules : Rules) (h : d.Bare action fault) :
    Ends (action.perform rules) d fun result _ => result = .error (.system fault) := by
  cases h with
  | lost hasks hgone => exact ends_asksHere rules hasks hgone
  | @unanswered path hlooks hpath hlong =>
    cases action with
    | touch =>
      cases hlooks
      exact .fails (ends_touch_unanswered hpath hlong)
    | hasEntry =>
      cases hlooks
      exact .fails (ends_hasEntry_unanswered hpath hlong)
    | isDir =>
      cases hlooks
      exact .fails (ends_isDir_unanswered hpath hlong)
    | copy =>
      cases hlooks
      exact .fails (.fails (ends_hasEntry_unanswered hpath hlong))
    | edit other e =>
      have hcreates : e.creates = true := by
        by_contra hno
        have hnone : (Action.edit other e).looksUp? = none := if_neg hno
        rw [hnone] at hlooks
        cases hlooks
      have hsame : (Action.edit other e).looksUp? = some other := if_pos hcreates
      cases hsame.symm.trans hlooks
      have hedit : Ends (Storage.edit rules.edited rules.lines path e) d fun result _ =>
          result = .error (.system (.about Errno.nameTooLong (HostPath.collapse path))) := by
        rw [Storage.edit_eq, if_pos hcreates]
        exact .fails (ends_touch_unanswered hpath hlong)
      exact .fails hedit
    | _ => cases hlooks

/-- **A fault is let through** by an action only where it asks for a working directory that is gone, or looks up a
path that is too long, and there it is. -/
theorem perform_eq_system_iff (rules : Rules) (action : Action) (d : Disk) (fault : SystemFault) :
    (Op.outcome (action.perform rules) d).1 = .error (.system fault) ↔ d.Bare action fault := by
  constructor
  · intro hfailed
    have hacts := (ends_perform_acts rules action d).outcome
    rw [hfailed] at hacts
    exact hacts.2 fault rfl
  · exact fun hbare => (ends_bare rules hbare).outcome

end Disk

end Linework
