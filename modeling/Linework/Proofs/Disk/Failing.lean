import Linework.Action
import Linework.Proofs.Disk.ReadBack

/-!
# What failed actions leave on a disk

The actions that write a file, on any disk and by any rules, when they fail. All that was there is there still,
with directories added on the way to the file perhaps, but for one case: a text that has no bytes in its encoding
is refused only once its file has been opened, and then the file is empty (`leaves_of_failed`). An appending edit
may leave an empty file where there was none.
-/

namespace Linework

namespace Action

/-- The path of the file that an action writes. -/
def written? : Action → Option Text
  | write path _ | copy _ path | edit path _ => some path
  | _ => none

/-- Whether an action creates its file before it reads it. -/
def creates : Action → Bool
  | edit _ e => e.creates
  | _ => false

/-- Whether an action failed for the text that it was writing, once the file had been opened. -/
def spoils : Action → Failure → Bool
  | write _ _, .unknownEncoding _ => true
  | _, .unencodable _ => true
  | _, _ => false

end Action

namespace Disk

open Op

/-- What an action that failed leaves of a disk, the file that it had opened included. -/
structure Leaves (d : Disk) (action : Action) (path : Text) (failure : Failure) (opened : Option Route)
    (after : Disk) : Prop where
  /-- Directories may have been added, and the opened file is empty; all else is as it was. -/
  left : match opened with
    | none => d.Grown none after
    | some route => d.Filled route [] after
  /-- A refused text has its file opened, and it is the file that the path leads to. -/
  spoiled : action.spoils failure = true → ∃ route, opened = some route ∧ ∀ other mode bytes,
    d.Firm d.here.live → d.locate (HostPath.collapse path) = .ok (.entry other (.file mode bytes)) → route = other
  /-- A file is opened for a refused text or else because it is created. -/
  spared : ∀ route, opened = some route →
    action.spoils failure = true ∨ action.creates = true ∧ d.find? route = none
  /-- Where the parents are there nothing is left behind, unless the text is refused or the file is created. -/
  unchanged : action.spoils failure = false →
    d.leadsToDirectory (HostPath.collapse (Path.parent path)) = .ok true →
    (action.creates = true → ∃ found, d.locate (HostPath.collapse path) = .ok found) → after = d

variable {host : Host} {d made opened after : Disk} {action : Action} {path encoding : Text} {failure : Failure} {route other : Route}

theorem spoils_of_ofPath (action : Action) (h : failure.OfPath) : action.spoils failure = false := by
  rcases h with ⟨cause, path, rfl⟩ | ⟨fault, rfl⟩
  · cases action <;> rfl
  · cases action <;> rfl

theorem spoils_of_unanswered (action : Action) (h : d.Unanswered path failure) : action.spoils failure = false := by
  obtain ⟨-, -, rfl⟩ := h
  cases action <;> rfl

theorem bytesOf_refused {content : Text} (h : host.bytesOf encoding content = .error failure) :
    (∃ refusal, host.codecs encoding = .error refusal ∧ failure = .unknownEncoding refusal) ∨
      ∃ fault, failure = .unencodable fault := by
  unfold Host.bytesOf at h
  split at h
  · cases h
    exact .inl ⟨_, ‹_›, rfl⟩
  · rename_i codec _
    cases hencode : codec.encode content with
    | ok bytes =>
      rw [hencode] at h
      cases h
    | error fault =>
      rw [hencode] at h
      cases h
      exact .inr ⟨fault, rfl⟩

theorem textOf_refused {bytes : List UInt8} (h : host.textOf encoding bytes = .error failure) :
    (∃ refusal, failure = .unknownEncoding refusal) ∨ ∃ fault, failure = .undecodable fault := by
  unfold Host.textOf at h
  split at h
  · cases h
    exact .inl ⟨_, rfl⟩
  · rename_i codec _
    cases hdecode : codec.decode bytes with
    | ok content =>
      rw [hdecode] at h
      cases h
    | error fault =>
      rw [hdecode] at h
      cases h
      exact .inr ⟨fault, rfl⟩

theorem Leaves.of_made (hmade : d.Made (Path.parent path) after) (hspoils : action.spoils failure = false) :
    d.Leaves action path failure none after where
  left := hmade.grown
  spoiled h := by
    rw [hspoils] at h
    cases h
  spared := nofun
  unchanged _ hthere _ := hmade.there hthere

theorem Leaves.of_spoiled (hopens : d.Opens path route) (hfilled : d.Filled route [] after)
    (hspoils : action.spoils failure = true) : d.Leaves action path failure (some route) after where
  left := hfilled
  spoiled _ := ⟨route, rfl, fun _ _ _ hfirm hlocate => hopens.route_eq hfirm hlocate⟩
  spared _ _ := .inl hspoils
  unchanged h := by
    rw [hspoils] at h
    cases h

/-! ## Action by action -/

theorem exists_leaves_write {content : Text} (rules : Rules)
    (hwrote : d.Wrote rules.files.encoding path content (.error failure) after) :
    ∃ opened, d.Leaves (.write path content) path failure opened after := by
  rcases hwrote with ⟨hpath, hmade⟩ | ⟨hbytes, route, hopens, hfilled⟩
  · exact ⟨none, .of_made hmade (spoils_of_ofPath _ hpath)⟩
  · refine ⟨some route, .of_spoiled hopens hfilled ?_⟩
    rcases bytesOf_refused hbytes with ⟨refusal, -, rfl⟩ | ⟨fault, rfl⟩ <;> rfl

/-- The lines of a file have been read, so the encoding is known when it refuses others. -/
theorem spoils_of_reads {content next : Text} {e : Edit} (hreads : d.Reads encoding path content)
    (hbytes : d.host.bytesOf encoding next = .error failure) : (Action.edit path e).spoils failure = true := by
  obtain ⟨_, _, _, _, _, htext⟩ := hreads
  rcases bytesOf_refused hbytes with ⟨refusal, hnone, -⟩ | ⟨fault, rfl⟩
  · unfold Host.textOf at htext
    rw [hnone] at htext
    cases htext
  · rfl

theorem spoils_of_unedited (path : Text) (e : Edit) (h : Unedited host encoding failure) :
    (Action.edit path e).spoils failure = false := by
  rcases h with hpath | ⟨bytes, hbytes⟩ | ⟨label, path, rfl⟩
  · exact spoils_of_ofPath _ hpath
  · rcases textOf_refused hbytes with ⟨refusal, rfl⟩ | ⟨fault, rfl⟩ <;> rfl
  · rfl

/-- What an edit leaves that fails after its file has been looked for. -/
theorem ends_rewrite_leaves (files lines : Settings) (path : Text) (e : Edit) (hmade : d.Made (Path.parent path) made) :
    Ends (Storage.rewrite files lines path e) made fun result after => ∀ failure, result = .error failure →
      ∃ opened, d.Leaves (.edit path e) path failure opened after := by
  refine (ends_rewrite files lines path e made).mono ?_
  rintro result after (⟨rfl, other, rfl, hunedited⟩ | ⟨content, splice, hreads, -, hwrote⟩) failure hfailure
  · cases hfailure
    exact ⟨none, .of_made hmade (spoils_of_unedited path e hunedited)⟩
  · subst hfailure
    rcases hwrote with ⟨hpath, hafter⟩ | ⟨hbytes, route, hopens, hfilled⟩
    · exact ⟨none, .of_made (hmade.trans hafter) (spoils_of_ofPath _ hpath)⟩
    · obtain ⟨last, opened, hlast, hopened⟩ := hopens
      exact ⟨some route, .of_spoiled ⟨last, opened, hmade.trans hlast, hopened⟩ (.of_grown hmade.grown hfilled)
        (spoils_of_reads hreads hbytes)⟩

/-- What an edit leaves that fails after it has created its file. -/
theorem ends_rewrite_created (files lines : Settings) {e : Edit} (hcreates : e.creates = true)
    (hopened : made.openFile (HostPath.collapse path) = .ok (route, opened)) (hfilled : d.Filled route [] opened)
    (hnone : d.find? route = none) (hnowhere : ∀ found, d.locate (HostPath.collapse path) ≠ .ok found) :
    Ends (Storage.rewrite files lines path e) opened fun result after => ∀ failure, result = .error failure →
      ∃ opened, d.Leaves (.edit path e) path failure opened after := by
  have hleaves : ∀ failure after, d.Filled route [] after → d.Leaves (.edit path e) path failure (some route) after :=
    fun failure after hafter => {
      left := hafter
      spoiled := fun _ => ⟨route, rfl, fun _ _ _ _ hlocate => absurd hlocate (hnowhere _)⟩
      spared := by
        rintro _ ⟨⟩
        exact .inr ⟨hcreates, hnone⟩
      unchanged := fun _ _ hlocated => by
        obtain ⟨found, hfound⟩ := hlocated hcreates
        exact absurd hfound (hnowhere found) }
  refine (ends_rewrite files lines path e opened).mono ?_
  rintro result after (⟨rfl, -⟩ | ⟨content, splice, -, -, hwrote⟩) failure hfailure
  · exact ⟨some route, hleaves failure after hfilled⟩
  · subst hfailure
    rcases hwrote with ⟨-, hafter⟩ | ⟨-, other, hopens, hother⟩
    · exact ⟨some route, hleaves failure after (hfilled.then_grown hafter.grown)⟩
    · obtain rfl := hopens.route_eq_of_opened hopened
      exact ⟨some other, hleaves failure after (hfilled.then_filled hother)⟩

theorem ends_edit_leaves (files lines : Settings) (path : Text) (e : Edit) (d : Disk) :
    Ends (Storage.edit files lines path e) d fun result after => ∀ failure, result = .error failure →
      ∃ opened, d.Leaves (.edit path e) path failure opened after := by
  rw [Storage.edit_eq]
  split
  · rename_i hcreates
    refine .bind ((ends_touch path d).mono ?_)
    rintro (failure | _) touched htouched
    · obtain ⟨hmade, hfailure⟩ := htouched
      rintro _ ⟨⟩
      refine ⟨none, .of_made hmade ?_⟩
      rcases hfailure with hpath | hunanswered
      · exact spoils_of_ofPath _ hpath
      · exact spoils_of_unanswered _ hunanswered
    · rcases htouched with hmade | ⟨hnowhere, route, made, hnone, hopened, hfilled⟩
      · exact ends_rewrite_leaves files lines path e hmade
      · exact ends_rewrite_created files lines hcreates hopened hfilled hnone hnowhere
  · exact ends_rewrite_leaves files lines path e (.refl d _)

/-- **An action that fails** loses no more than the bytes of a file that it was to write, and only for the encoding. -/
theorem leaves_of_failed {rules : Rules} (hpath : action.written? = some path)
    (hfailed : (Op.outcome (action.perform rules) d).1 = .error failure) :
    ∃ opened, d.Leaves action path failure opened (Op.outcome (action.perform rules) d).2.store := by
  have hends : Ends (action.perform rules) d fun result after => ∀ failure, result = .error failure →
      ∃ opened, d.Leaves action path failure opened after := by
    cases action with
    | write target content =>
      cases hpath
      refine .map ((ends_write rules.files.encoding path content d).mono ?_)
      rintro (other | _) after hwrote failure hfailure
      · cases hfailure
        exact exists_leaves_write rules hwrote
      · cases hfailure
    | copy source target =>
      cases hpath
      refine .map ((ends_copy source path d).mono ?_)
      rintro (other | _) after hcopied failure hfailure
      · cases hfailure
        obtain ⟨hmade, hofPath | hunanswered⟩ := hcopied
        · exact ⟨none, .of_made hmade (spoils_of_ofPath _ hofPath)⟩
        · exact ⟨none, .of_made hmade (spoils_of_unanswered _ hunanswered)⟩
      · cases hfailure
    | edit target e =>
      cases hpath
      refine .map ((ends_edit_leaves rules.edited rules.lines path e d).mono ?_)
      rintro (other | _) after hleaves failure hfailure
      · cases hfailure
        exact hleaves _ rfl
      · cases hfailure
    | _ => cases hpath
  exact hends.outcome failure hfailed

/-- A disk with one file on it. -/
def holding (name : Text) (bytes : List UInt8) : Disk := (atRoute []).put [name] (.file fileMode bytes)

/-- The refusal of a letter that ASCII does not have. -/
def unlettered (pos : Nat) : CodecFault :=
  .unencodable (Text.lit "ascii") 'é' pos (pos + 1) (Text.lit "ordinal not in range(128)")

/-- What is left of a file when a line cannot be appended to it for the encoding. -/
theorem leaves_of_failed_append :
    Action.written? (.edit ['f'] (.append [['é']])) = some (['f'] : Text) ∧
      (Op.outcome (Action.perform (.uniform { encoding := Text.lit "ascii" }) (.edit ['f'] (.append [['é']])))
        (holding ['f'] [0x78])).1 = .error (.unencodable (unlettered 2)) ∧
      ∃ opened, (holding ['f'] [0x78]).Leaves (.edit ['f'] (.append [['é']])) ['f']
        (.unencodable (unlettered 2)) opened
        (Op.outcome (Action.perform (.uniform { encoding := Text.lit "ascii" }) (.edit ['f'] (.append [['é']])))
          (holding ['f'] [0x78])).2.store := by
  have hfailed : (Op.outcome (Action.perform (.uniform { encoding := Text.lit "ascii" }) (.edit ['f'] (.append [['é']])))
      (holding ['f'] [0x78])).1 = .error (.unencodable (unlettered 2)) := by
    decide +kernel
  exact ⟨rfl, hfailed, leaves_of_failed rfl hfailed⟩

/-- A file is emptied by a text that it cannot hold in the encoding. -/
theorem write_failed_empties :
    (Op.outcome (Action.perform (.uniform { encoding := Text.lit "ascii" }) (.write ['f'] ['é']))
        (holding ['f'] [0x78])).1 = .error (.unencodable (unlettered 0)) ∧
      (holding ['f'] [0x78]).find? [['f']] = some (.file fileMode [0x78]) ∧
      (Op.outcome (Action.perform (.uniform { encoding := Text.lit "ascii" }) (.write ['f'] ['é']))
        (holding ['f'] [0x78])).2.store.find? [['f']] = some (.file fileMode []) :=
  ⟨rfl, rfl, rfl⟩

end Disk

end Linework
