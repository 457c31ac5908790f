import Linework.Disk.Operations
import Linework.Proofs.Disk.Reaches
import Linework.Proofs.Op

/-!
# What requests end in

A request is answered, or refused with a number that is blamed on a path. The rules below carry either way on
to the operation that asks, on any disk; a request that adds to the disk puts one entry at a free name
(`makeDirectory_eq`, `opened_of_openOver`).
-/

namespace Linework

namespace Failure

/-- A storage reports a fault. -/
def IsStorage (failure : Failure) : Prop := ∃ cause path, failure = .storage cause path

/-- A path that a storage reports a fault for, or that the host does not take. -/
def OfPath (failure : Failure) : Prop := failure.IsStorage ∨ ∃ fault, failure = .unusable fault

/-- A result that is a failure only of a kind. -/
def Only {α : Type} (kind : Failure → Prop) : Except Failure α → Prop
  | .ok _ => True
  | .error failure => kind failure

theorem ofPath_unusable (fault : NameFault) : (unusable fault).OfPath := .inr ⟨fault, rfl⟩

theorem ofPath_ofErrno (code : Errno) (path : Text) : (ofErrno code path).OfPath := .inl ⟨_, _, rfl⟩

theorem ofPath_ofFault (fault : SystemFault) (path : Option Text) : (ofFault fault path).OfPath := .inl ⟨_, _, rfl⟩

end Failure

namespace Disk

open Op

variable {d : Disk}

section Answers

variable {α : Type} {path : Text} {request : Disk → Except Errno α} {value : α} {code : Errno}
  {Q : Except Failure α → Disk → Prop}

theorem ends_answer (hrequest : request d = .ok value) (h : Q (.ok value) d) :
    Ends (answer path request) d Q := by
  unfold answer
  refine .get ?_
  rw [hrequest]
  exact ends_pure.2 h

theorem ends_answer_refused (hrequest : request d = .error code)
    (h : Q (.error (.storage (.about code path) (some path))) d) : Ends (answer path request) d Q := by
  unfold answer
  refine .get ?_
  rw [hrequest]
  exact ends_throw.2 h

/-- Whether a request is answered or refused, the disk stays as it is. -/
theorem ends_answer_cases (answered : ∀ value, request d = .ok value → Q (.ok value) d)
    (refused : ∀ failure, failure.IsStorage → Q (.error failure) d) : Ends (answer path request) d Q := by
  cases hrequest : request d with
  | ok value => exact ends_answer hrequest (answered value hrequest)
  | error code => exact ends_answer_refused hrequest (refused _ ⟨_, _, rfl⟩)

theorem ends_query (hrequest : request d = .ok value) (h : Q (.ok value) d) :
    Ends (query path request) d Q := by
  unfold query
  refine .get ?_
  rw [hrequest]
  exact ends_pure.2 h

theorem ends_query_refused (hrequest : request d = .error code) (h : Q (.error (.system (.about code path))) d) :
    Ends (query path request) d Q := by
  unfold query
  refine .get ?_
  rw [hrequest]
  exact ends_throw.2 h

theorem ends_query_cases (answered : ∀ value, request d = .ok value → Q (.ok value) d)
    (refused : ∀ code, request d = .error code → Q (.error (.system (.about code path))) d) :
    Ends (query path request) d Q := by
  cases hrequest : request d with
  | ok value => exact ends_query hrequest (answered value hrequest)
  | error code => exact ends_query_refused hrequest (refused code hrequest)

theorem ends_perform {request : Disk → Except Errno Disk} {made : Disk}
    {Q : Except Failure Unit → Disk → Prop}
    (hrequest : request d = .ok made) (h : Q (.ok ()) made) : Ends (perform path request) d Q :=
  .bind (ends_answer hrequest (ends_setStore.2 h))

theorem ends_perform_refused {request : Disk → Except Errno Disk} {Q : Except Failure Unit → Disk → Prop}
    (hrequest : request d = .error code)
    (h : Q (.error (.storage (.about code path) (some path))) d) : Ends (perform path request) d Q :=
  .bind (ends_answer_refused hrequest h)

/-- Whether a change is made or refused, nothing but the change happens. -/
theorem ends_perform_cases {request : Disk → Except Errno Disk} {Q : Except Failure Unit → Disk → Prop}
    (made : ∀ after, request d = .ok after → Q (.ok ()) after)
    (refused : ∀ failure, failure.IsStorage → Q (.error failure) d) : Ends (perform path request) d Q :=
  .bind (ends_answer_cases (fun after hafter => ends_setStore.2 (made after hafter)) refused)

end Answers

section Paths

variable {path : Text}

theorem ends_refuse_cases {fault : Option NameFault} {Q : Except Failure Unit → Disk → Prop}
    (taken : fault = none → Q (.ok ()) d) (refused : ∀ one, fault = some one → Q (.error (.unusable one)) d) :
    Ends (refuse fault) d Q := by
  cases fault with
  | none => exact ends_pure.2 (taken rfl)
  | some one => exact ends_throw.2 (refused one rfl)

theorem ends_refuse {fault : Option NameFault} {Q : Except Failure Unit → Disk → Prop} (hfault : fault = none)
    (h : Q (.ok ()) d) : Ends (refuse fault) d Q :=
  ends_refuse_cases (fun _ => h) fun _ hone => nomatch hfault.symm.trans hone

theorem ends_usable {Q : Except Failure Unit → Disk → Prop} (hpath : HostPath.Takes path)
    (h : Q (.ok ()) d) : Ends (usable path) d Q := ends_refuse hpath h

theorem ends_usable_cases {Q : Except Failure Unit → Disk → Prop} (taken : HostPath.Takes path → Q (.ok ()) d)
    (refused : ∀ fault, Q (.error (.unusable fault)) d) : Ends (usable path) d Q :=
  ends_refuse_cases taken fun fault _ => refused fault

theorem ends_hostPath_cases {Q : Except Failure Text → Disk → Prop}
    (taken : HostPath.Takes (HostPath.collapse path) → Q (.ok (HostPath.collapse path)) d)
    (refused : ∀ fault, Q (.error (.unusable fault)) d) : Ends (hostPath path) d Q :=
  .bind (ends_usable_cases (fun hpath => ends_pure.2 (taken hpath)) refused)

end Paths

/-! ## Refusals -/

theorem walkWith_refused {jump : Spot → List Text → Except Errno Found} {follow : Bool} {code : Errno}
    (hjump : ∀ spot pieces, jump spot pieces = .error code → saysAbsent code = true ∨ code = Errno.nameTooLong)
    {spot : Spot} {pieces : List Text} (h : d.walkWith jump follow spot pieces = .error code) :
    saysAbsent code = true ∨ code = Errno.nameTooLong := by
  induction pieces generalizing spot with
  | nil => cases h
  | cons piece rest ih =>
    rw [walkWith] at h
    split at h
    · exact ih h
    split at h
    · exact ih h
    split at h
    · cases h
      exact .inl (by decide)
    split at h
    · cases h
      exact .inr rfl
    dsimp only at h
    split at h
    · split at h <;> cases h
      exact .inl (by decide)
    · exact ih h
    · split at h <;> cases h
      exact .inl (by decide)
    · split at h
      · cases h
      · exact hjump _ _ h

/-- A path that does not say that nothing is there is refused for its length, or for that of a name. -/
theorem resolve_refused {follow : Bool} {path : Text} {code : Errno} (h : d.resolve follow path = .error code) :
    saysAbsent code = true ∨ code = Errno.nameTooLong := by
  have hwalk : ∀ links spot pieces, d.walk follow links spot pieces = .error code →
      saysAbsent code = true ∨ code = Errno.nameTooLong := by
    intro links
    induction links with
    | zero =>
      refine fun spot pieces => walkWith_refused fun _ _ hlinks => .inl ?_
      cases hlinks
      decide
    | succ fewer ih => exact fun spot pieces => walkWith_refused ih
  unfold resolve at h
  split at h
  · cases h
    exact .inl (by decide)
  split at h
  · cases h
    exact .inr rfl
  · exact hwalk _ _ _ h

/-! ## Requests that add -/

theorem makeDirectory_eq (d : Disk) (path : Text) :
    d.makeDirectory path =
      match d.resolve false path with
      | .ok (.missing route) =>
        .ok (d.put route (.directory (directoryMode ||| (d.modeAt route.dropLast &&& inheritedBit))))
      | .ok _ => .error Errno.entryExists
      | .error code => .error code := by
  unfold makeDirectory
  cases d.resolve false path with
  | ok found => cases found <;> rfl
  | error code => rfl

/-- A free name that a path leads to is free. -/
theorem find?_eq_none_of_resolve {path : Text} {follow : Bool} {route : Route}
    (h : d.resolve follow path = .ok (.missing route)) : d.find? route = none :=
  (resolve_eq_ok_iff.1 h).2.2.find?_eq.2 route rfl

theorem find?_eq_some_of_resolve {path : Text} {follow : Bool} {route : Route} {entry : DiskEntry}
    (h : d.resolve follow path = .ok (.entry route entry)) : d.find? route = some entry :=
  (resolve_eq_ok_iff.1 h).2.2.find?_eq.1 route entry rfl

/-- A way on which a file is opened: its last step opens the file that is there, or creates it. -/
theorem opened_of_openOver {links : Nat} {path : Text} {route : Route} {opened : Disk}
    (h : d.openOver links path = .ok (route, opened)) :
    (∃ mode bytes, d.find? route = some (.file mode bytes) ∧ opened = d) ∨
      d.find? route = none ∧ opened = d.put route (.file fileMode []) := by
  induction links generalizing path with
  | zero => cases h
  | succ fewer ih =>
    unfold openOver at h
    dsimp only at h
    split at h
    · split at h <;> cases h
    · split at h
      · rename_i hfile
        cases h
        exact .inl ⟨_, _, find?_eq_some_of_resolve hfile, rfl⟩
      · exact ih h
      · rename_i hfree
        cases h
        exact .inr ⟨find?_eq_none_of_resolve hfree, rfl⟩
      · cases h
      · cases h

end Disk

end Linework
