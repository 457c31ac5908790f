import Linework.Script

/-!
# What operations end in

An operation ends in a value or a failure and in a storage, whatever was noted before it. The rules
below push that through the steps an operation is written in, so each operation is opened once and
its callers cite what it ends in.
-/

namespace Linework

namespace Op

variable {σ α β : Type} {s : σ} {Q : Except Failure α → σ → Prop}

/-- Whatever the notes before it, the operation ends in a result and a storage that satisfy `Q`. -/
def Ends (op : Op σ α) (s : σ) (Q : Except Failure α → σ → Prop) : Prop :=
  ∀ notes, match op.run ⟨s, notes⟩ with
    | .ok value world => Q (.ok value) world.store
    | .error failure world => Q (.error failure) world.store

/-- What becomes of a result when an operation goes on with its value. -/
def andThen (f : α → Op σ β) (Q : Except Failure β → σ → Prop) : Except Failure α → σ → Prop
  | .ok value, s => Ends (f value) s Q
  | .error failure, s => Q (.error failure) s

@[simp] theorem ends_pure {value : α} : Ends (pure value) s Q ↔ Q (.ok value) s :=
  ⟨fun h => h [], fun h _ => h⟩

@[simp] theorem ends_throw {failure : Failure} : Ends (throw failure) s Q ↔ Q (.error failure) s :=
  ⟨fun h => h [], fun h _ => h⟩

@[simp] theorem ends_store {Q : Except Failure σ → σ → Prop} : Ends store s Q ↔ Q (.ok s) s :=
  ⟨fun h => h [], fun h _ => h⟩

@[simp] theorem ends_setStore {t : σ} {Q : Except Failure Unit → σ → Prop} :
    Ends (setStore t) s Q ↔ Q (.ok ()) t := ⟨fun h => h [], fun h _ => h⟩

@[simp] theorem ends_note {n : Note} {Q : Except Failure Unit → σ → Prop} :
    Ends (note n) s Q ↔ Q (.ok ()) s := ⟨fun h => h [], fun h _ => h⟩

@[simp] theorem ends_ofExcept {e : Except Failure α} :
    Ends (MonadExcept.ofExcept e : Op σ α) s Q ↔ Q e s := by
  cases e <;> exact ⟨fun h => h [], fun h _ => h⟩

@[simp] theorem andThen_ok {f : α → Op σ β} {Q : Except Failure β → σ → Prop} {value : α} :
    andThen f Q (.ok value) s ↔ Ends (f value) s Q := Iff.rfl

@[simp] theorem andThen_error {f : α → Op σ β} {Q : Except Failure β → σ → Prop} {failure : Failure} :
    andThen f Q (.error failure) s ↔ Q (.error failure) s := Iff.rfl

theorem Ends.mono {op : Op σ α} {P : Except Failure α → σ → Prop} (h : Ends op s P)
    (hPQ : ∀ result s', P result s' → Q result s') : Ends op s Q := by
  intro notes
  have := h notes
  split <;> simp_all

theorem Ends.bind {op : Op σ α} {f : α → Op σ β} {Q : Except Failure β → σ → Prop}
    (h : Ends op s (andThen f Q)) : Ends (op >>= f) s Q := by
  intro notes
  have h := h notes
  rw [EStateM.run_bind]
  cases hop : op.run ⟨s, notes⟩ with
  | ok value world =>
    rw [hop] at h
    exact h world.notes
  | error failure world =>
    rw [hop] at h
    exact h

/-- What begins with a failing step fails. -/
theorem Ends.fails {op : Op σ α} {f : α → Op σ β} {failure : Failure}
    (h : Ends op s fun result _ => result = .error failure) :
    Ends (op >>= f) s fun result _ => result = .error failure := by
  refine .bind (h.mono fun result s' hresult => ?_)
  subst hresult
  rfl

/-- An operation that turns its value into another. -/
theorem Ends.map {op : Op σ α} {f : α → β} {Q : Except Failure β → σ → Prop}
    (h : Ends op s fun result s' => Q (result.map f) s') :
    Ends (op >>= fun value => pure (f value)) s Q := by
  refine .bind (h.mono fun result s' hresult => ?_)
  cases result with
  | ok value => exact ends_pure.2 hresult
  | error failure => exact hresult

theorem Ends.get {f : σ → Op σ α} (h : Ends (f s) s Q) : Ends (store >>= f) s Q :=
  .bind (ends_store.2 h)

theorem Ends.set {t : σ} {f : Unit → Op σ α} (h : Ends (f ()) t Q) : Ends (setStore t >>= f) s Q :=
  .bind (ends_setStore.2 h)

theorem Ends.noting {n : Note} {f : Unit → Op σ α} (h : Ends (f ()) s Q) : Ends (note n >>= f) s Q :=
  .bind (ends_note.2 h)

/-- A step that an operation takes unless it gives up first. -/
theorem Ends.unless {c : Prop} [Decidable c] {failure : Failure} {f : α → Op σ β} {op : Op σ β}
    {Q : Except Failure β → σ → Prop} (refused : c → Q (.error failure) s)
    (goes : ¬ c → Ends op s Q) : Ends (if c then throw failure >>= f else op) s Q := by
  split
  · exact .bind (ends_throw.2 (refused ‹_›))
  · exact goes ‹_›

theorem Ends.and {op : Op σ α} {P : Except Failure α → σ → Prop} (hP : Ends op s P)
    (hQ : Ends op s Q) : Ends op s fun result s' => P result s' ∧ Q result s' := by
  intro notes
  have hP := hP notes
  have hQ := hQ notes
  split <;> simp_all

/-- The outcome of an operation is one of its ends. -/
theorem Ends.outcome {op : Op σ α} (h : Ends op s Q) : Q (op.outcome s).1 (op.outcome s).2.store := by
  have h := h []
  unfold Op.outcome
  split at h <;> simp_all

end Op

/-- An edit that creates a file finds its place in any. -/
theorem Edit.splice_of_creates {e : Edit} (hcreates : e.creates = true) (lines : Settings) (path : Text)
    (old : List Text) : ∃ splice, e.splice lines path old = .ok splice := by
  cases e with
  | append contents => exact ⟨_, rfl⟩
  | _ => cases hcreates

namespace Storage

variable {σ : Type} [Storage σ]

/-- What an edit does with a file that is there: its lines are read, spliced and written back. -/
def rewrite (files lines : Settings) (path : Text) (e : Edit) : Op σ Unit := do
  let old ← readLines files path
  let splice ← MonadExcept.ofExcept (e.splice lines path old)
  match e.note? path splice with
  | some n => do
    Op.note n
    write files.encoding path (splice.apply old).flatten
  | none => write files.encoding path (splice.apply old).flatten

theorem edit_eq (files lines : Settings) (path : Text) (e : Edit) :
    (edit files lines path e : Op σ Unit) =
      if e.creates then touch path >>= fun _ => rewrite files lines path e
      else rewrite files lines path e := rfl

/-- An edit ends as the writing of its spliced lines does, whether or not it notes anything. -/
theorem ends_rewrite {files lines : Settings} {path : Text} {e : Edit} {s : σ}
    {Q : Except Failure Unit → σ → Prop}
    (h : Op.Ends (readLines files path) s fun result s' =>
      match result with
      | .error failure => Q (.error failure) s'
      | .ok old =>
        match e.splice lines path old with
        | .error failure => Q (.error failure) s'
        | .ok splice => Op.Ends (write files.encoding path (splice.apply old).flatten) s' Q) :
    Op.Ends (rewrite files lines path e) s Q := by
  refine .bind (h.mono fun result s' hresult => ?_)
  cases result with
  | error failure => exact hresult
  | ok old =>
    refine .bind (Op.ends_ofExcept.2 ?_)
    dsimp only at hresult
    cases hsplice : e.splice lines path old with
    | error failure =>
      rw [hsplice] at hresult
      exact hresult
    | ok splice =>
      rw [hsplice] at hresult
      rw [Op.andThen_ok]
      split
      · exact .noting hresult
      · exact hresult

end Storage

/-- A block leaves its storage as going back does, whatever came of its steps. -/
theorem Step.after_close {σ : Type} [Storage σ] (s : σ) (records : List (Record σ)) :
    (close s records).after = (Op.outcome Storage.leave (final s records)).2.store := by
  unfold close
  cases Op.outcome Storage.leave (final s records) with
  | mk result world =>
    cases result with
    | error failure => rfl
    | ok value =>
      dsimp only
      split <;> rfl

theorem Step.final_cons {σ : Type} (s : σ) (record : Record σ) (records : List (Record σ)) :
    final s (record :: records) = final record.after records := by
  cases records with
  | nil => rfl
  | cons next rest =>
    obtain ⟨last, hlast⟩ := Option.isSome_iff_exists.1 (List.getLast?_isSome.2 (List.cons_ne_nil next rest))
    unfold final
    rw [List.getLast?_cons_cons, hlast]
    rfl

/-- What can be asked of a storage at a time. -/
inductive Move where
  | act (rules : Rules) (action : Action)
  | enter (path : Text)
  | leave

namespace Move

/-- The paths whose entries a move may take away. -/
def Removes : Move → Text → Prop
  | act _ (.remove path), other | act _ (.removeTree path), other => other = path
  | _, _ => False

def run {σ : Type} [Storage σ] : Move → Op σ Answer
  | act rules action => action.perform rules
  | enter path => Action.silently (Storage.enter path)
  | leave => Action.silently Storage.leave

end Move

end Linework
