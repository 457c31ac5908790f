import Linework.Proofs.Memory.Operations
import Mathlib.Logic.Relation

/-!
# Reachable memories

The memories that actions and blocks can come to from an empty one, in any order: an action is taken
and succeeds or fails, a directory is entered, a block is left. Every such move is made of changes
and leaves the memory as it was when it fails (`Sound.ends_move`), so every reachable memory is
sound (`Reachable.sound`). Whatever a script comes to is reachable (`Step.reachable_runAll`).
-/

namespace Linework

namespace Memory

open Op

inductive Reachable : Memory → Prop
  | start : Reachable {}
  | move {m : Memory} (move : Move) : Reachable m → Reachable (Op.outcome move.run m).2.store

/-- What an operation comes to by at most one change, and by none when it fails. -/
def Comes {α : Type} (m : Memory) (removes : Text → Prop) (result : Except Failure α) (m' : Memory) :
    Prop :=
  Relation.ReflGen (Change removes) m m' ∧ ∀ failure, result = .error failure → m' = m

variable {m m' : Memory} {removes : Text → Prop}

theorem comes_self {α : Type} (result : Except Failure α) : m.Comes removes result m :=
  ⟨.refl, fun _ _ => rfl⟩

theorem comes_of_change {α : Type} {value : α} (h : Change removes m m') : m.Comes removes (.ok value) m' :=
  ⟨.single h, nofun⟩

theorem Comes.map {α β : Type} {f : α → β} {result : Except Failure α} (h : m.Comes removes result m') :
    m.Comes removes (result.map f) m' := by
  refine ⟨h.1, fun failure hfailure => ?_⟩
  cases result with
  | ok value => cases hfailure
  | error other => exact h.2 other rfl

theorem ends_map {α β : Type} {op : Op Memory α} {f : α → β} (h : Ends op m (m.Comes removes)) :
    Ends (op >>= fun value => pure (f value)) m (m.Comes removes) :=
  .map (h.mono fun _ _ => Comes.map)

theorem ends_silently {op : Op Memory Unit} (h : Ends op m (m.Comes removes)) :
    Ends (Action.silently op) m (m.Comes removes) := ends_map h

theorem Sound.comes_write (h : m.Sound) (path content : Text) :
    Ends (write path content) m (m.Comes removes) := by
  obtain ⟨tree, htree, -⟩ := h.exists_tree path
  exact h.ends_write htree (fun _ => comes_self _) (fun _ _ => comes_self _)
    fun hopen hfree hempty => comes_of_change (.write m path content htree hopen hfree hempty)

theorem Sound.comes_touch (h : m.Sound) (path : Text) : Ends (Storage.touch path) m (m.Comes removes) := by
  obtain ⟨tree, htree, -⟩ := h.exists_tree path
  exact h.ends_touch htree (fun _ _ _ => comes_self _) (fun _ _ _ => comes_self _)
    (fun _ _ => comes_self _) fun hnone hopen hfree =>
      comes_of_change (.write m path [] htree hopen hfree (listing_below_of_find?_eq_none htree hnone))

theorem Sound.comes_makeDir (h : m.Sound) (path : Text) : Ends (makeDir path) m (m.Comes removes) := by
  obtain ⟨tree, htree, -⟩ := h.exists_tree path
  exact h.ends_makeDir htree (fun _ => comes_self _) (fun _ => comes_self _)
    fun hopen _ => comes_of_change (.makeDir m path htree hopen)

theorem comes_unlink {path : Text} (hremoves : removes path) (allowed : Node → Bool) (n : Note) :
    Ends (unlink path allowed >>= fun _ => Op.note n) m (m.Comes removes) :=
  .bind (ends_unlink (fun _ => comes_self _) (fun _ _ _ => comes_self _) fun _ name hnode _ hname =>
    ends_note.2 (comes_of_change (.unlink m path name hremoves hnode hname)))

theorem comes_file (path : Text) : Ends (file path) m (m.Comes removes) :=
  ends_file (fun _ => comes_self _) (fun _ _ _ => comes_self _) fun _ _ _ _ => comes_self _

theorem comes_enter (path : Text) : Ends (Storage.enter path) m (m.Comes removes) :=
  ends_enter (fun _ => comes_self _) (fun _ _ _ => comes_self _) fun _ hnode hdirectory =>
    comes_of_change (.enter m path hnode hdirectory)

theorem Sound.comes_edit (h : m.Sound) (files lines : Settings) (path : Text) (e : Edit) :
    Ends (Storage.edit files lines path e) m (m.Comes removes) := by
  obtain ⟨tree, htree, -⟩ := h.exists_tree path
  refine h.ends_edit htree (fun _ _ => comes_self _) (fun _ _ _ => comes_self _)
    (fun _ _ _ => comes_self _) (fun _ _ _ _ _ _ => comes_self _) (fun _ _ _ _ _ _ _ => comes_self _)
    (fun node old splice hnode hold _ hfree => ?_) fun splice _ hnone hopen hfree _ => ?_
  · exact comes_of_change (.write m path _ htree (h.not_blocked_of_find? htree hnode) hfree
      (h.listing_below_of_content htree hnode hold))
  · exact comes_of_change (.write m path _ htree hopen hfree
      (listing_below_of_find?_eq_none htree hnone))

/-- **Every action is made of changes**, and one that fails changes nothing. -/
theorem Sound.ends_perform (h : m.Sound) (rules : Rules) (action : Action) :
    Ends (action.perform rules) m (m.Comes (Move.act rules action).Removes) := by
  have hasks : ∀ {α : Type} (f : Memory → α),
      Ends (Op.store >>= fun m => pure (f m)) m (m.Comes (Move.act rules action).Removes) :=
    fun f => ends_map (ends_store.2 (comes_self _))
  cases action with
  | touch path => exact ends_silently (h.comes_touch path)
  | read path => exact ends_map (comes_file path)
  | readLines path => exact ends_map (ends_map (comes_file path))
  | write path content => exact ends_silently (h.comes_write path content)
  | copy source destination =>
    refine ends_silently (.bind (ends_file (fun _ => comes_self _) (fun _ _ _ => comes_self _) ?_))
    exact fun _ content _ _ => h.comes_write destination content
  | makeDir path => exact ends_silently (h.comes_makeDir path)
  | makeParents path => exact ends_silently (h.comes_makeDir _)
  | remove path =>
    have hremoves : (Move.act rules (.remove path)).Removes path := rfl
    exact ends_silently (comes_unlink hremoves _ _)
  | removeTree path =>
    have hremoves : (Move.act rules (.removeTree path)).Removes path := rfl
    exact ends_silently (comes_unlink hremoves _ _)
  | workingDir => exact ends_map (hasks _)
  | join tokens => exact ends_pure.2 (comes_self _)
  | expand path base => exact ends_map (hasks _)
  | setMode path bits =>
    exact ends_silently (ends_setMode (fun _ => comes_self _) fun _ hnode =>
      comes_of_change (.setMode m path bits hnode))
  | mode path => exact ends_map (ends_mode (fun _ => comes_self _) fun _ _ => comes_self _)
  | entries path =>
    exact ends_map (ends_entries (fun _ => comes_self _) (fun _ _ _ => comes_self _)
      fun _ _ _ => comes_self _)
  | hasEntry path => exact ends_map (hasks _)
  | isDir path => exact ends_map (hasks _)
  | isExecutable path => exact ends_map (hasks _)
  | edit path e => exact ends_silently (h.comes_edit rules.edited rules.lines path e)

theorem comes_leave (m : Memory) : Ends Storage.leave m (m.Comes removes) :=
  .get (ends_setStore.2 (comes_of_change (.leave m)))

theorem Sound.ends_move (h : m.Sound) (move : Move) : Ends move.run m (m.Comes move.Removes) := by
  cases move with
  | act rules action => exact h.ends_perform rules action
  | enter path => exact ends_silently (comes_enter path)
  | leave => exact ends_silently (comes_leave m)

theorem Comes.sound {α : Type} {result : Except Failure α} (h : m.Comes removes result m') (hm : m.Sound) :
    m'.Sound := by
  obtain ⟨hchanges, -⟩ := h
  cases hchanges with
  | refl => exact hm
  | single hchange => exact hchange.sound hm

/-- **Every reachable memory is sound.** -/
theorem Reachable.sound (h : m.Reachable) : m.Sound := by
  induction h with
  | start => exact sound_empty
  | move move _ ih => exact (ih.ends_move move).outcome.sound ih

/-! ## Scripts -/

theorem outcome_silently {σ : Type} (op : Op σ Unit) (s : σ) :
    (Op.outcome (Action.silently op) s).2 = (Op.outcome op s).2 := by
  unfold Action.silently Op.outcome
  rw [EStateM.run_bind]
  cases op.run ⟨s, []⟩ <;> rfl

theorem Reachable.enter (h : m.Reachable) (path : Text) :
    (Op.outcome (Storage.enter path) m).2.store.Reachable := by
  rw [← outcome_silently]
  exact h.move (.enter path)

theorem Reachable.leave (h : m.Reachable) : (Op.outcome Storage.leave m).2.store.Reachable := by
  rw [← outcome_silently]
  exact h.move .leave

end Memory

namespace Step

open Memory

variable {m : Memory}

theorem reachable_final {records : List (Record Memory)} (h : m.Reachable)
    (hrecords : ∀ record ∈ records, record.after.Reachable) : (final m records).Reachable := by
  unfold final
  cases hlast : records.getLast? with
  | none => exact h
  | some record => exact hrecords record (List.mem_of_getLast? hlast)

mutual

/-- **Whatever a step comes to is reachable**, blocks within blocks included. -/
theorem reachable_run (rules : Rules) {m : Memory} (h : m.Reachable) (step : Step Action) :
    (run (Action.perform rules) m step).after.Reachable :=
  match step with
  | .act action => h.move (.act rules action)
  | .giveUp text => h
  | .within path body => by
    have henter := h.enter path
    rw [run]
    cases hout : Op.outcome (Storage.enter path) m with
    | mk result world =>
      rw [hout] at henter
      cases result with
      | error failure => exact henter
      | ok value =>
        dsimp only
        rw [after_close]
        exact (reachable_final henter (reachable_runBlock rules henter body)).leave

theorem reachable_runBlock (rules : Rules) {m : Memory} (h : m.Reachable) (steps : List (Step Action)) :
    ∀ record ∈ runBlock (Action.perform rules) m steps, record.after.Reachable :=
  match steps with
  | [] => nofun
  | step :: rest => by
    have hstep := reachable_run rules h step
    intro record hrecord
    rw [runBlock] at hrecord
    split at hrecord
    · cases List.mem_singleton.1 hrecord
      exact hstep
    · rcases List.mem_cons.1 hrecord with rfl | hrecord
      · exact hstep
      · exact reachable_runBlock rules hstep rest record hrecord

end

/-- Whatever a script comes to is reachable. -/
theorem reachable_runAll (rules : Rules) (h : m.Reachable) (steps : List (Step Action)) :
    ∀ record ∈ runAll (Action.perform rules) m steps, record.after.Reachable := by
  induction steps generalizing m with
  | nil => nofun
  | cons step rest ih =>
    have hstep := reachable_run rules h step
    intro record hrecord
    rcases List.mem_cons.1 hrecord with rfl | hrecord
    · exact hstep
    · exact ih hstep record hrecord

end Step

end Linework
