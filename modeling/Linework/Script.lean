import Linework.Action

/-!
# Scripts

Steps on a storage, one after the other. A step acts, or works inside a directory and leaves it
again, or gives up on purpose. A failed action is recorded and the script goes on; giving up ends
every block around it, each of which is still left in order.
-/

namespace Linework

/-- A step of a script; `α` is what it may do. -/
inductive Step (α : Type) where
  | act (action : α)
  | within (path : Text) (body : List (Step α))
  | giveUp (text : Text)

/-- What came of a step, and the storage after it. -/
inductive Record (σ : Type) where
  | plain (result : Except Failure Answer) (notes : List Note) (after : σ)
  | block (result : Except Failure Unit) (inner : List (Record σ)) (after : σ)

namespace Record

variable {σ : Type}

/-- The storage after a step. -/
def after : Record σ → σ
  | plain _ _ after | block _ _ after => after

/-- Why the step failed, if it did. -/
def failure? : Record σ → Option Failure
  | plain (.error failure) _ _ | block (.error failure) _ _ => some failure
  | _ => none

/-- Whether the steps after this one in its block are passed over. -/
def givesUp (record : Record σ) : Bool :=
  match record.failure? with
  | some (.raised _) => true
  | _ => false

end Record

namespace Op

variable {σ β : Type}

/-- Runs an operation without notes taken before it. -/
def outcome (op : Op σ β) (s : σ) : Except Failure β × World σ :=
  match op.run ⟨s, []⟩ with
  | .ok value world => (.ok value, world)
  | .error failure world => (.error failure, world)

end Op

namespace Step

variable {α σ : Type} [Storage σ]

/-- The storage after the records of a run that began at `s`. -/
def final (s : σ) (records : List (Record σ)) : σ := (records.getLast?.map Record.after).getD s

/-- Leaves a block. A directory that cannot be gone back to is the failure of the block. -/
def close (s : σ) (records : List (Record σ)) : Record σ :=
  match Op.outcome Storage.leave (final s records) with
  | (.error failure, world) => .block (.error failure) records world.store
  | (.ok _, world) =>
    match records.getLast?.bind fun record => if record.givesUp then record.failure? else none with
    | some failure => .block (.error failure) records world.store
    | none => .block (.ok ()) records world.store

mutual

def run (perform : α → Op σ Answer) (s : σ) : Step α → Record σ
  | act action =>
    match Op.outcome (perform action) s with
    | (result, world) => .plain result world.notes world.store
  | within path body =>
    match Op.outcome (Storage.enter path) s with
    | (.error failure, world) => .block (.error failure) [] world.store
    | (.ok _, world) => close world.store (runBlock perform world.store body)
  | giveUp text => .plain (.error (.raised text)) [] s

/-- Runs steps up to the first that gives up. -/
def runBlock (perform : α → Op σ Answer) (s : σ) : List (Step α) → List (Record σ)
  | [] => []
  | step :: rest =>
    let record := run perform s step
    if record.givesUp then [record] else record :: runBlock perform record.after rest

end

/-- Runs all steps; giving up ends no more than the step it is in. -/
def runAll (perform : α → Op σ Answer) (s : σ) : List (Step α) → List (Record σ)
  | [] => []
  | step :: rest =>
    let record := run perform s step
    record :: runAll perform record.after rest

end Step

end Linework
