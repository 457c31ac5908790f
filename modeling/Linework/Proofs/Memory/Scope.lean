import Linework.Proofs.Memory.Reachable

/-!
# Working directories of programs

A program acts, raises failures and catches them, and works inside directories and leaves them again, blocks
within blocks (`Memory.Runs`); a failure that nobody catches ends the blocks that it escapes from. Nodes are known
by their addresses, which a removal changes for all that it cuts off (`Memory.follow`). Whatever a program removes,
overwrites or creates on its way, it ends in the node and under the path that it began in (`Reachable.scoped`).
-/

namespace Linework

/-- Where a node is: its tree, and the way to it there. -/
abbrev Address := Option Nat × List Text

namespace Address

/-- Where a node is after the one at `gone`, with all below it, has become tree `fresh`. -/
def cut (gone : Address) (fresh : Nat) (address : Address) : Address :=
  if address.1 = gone.1 ∧ gone.2.isPrefixOf address.2 then (some fresh, address.2.drop gone.2.length) else address

end Address

namespace Place

def address (place : Place) : Address := (place.tree, place.route)

/-- A working directory whose node is elsewhere now. -/
def moved (f : Address → Address) (place : Place) : Place :=
  { place with tree := (f place.address).1, route := (f place.address).2 }

theorem moved_moved (f g : Address → Address) (place : Place) : (place.moved f).moved g = place.moved (g ∘ f) := rfl

theorem cut_eq_moved (gone : Address) (fresh : Nat) (place : Place) :
    place.cut gone.1 gone.2 fresh = place.moved (gone.cut fresh) := by
  unfold Place.cut moved Address.cut address
  dsimp only
  split <;> rfl

end Place

namespace Memory

open Op

variable {m s last after : Memory} {f g : Address → Address} {rules : Rules} {action : Action} {path : Text}

/-- The node that a path resolves to. -/
def address (m : Memory) (path : Text) : Address := ((m.walk path).tree, (m.walk path).route)

/-- Where the node at an address is after a removal that has ended in a result. -/
def removed {α : Type} (m : Memory) (path : Text) : Except Failure α → Address → Address
  | .ok _ => (m.address path).cut m.detached.length
  | .error _ => id

/-- Where the node at an address is once an action has been taken. -/
def follow (m : Memory) (rules : Rules) (action : Action) : Address → Address :=
  match action with
  | .remove path | .removeTree path => m.removed path (Op.outcome (action.perform rules) m).1
  | _ => id

/-- What a program comes to: where the nodes from its beginning are then, the memory, and the failure that it ends
with if one has been raised and not been caught. -/
inductive Runs : Memory → (Address → Address) → Memory → Option Failure → Prop
  | rest {m : Memory} : Runs m id m none
  | raise {m s : Memory} {f : Address → Address} (h : Runs m f s none) (failure : Failure) :
      Runs m f s (some failure)
  | caught {m s : Memory} {f : Address → Address} {failure : Failure} (h : Runs m f s (some failure)) :
      Runs m f s none
  | acted {m s : Memory} {f : Address → Address} (h : Runs m f s none) {rules : Rules} {action : Action}
      {answer : Answer} (hanswer : (Op.outcome (action.perform rules) s).1 = .ok answer) :
      Runs m (s.follow rules action ∘ f) (Op.outcome (action.perform rules) s).2.store none
  | failed {m s : Memory} {f : Address → Address} (h : Runs m f s none) {rules : Rules} {action : Action}
      {failure : Failure} (hfailure : (Op.outcome (action.perform rules) s).1 = .error failure) :
      Runs m (s.follow rules action ∘ f) (Op.outcome (action.perform rules) s).2.store (some failure)
  | refused {m s : Memory} {f : Address → Address} (h : Runs m f s none) {path : Text} {failure : Failure}
      (hrefused : (Op.outcome (Storage.enter path) s).1 = .error failure) :
      Runs m f (Op.outcome (Storage.enter path) s).2.store (some failure)
  | block {m s last : Memory} {f g : Address → Address} {raised : Option Failure} (h : Runs m f s none) {path : Text}
      (hentered : (Op.outcome (Storage.enter path) s).1 = .ok ())
      (hbody : Runs (Op.outcome (Storage.enter path) s).2.store g last raised) :
      Runs m (g ∘ f) (Op.outcome Storage.leave last).2.store raised

/-- The memories that a program comes to, inside of blocks as well. -/
inductive Visits : Memory → Memory → Prop
  | here {m s : Memory} {f : Address → Address} {raised : Option Failure} (h : Runs m f s raised) : Visits m s
  | inside {m s after : Memory} {f : Address → Address} (h : Runs m f s none) {path : Text}
      (hentered : (Op.outcome (Storage.enter path) s).1 = .ok ())
      (hinside : Visits (Op.outcome (Storage.enter path) s).2.store after) : Visits m after

variable {raised : Option Failure}

/-! ## Working directories of actions -/

/-- The working directories are those from before, wherever their nodes are now. -/
structure Kept (m : Memory) (f : Address → Address) (after : Memory) : Prop where
  here : after.here = m.here.moved f
  saved : after.saved = m.saved.map (Place.moved f)

theorem kept_of_eq (hhere : after.here = m.here) (hsaved : after.saved = m.saved) : m.Kept id after :=
  ⟨hhere, hsaved.trans (List.map_id _).symm⟩

theorem Kept.trans (h : m.Kept f s) (hafter : s.Kept g after) : m.Kept (g ∘ f) after where
  here := by rw [hafter.here, h.here, Place.moved_moved]
  saved := by
    rw [hafter.saved, h.saved, List.map_map]
    rfl

theorem cut_eq_moved {name : Text} (hname : (m.walk path).segments.getLast? = some name) (fresh : Nat) (place : Place) :
    place.cut (m.walk path).tree ((m.walk path).start ++ (m.walk path).segments.dropLast ++ [name]) fresh =
      place.moved ((m.address path).cut fresh) := by
  rw [← route_eq_parent_append hname]
  exact Place.cut_eq_moved (m.address path) fresh place

/-- A removal moves the working directories that it cuts off. -/
theorem kept_unlinked {node : Node} {name : Text} (hnode : m.find? path = some node)
    (hname : (m.walk path).segments.getLast? = some name) :
    m.Kept ((m.address path).cut m.detached.length) (m.unlinked path name) := by
  obtain ⟨tree, htree, hat⟩ := exists_tree_of_find? hnode
  rw [route_eq_parent_append hname] at hat
  rw [unlinked, cut_eq htree hat]
  constructor
  · exact cut_eq_moved hname _ m.here
  · exact List.map_congr_left fun place _ => cut_eq_moved hname _ place

theorem ends_unlink_kept (path : Text) (allowed : Node → Bool) (n : Note) :
    Ends (Action.silently (unlink path allowed >>= fun _ => Op.note n)) m fun result after =>
      m.Kept (m.removed path result) after := by
  refine .map (.bind (ends_unlink (fun _ => ?_) (fun _ _ _ => ?_) fun node name hnode _ hname => ?_))
  · exact kept_of_eq rfl rfl
  · exact kept_of_eq rfl rfl
  · rw [andThen_ok]
    exact ends_note.2 (kept_unlinked hnode hname)

/-- An action that removes nothing leaves the working directories where they are. -/
theorem Sound.ends_perform_stays (h : m.Sound) (rules : Rules) {action : Action}
    (hnever : ∀ path, ¬ (Move.act rules action).Removes path) :
    Ends (action.perform rules) m fun _ after => after.here = m.here ∧ after.saved = m.saved := by
  have hself : m.here = m.here ∧ m.saved = m.saved := ⟨rfl, rfl⟩
  have hchanged : ∀ tree f, (m.changeTree tree f).here = m.here ∧ (m.changeTree tree f).saved = m.saved :=
    fun tree f => ⟨here_changeTree m tree f, saved_changeTree m tree f⟩
  have hasks : ∀ {α β : Type} (f : Memory → α) (g : α → β),
      Ends ((Op.store >>= fun m => pure (f m)) >>= fun value => pure (g value)) m
        fun _ after => after.here = m.here ∧ after.saved = m.saved := fun f g => .map (.map (ends_store.2 hself))
  have hwrite : ∀ path content, Ends (write path content) m
      fun _ after => after.here = m.here ∧ after.saved = m.saved := by
    intro path content
    obtain ⟨tree, htree, -⟩ := h.exists_tree path
    exact h.ends_write htree (fun _ => hself) (fun _ _ => hself) fun _ _ _ => hchanged _ _
  have hmake : ∀ path, Ends (makeDir path) m fun _ after => after.here = m.here ∧ after.saved = m.saved := by
    intro path
    obtain ⟨tree, htree, -⟩ := h.exists_tree path
    exact h.ends_makeDir htree (fun _ => hself) (fun _ => hself) fun _ _ => hchanged _ _
  cases action with
  | remove path | removeTree path => exact absurd rfl (hnever path)
  | touch path =>
    obtain ⟨tree, htree, -⟩ := h.exists_tree path
    exact .map (h.ends_touch htree (fun _ _ _ => hself) (fun _ _ _ => hself) (fun _ _ => hself)
      fun _ _ _ => hchanged _ _)
  | read path => exact .map (ends_file (fun _ => hself) (fun _ _ _ => hself) fun _ _ _ _ => hself)
  | readLines path => exact .map (.map (ends_file (fun _ => hself) (fun _ _ _ => hself) fun _ _ _ _ => hself))
  | write path content => exact .map (hwrite path content)
  | copy source destination =>
    exact .map (.bind (ends_file (fun _ => hself) (fun _ _ _ => hself) fun _ content _ _ =>
      hwrite destination content))
  | makeDir path | makeParents path => exact .map (hmake _)
  | workingDir | expand path base | hasEntry path | isDir path | isExecutable path => exact hasks _ _
  | join tokens => exact ends_pure.2 hself
  | setMode path bits => exact .map (ends_setMode (fun _ => hself) fun _ _ => hchanged _ _)
  | mode path => exact .map (ends_mode (fun _ => hself) fun _ _ => hself)
  | entries path => exact .map (ends_entries (fun _ => hself) (fun _ _ _ => hself) fun _ _ _ => hself)
  | edit path e =>
    obtain ⟨tree, htree, -⟩ := h.exists_tree path
    exact .map (h.ends_edit htree (fun _ _ => hself) (fun _ _ _ => hself) (fun _ _ _ => hself)
      (fun _ _ _ _ _ _ => hself) (fun _ _ _ _ _ _ _ => hself) (fun _ _ _ _ _ _ _ => hchanged _ _)
      fun _ _ _ _ _ _ => hchanged _ _)

/-- **An action moves working directories** only with what it removes. -/
theorem Sound.kept_perform (h : m.Sound) (rules : Rules) (action : Action) :
    m.Kept (m.follow rules action) (Op.outcome (action.perform rules) m).2.store := by
  by_cases hnever : ∀ path, ¬ (Move.act rules action).Removes path
  · have hstays := (h.ends_perform_stays rules hnever).outcome
    have hfollow : m.follow rules action = id := by
      cases action with
      | remove path | removeTree path => exact absurd rfl (hnever path)
      | _ => rfl
    rw [hfollow]
    exact kept_of_eq hstays.1 hstays.2
  · cases action with
    | remove path | removeTree path => exact (ends_unlink_kept path _ _).outcome
    | _ => exact absurd (fun _ => id) hnever

/-! ## Working directories of programs -/

theorem Sound.normalize_pwd (h : m.Sound) : Path.normalize m.pwd = m.pwd :=
  Path.normalize_ofSegments (h.places m.here List.mem_cons_self).plain

theorem address_dot (m : Memory) : m.address (Text.lit ".") = m.here.address := by
  have hroute : (m.walk (Text.lit ".")).route = m.here.route := List.append_nil _
  exact Prod.ext rfl hroute

theorem entered_of_enter (hentered : (Op.outcome (Storage.enter path) m).1 = .ok ()) :
    (Op.outcome (Storage.enter path) m).2.store = m.entered path := by
  have hends : Ends (Storage.enter path) m fun result after => result = .ok () → after = m.entered path :=
    ends_enter (fun _ => nofun) (fun _ _ _ => nofun) fun _ _ _ _ => rfl
  exact hends.outcome hentered

theorem eq_of_refused {failure : Failure} (hrefused : (Op.outcome (Storage.enter path) m).1 = .error failure) :
    (Op.outcome (Storage.enter path) m).2.store = m := by
  have hends : Ends (Storage.enter path) m fun result after => result = .error failure → after = m :=
    ends_enter (fun _ _ => rfl) (fun _ _ _ _ => rfl) fun _ _ _ => nofun
  exact hends.outcome hrefused

/-- A block ends in the node that it was entered from. -/
theorem Kept.block (hentered : (Op.outcome (Storage.enter path) m).1 = .ok ())
    (hbody : (Op.outcome (Storage.enter path) m).2.store.Kept f last) :
    m.Kept f (Op.outcome Storage.leave last).2.store := by
  rw [entered_of_enter hentered] at hbody
  have hsaved : last.saved = m.here.moved f :: m.saved.map (Place.moved f) := hbody.saved
  have hleft : (Op.outcome Storage.leave last).2.store = last.left := rfl
  rw [hleft, left, hsaved]
  exact ⟨rfl, rfl⟩

theorem Runs.reachable (h : Runs m f s raised) (hm : m.Reachable) : s.Reachable := by
  induction h with
  | rest => exact hm
  | raise _ _ ih | caught _ ih => exact ih hm
  | acted _ _ ih | failed _ _ ih => exact (ih hm).move (.act _ _)
  | refused _ _ ih => exact (ih hm).enter _
  | block _ _ _ ih ihbody => exact (ihbody ((ih hm).enter _)).leave

/-- **A program** ends in the working directories that it began in, wherever their nodes are then. -/
theorem Runs.kept (h : Runs m f s raised) (hm : m.Reachable) : m.Kept f s := by
  induction h with
  | rest => exact kept_of_eq rfl rfl
  | raise _ _ ih | caught _ ih => exact ih hm
  | acted h _ ih | failed h _ ih => exact (ih hm).trans ((h.reachable hm).sound.kept_perform _ _)
  | refused _ hrefused ih => exact (eq_of_refused hrefused).symm ▸ ih hm
  | block h hentered _ ih ihbody =>
    exact (ih hm).trans (.block hentered (ihbody ((h.reachable hm).enter _)))

theorem Visits.reachable (h : Visits m s) (hm : m.Reachable) : s.Reachable := by
  induction h with
  | here h => exact h.reachable hm
  | inside h _ _ ih => exact ih ((h.reachable hm).enter _)

/-- What a program relies on wherever it has come to. -/
structure Scoped (m : Memory) : Prop where
  /-- The working directory has a normal, absolute path. -/
  normal : Path.normalize m.pwd = m.pwd ∧ Path.isAbsolute m.pwd = true
  /-- Inside of a block, the working directory is what the path led to outside. -/
  enters {path : Text} : (Op.outcome (Storage.enter path) m).1 = .ok () →
    (Op.outcome (Storage.enter path) m).2.store.pwd = m.expand path none ∧
      (Op.outcome (Storage.enter path) m).2.store.address (Text.lit ".") = m.address path ∧
      ∀ tree, (Op.outcome (Storage.enter path) m).2.store.tree? tree = m.tree? tree
  /-- A block that cannot be entered changes nothing. -/
  refuses {path : Text} {failure : Failure} : (Op.outcome (Storage.enter path) m).1 = .error failure →
    (Op.outcome (Storage.enter path) m).2.store = m
  /-- However the program goes on from here, the working directory is the same in the end. -/
  ends {f : Address → Address} {s : Memory} {raised : Option Failure} : Runs m f s raised →
    s.pwd = m.pwd ∧ s.address (Text.lit ".") = f (m.address (Text.lit "."))

theorem Kept.pwd (h : m.Kept f s) : s.pwd = m.pwd := by
  unfold Memory.pwd
  rw [h.here, Place.moved]

theorem Kept.address_dot (h : m.Kept f s) : s.address (Text.lit ".") = f (m.address (Text.lit ".")) := by
  rw [Memory.address_dot, Memory.address_dot, h.here]
  rfl

/-- **Working directories are scoped**: wherever a program has come to, it ends, with a failure or without one, in
the node and under the path that it is in there, a block begins in the node and under the path that it is entered
by, and one that is refused changes neither. -/
theorem Reachable.scoped (h : m.Reachable) (hvisits : Visits m s) : s.Scoped where
  normal := ⟨(hvisits.reachable h).sound.normalize_pwd, Path.isAbsolute_ofSegments _⟩
  enters {path} hentered := by
    rw [entered_of_enter hentered, expand_eq_ofSegments, Memory.address_dot]
    exact ⟨rfl, rfl, fun tree => by cases tree <;> rfl⟩
  refuses := eq_of_refused
  ends hruns := ⟨(hruns.kept (hvisits.reachable h)).pwd, (hruns.kept (hvisits.reachable h)).address_dot⟩

/-- In a directory that has been entered. -/
def lodged : Memory :=
  (Op.outcome (Storage.enter (Text.lit "/a"))
    (Op.outcome (Action.perform {} (.makeDir (Text.lit "/a"))) ({} : Memory)).2.store).2.store

theorem reachable_lodged : lodged.Reachable := (Reachable.start.move (.act {} (.makeDir (Text.lit "/a")))).enter _

/-- The same directory, which has been removed from within, and in the directory above it. -/
def evicted : Memory :=
  (Op.outcome (Storage.enter (Text.lit "/"))
    (Op.outcome (Action.perform {} (.removeTree (Text.lit "/a"))) lodged).2.store).2.store

/-- A directory is removed from within and a file put in its place, in a block that ends in a failure. -/
theorem scoped_removed :
    lodged.Reachable ∧ Visits lodged lodged ∧ Visits lodged evicted ∧ Path.normalize evicted.pwd = evicted.pwd ∧
      ∃ f s, Runs lodged f s (some (.raised (Text.lit "x"))) ∧
        s.root.listing [Text.lit "a"] = some (.file Node.fileMode (Text.lit "y")) ∧
        s.pwd = lodged.pwd ∧ s.address (Text.lit ".") = f (lodged.address (Text.lit ".")) ∧
        f (lodged.address (Text.lit ".")) = (some 0, []) := by
  have hremoved := @Runs.acted lodged lodged id .rest {} (.removeTree (Text.lit "/a")) .nothing rfl
  have hwritten := @Runs.acted evicted evicted id .rest {} (.write (Text.lit "/a") (Text.lit "y")) .nothing rfl
  have hentered : (Op.outcome (Storage.enter (Text.lit "/"))
      (Op.outcome (Action.perform {} (.removeTree (Text.lit "/a"))) lodged).2.store).1 = .ok () := rfl
  have hruns := hremoved.block hentered (hwritten.raise (.raised (Text.lit "x")))
  have houtside : Visits lodged lodged := .here .rest
  have hinside : Visits lodged evicted := .inside hremoved hentered (.here .rest)
  have hnormal := (Reachable.scoped reachable_lodged hinside).normal.1
  obtain ⟨hpwd, hdot⟩ := (Reachable.scoped reachable_lodged houtside).ends hruns
  exact ⟨reachable_lodged, houtside, hinside, hnormal, _, _, hruns, rfl, hpwd, hdot, rfl⟩

/-! ## Scripts -/

theorem Runs.trans (h : Runs m f s none) (hafter : Runs s g after raised) : Runs m (g ∘ f) after raised := by
  induction hafter with
  | rest => exact h
  | raise _ failure ih => exact (ih h).raise failure
  | caught _ ih => exact (ih h).caught
  | acted _ hanswer ih => exact (ih h).acted hanswer
  | failed _ hfailure ih => exact (ih h).failed hfailure
  | refused _ hrefused ih => exact (ih h).refused hrefused
  | block _ hentered hbody ih _ => exact (ih h).block hentered hbody

theorem Runs.settle (h : Runs m f s raised) : Runs m f s none := by
  cases raised with
  | none => exact h
  | some failure => exact h.caught

end Memory

namespace Step

open Memory

mutual

/-- **A step of a script** is a program. -/
theorem exists_runs_run (rules : Rules) (m : Memory) (step : Step Action) :
    ∃ f raised, Runs m f (run (Action.perform rules) m step).after raised :=
  match step with
  | .act action => by
    cases hresult : (Op.outcome (action.perform rules) m).1 with
    | ok answer => exact ⟨_, _, .acted .rest hresult⟩
    | error failure => exact ⟨_, _, .failed .rest hresult⟩
  | .giveUp text => ⟨_, _, .raise .rest (.raised text)⟩
  | .within path body => by
    rw [run]
    cases hentered : Op.outcome (Storage.enter path) m with
    | mk result world =>
      cases result with
      | error failure =>
        have hrefused : (Op.outcome (Storage.enter path) m).1 = .error failure := by rw [hentered]
        have hruns := Runs.refused .rest hrefused
        rw [hentered] at hruns
        exact ⟨_, _, hruns⟩
      | ok value =>
        have hok : (Op.outcome (Storage.enter path) m).1 = .ok () := by rw [hentered]
        obtain ⟨f, raised, hbody⟩ := exists_runs_runBlock rules (Op.outcome (Storage.enter path) m).2.store body
        have hruns := Runs.block .rest hok hbody
        rw [hentered] at hruns
        refine ⟨f ∘ id, raised, ?_⟩
        dsimp only
        rw [after_close]
        exact hruns

theorem exists_runs_runBlock (rules : Rules) (m : Memory) (steps : List (Step Action)) :
    ∃ f raised, Runs m f (final m (runBlock (Action.perform rules) m steps)) raised :=
  match steps with
  | [] => ⟨_, _, .rest⟩
  | step :: rest => by
    obtain ⟨f, raised, hstep⟩ := exists_runs_run rules m step
    rw [runBlock]
    split
    · exact ⟨f, raised, hstep⟩
    · obtain ⟨g, raised, hrest⟩ := exists_runs_runBlock rules (run (Action.perform rules) m step).after rest
      rw [final_cons]
      exact ⟨_, _, hstep.settle.trans hrest⟩

end

/-- A step of a script ends in the working directories that it began in. -/
theorem exists_kept_run {m : Memory} (h : m.Reachable) (rules : Rules) (step : Step Action) :
    ∃ f, m.Kept f (run (Action.perform rules) m step).after := by
  obtain ⟨f, raised, hruns⟩ := exists_runs_run rules m step
  exact ⟨f, hruns.kept h⟩

end Step

end Linework
