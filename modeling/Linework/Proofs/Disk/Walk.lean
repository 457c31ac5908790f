import Linework.Disk.Request
import Linework.Proofs.Disk.Table
import Linework.Proofs.Path.Host

/-!
# Walks over directories

Where the absolute path of plain names leads on a host without limits of length. As far as there
are directories, the walk goes on (`walkWith_open`); what is at the first name behind them settles
it (`resolve_missing`, `resolve_file`, `resolve_open`). No link is met on such a way.
-/

namespace Linework

namespace Disk

variable {d : Disk} {follow : Bool} {jump : Spot → List Text → Except Errno Found}

/-- Directories all the way to a route, the one at its end included. -/
def Open (d : Disk) (route : Route) : Prop :=
  ∀ above, above <+: route → ∃ mode, d.find? above = some (.directory mode)

/-- The host takes names and paths of any length. -/
def Unlimited (d : Disk) : Prop := d.host.nameLimit = none ∧ d.host.pathLimit = none

theorem open_append {front rest : Route} (hfront : d.Open front)
    (hrest : ∀ above, above <+: rest → ∃ mode, d.find? (front ++ above) = some (.directory mode)) :
    d.Open (front ++ rest) := by
  intro above habove
  rcases List.prefix_or_prefix_of_prefix habove (List.prefix_append front rest) with hshort | hlong
  · exact hfront above hshort
  · obtain ⟨more, rfl⟩ := hlong
    exact hrest more ((List.prefix_append_right_inj front).1 habove)

/-- A directory in one that is there. -/
theorem open_concat {live : Route} {name : Text} {mode : Nat} (hlive : d.Open live)
    (hdirectory : d.find? (live ++ [name]) = some (.directory mode)) : d.Open (live ++ [name]) := by
  intro above habove
  rcases List.prefix_concat_iff.1 habove with rfl | hshort
  · exact ⟨mode, hdirectory⟩
  · exact hlive above hshort

theorem mem_beginnings_iff {route above : Route} : above ∈ beginnings route ↔ above <+: route := by
  rw [beginnings, List.mem_map]
  constructor
  · rintro ⟨n, -, rfl⟩
    exact List.take_prefix n route
  · intro habove
    have hlength := habove.length_le
    exact ⟨above.length, List.mem_range.2 (by omega), (List.prefix_iff_eq_take.1 habove).symm⟩

theorem open_atRoute (route : Route) : (atRoute route).Open route := by
  intro above habove
  cases hfound : (atRoute route).find? above with
  | none => exact absurd rfl (find?_eq_none_iff.1 hfound _ (List.mem_map_of_mem (mem_beginnings_iff.2 habove)))
  | some entry =>
    obtain ⟨old, hold, rfl⟩ := Option.map_eq_some_iff.1 hfound
    obtain ⟨beginning, -, rfl⟩ := List.mem_map.1 (List.mem_of_find?_eq_some hold)
    exact ⟨_, rfl⟩

theorem find?_atRoute_eq_none {route other : Route} (h : ¬ other <+: route) :
    (atRoute route).find? other = none := by
  refine find?_eq_none_iff.2 fun old hold heq => ?_
  obtain ⟨beginning, hbeginning, rfl⟩ := List.mem_map.1 hold
  exact h (heq ▸ mem_beginnings_iff.1 hbeginning)

/-- A name is looked up in the directory that the walk has come to. -/
theorem walkWith_name (hunlimited : d.Unlimited) {piece : Text} (hplain : Path.Plain piece) (start : Route)
    (rest : List Text) :
    d.walkWith jump follow ⟨start, []⟩ (piece :: rest) =
      match d.find? (start ++ [piece]) with
      | none => if rest = [] then .ok (.missing (start ++ [piece])) else .error Errno.noEntry
      | some (.directory _) => d.walkWith jump follow ⟨start ++ [piece], []⟩ rest
      | some (.file mode bytes) =>
        if rest = [] then .ok (.entry (start ++ [piece]) (.file mode bytes)) else .error Errno.notDirectory
      | some (.link target) =>
        if rest = [] && !follow then .ok (.entry (start ++ [piece]) (.link target))
        else jump (origin ⟨start, []⟩ target) (HostPath.names target ++ rest) := by
  have hskip : ¬ (decide (piece = []) || decide (piece = (['.'] : Text))) = true := by
    simp [hplain.ne_nil, hplain.ne_dot]
  have hup : piece ≠ HostPath.up := hplain.ne_up
  have hlength : d.host.refusesName piece = false := by rw [Host.refusesName, hunlimited.1]; rfl
  rw [walkWith, if_neg hskip, if_neg hup, if_neg (by simp), hlength]
  exact if_neg (by simp)

theorem walkWith_open (hunlimited : d.Unlimited) {names : List Text} (hplain : ∀ s ∈ names, Path.Plain s)
    (start : Route) (hopen : d.Open (start ++ names)) (more : List Text) :
    d.walkWith jump follow ⟨start, []⟩ (names ++ more) = d.walkWith jump follow ⟨start ++ names, []⟩ more := by
  induction names generalizing start with
  | nil => rw [List.nil_append, List.append_nil]
  | cons name rest ih =>
    have hassoc : start ++ name :: rest = start ++ [name] ++ rest := by simp
    rw [hassoc] at hopen ⊢
    obtain ⟨mode, hmode⟩ := hopen (start ++ [name]) (List.prefix_append _ _)
    rw [List.cons_append, walkWith_name hunlimited (hplain name List.mem_cons_self), hmode]
    exact ih (fun s hs => hplain s (List.mem_cons_of_mem _ hs)) _ hopen

/-- A path of names is walked from the root. -/
theorem resolve_ofSegments (hunlimited : d.Unlimited) {route : Route} (hne : route ≠ [])
    (hnames : ∀ s ∈ route, Path.Name s) (follow : Bool) :
    ∃ jump, d.resolve follow (Path.ofSegments route) = d.walkWith jump follow ⟨[], []⟩ route := by
  have hlength : d.host.refusesPath (Path.ofSegments route) = false := by rw [Host.refusesPath, hunlimited.2]; rfl
  have horigin : origin d.here (Path.ofSegments route) = ⟨[], []⟩ := rfl
  refine ⟨d.walk follow 39, ?_⟩
  rw [resolve, if_neg (by simp [Path.ofSegments]), hlength, if_neg (by simp), horigin,
    Path.names_ofSegments hne hnames]
  rfl

section Resolve

variable {front : Route} {name : Text} {more : List Text} (hunlimited : d.Unlimited)
  (hnames : ∀ s ∈ front ++ name :: more, Path.Name s) (hopen : d.Open front)
include hunlimited hnames hopen

theorem resolve_front (follow : Bool) :
    ∃ jump, d.resolve follow (Path.ofSegments (front ++ name :: more)) =
      d.walkWith jump follow ⟨front, []⟩ (name :: more) := by
  obtain ⟨jump, hresolve⟩ := resolve_ofSegments hunlimited (by simp) hnames follow
  refine ⟨jump, ?_⟩
  have hwalk : d.walkWith jump follow ⟨[], []⟩ (front ++ name :: more) =
      d.walkWith jump follow ⟨[] ++ front, []⟩ (name :: more) :=
    walkWith_open hunlimited (fun s hs => (hnames s (List.mem_append_left _ hs)).toPlain) [] hopen (name :: more)
  rw [hresolve, hwalk, List.nil_append]

theorem resolve_missing (hnone : d.find? (front ++ [name]) = none) (follow : Bool) :
    d.resolve follow (Path.ofSegments (front ++ name :: more)) =
      if more = [] then .ok (.missing (front ++ [name])) else .error Errno.noEntry := by
  obtain ⟨jump, hresolve⟩ := resolve_front hunlimited hnames hopen follow
  rw [hresolve, walkWith_name hunlimited (hnames name (by simp)).toPlain, hnone]

theorem resolve_file {mode : Nat} {bytes : List UInt8}
    (hfile : d.find? (front ++ [name]) = some (.file mode bytes)) (follow : Bool) :
    d.resolve follow (Path.ofSegments (front ++ name :: more)) =
      if more = [] then .ok (.entry (front ++ [name]) (.file mode bytes))
      else .error Errno.notDirectory := by
  obtain ⟨jump, hresolve⟩ := resolve_front hunlimited hnames hopen follow
  rw [hresolve, walkWith_name hunlimited (hnames name (by simp)).toPlain, hfile]

end Resolve

theorem resolve_open (hunlimited : d.Unlimited) {route : Route} (hnames : ∀ s ∈ route, Path.Name s)
    (hopen : d.Open route) (follow : Bool) :
    ∃ mode, d.resolve follow (Path.ofSegments route) = .ok (.entry route (.directory mode)) := by
  obtain ⟨mode, hmode⟩ := hopen route (List.prefix_refl _)
  refine ⟨mode, ?_⟩
  by_cases hne : route = []
  · subst hne
    have hlength : d.host.refusesPath (Path.ofSegments []) = false := by
      rw [Host.refusesPath, hunlimited.2]
      rfl
    rw [resolve, if_neg (by simp [Path.ofSegments]), hlength, if_neg (by simp)]
    show Except.ok (d.standing ⟨[], []⟩) = _
    rw [standing, if_pos rfl, hmode]
  · obtain ⟨jump, hresolve⟩ := resolve_ofSegments hunlimited hne hnames follow
    have hwalk : d.walkWith jump follow ⟨[], []⟩ (route ++ []) = d.walkWith jump follow ⟨[] ++ route, []⟩ [] :=
      walkWith_open hunlimited (fun s hs => (hnames s hs).toPlain) [] hopen []
    rw [List.append_nil, List.nil_append] at hwalk
    rw [hresolve, hwalk, walkWith, standing, if_pos rfl, hmode]

end Disk

end Linework
