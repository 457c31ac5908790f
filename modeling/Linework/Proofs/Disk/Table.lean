import Linework.Disk.Basic
import Mathlib.Logic.Basic

/-!
# Disks as tables

What is at a route after the table has been changed: an entry that is put is there and nowhere else
(`find?_put`), one that is taken away is gone. The names in a directory are those of the entries one
below it (`mem_names_iff`), each of them once as long as no request puts a route in twice.
-/

namespace Linework

namespace Disk

variable {d : Disk} {route other : Route} {entry : DiskEntry}

theorem find?_eq_none_iff : d.find? route = none ↔ ∀ old ∈ d.entries, old.1 ≠ route := by
  simp [find?, List.find?_eq_none]

theorem find?_replaced (entries : List (Route × DiskEntry)) :
    ((entries.map fun old => if old.1 = route then (route, entry) else old).find? fun old => old.1 = other) =
      if other = route then (entries.find? fun old => old.1 = route).map fun _ => (route, entry)
      else entries.find? fun old => old.1 = other := by
  induction entries with
  | nil => simp
  | cons first rest ih =>
    rw [List.map_cons, List.find?_cons, List.find?_cons, List.find?_cons, ih]
    by_cases hfirst : first.1 = route
    · by_cases hother : other = route
      · simp [hfirst, hother]
      · simp [hfirst, hother, Ne.symm hother]
    · by_cases hother : other = route
      · simp [hfirst, hother]
      · simp [hfirst, hother]

theorem find?_put (d : Disk) (route other : Route) (entry : DiskEntry) :
    (d.put route entry).find? other = if other = route then some entry else d.find? other := by
  unfold put
  split
  · rename_i hsome
    show (List.find? _ (d.entries.map _)).map _ = _
    rw [find?_replaced]
    split
    · obtain ⟨old, hold⟩ := Option.isSome_iff_exists.1 hsome
      obtain ⟨found, hfound, -⟩ := Option.map_eq_some_iff.1 hold
      rw [hfound]
      rfl
    · rfl
  · rename_i hnone
    have hnone : d.find? route = none := by simpa using hnone
    show (List.find? _ (d.entries ++ [(route, entry)])).map _ = _
    rw [List.find?_append]
    by_cases hother : other = route
    · subst hother
      have hrest : d.entries.find? (fun old => old.1 = other) = none := by simpa [find?] using hnone
      simp [hrest]
    · have hlast : [(route, entry)].find? (fun old => old.1 = other) = none := by simp [Ne.symm hother]
      rw [hlast, Option.or_none, if_neg hother]
      rfl

theorem find?_kept {p : Route → Bool} (entries : List (Route × DiskEntry)) :
    ((entries.filter fun old => p old.1).find? fun old => old.1 = other) =
      if p other then entries.find? fun old => old.1 = other else none := by
  rw [List.find?_filter]
  split
  · rename_i hp
    congr 1
    funext old
    by_cases hold : old.1 = other
    · simp [hold, hp]
    · simp [hold]
  · rename_i hp
    refine List.find?_eq_none.2 fun old _ => ?_
    by_cases hold : old.1 = other
    · simp [hold, hp]
    · simp [hold]

theorem find?_erase (d : Disk) (route other : Route) :
    (d.erase route).find? other = if other = route then none else d.find? other := by
  show (List.find? _ (d.entries.filter fun old => decide (old.1 ≠ route))).map _ = _
  rw [find?_kept (p := fun r => decide (r ≠ route))]
  by_cases hother : other = route <;> simp [hother, find?]

/-- Clearing a directory leaves itself and what is not below it. -/
theorem find?_clear (d : Disk) (route other : Route) :
    (d.clear route).find? other = if route <+: other ∧ other ≠ route then none else d.find? other := by
  show (List.find? _ (d.entries.filter fun old => !(route.isPrefixOf old.1) || decide (old.1 = route))).map _ = _
  rw [find?_kept (p := fun r => !(route.isPrefixOf r) || decide (r = route))]
  have hp : (!(route.isPrefixOf other) || decide (other = route)) = true ↔ ¬ (route <+: other ∧ other ≠ route) := by
    rw [← List.isPrefixOf_iff_prefix]
    by_cases hother : other = route
    · simp [hother]
    · cases route.isPrefixOf other <;> simp [hother]
  by_cases hgone : route <+: other ∧ other ≠ route
  · rw [if_neg (mt hp.1 (not_not.2 hgone)), if_pos hgone]
    rfl
  · rw [if_pos (hp.2 hgone), if_neg hgone]
    rfl

/-! ## Names -/

theorem mem_names_iff {name : Text} : name ∈ d.names route ↔ d.find? (route ++ [name]) ≠ none := by
  rw [Ne, find?_eq_none_iff, names, List.mem_filterMap]
  constructor
  · rintro ⟨old, hold, hname⟩ hnone
    split at hname
    · rename_i hdrop
      obtain ⟨front, hfront⟩ := List.getLast?_eq_some_iff.1 hname
      rw [hfront, List.dropLast_concat] at hdrop
      exact hnone old hold (hdrop ▸ hfront)
    · cases hname
  · intro hsome
    simp only [not_forall, not_not] at hsome
    obtain ⟨old, hold, hroute⟩ := hsome
    refine ⟨old, hold, ?_⟩
    rw [hroute, if_pos List.dropLast_concat, List.getLast?_concat]

theorem names_replaced (hsome : (d.find? other).isSome) :
    (d.put other entry).names route = d.names route := by
  unfold put names
  rw [if_pos hsome]
  show List.filterMap _ (d.entries.map _) = _
  rw [List.filterMap_map]
  congr 1
  funext old
  simp only [Function.comp_apply]
  by_cases hold : old.1 = other
  · rw [if_pos hold, hold]
  · rw [if_neg hold]

theorem nodup_names_put (h : (d.names route).Nodup) : ((d.put other entry).names route).Nodup := by
  by_cases hsome : (d.find? other).isSome
  · rw [names_replaced hsome]
    exact h
  · have hput : (d.put other entry).names route =
        d.names route ++ (if other.dropLast = route then other.getLast? else none).toList := by
      unfold put names
      rw [if_neg hsome]
      show List.filterMap _ (d.entries ++ [(other, entry)]) = _
      rw [List.filterMap_append]
      congr 1
    rw [hput]
    cases hlast : (if other.dropLast = route then other.getLast? else none) with
    | none => simpa using h
    | some name =>
      have hnew : name ∉ d.names route := by
        rw [mem_names_iff, not_not]
        split at hlast
        · rename_i hdrop
          obtain ⟨front, rfl⟩ := List.getLast?_eq_some_iff.1 hlast
          rw [List.dropLast_concat] at hdrop
          subst hdrop
          simpa using hsome
        · cases hlast
      rw [Option.toList_some]
      refine List.nodup_append.2 ⟨h, by simp, fun a ha b hb heq => ?_⟩
      rw [List.mem_singleton.1 hb] at heq
      exact hnew (heq ▸ ha)

theorem nodup_names_erase (h : (d.names route).Nodup) : ((d.erase other).names route).Nodup :=
  h.sublist (List.filter_sublist.filterMap _)

theorem nodup_names_clear (h : (d.names route).Nodup) : ((d.clear other).names route).Nodup :=
  h.sublist (List.filter_sublist.filterMap _)

end Disk

end Linework
