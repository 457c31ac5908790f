import Linework.Proofs.Disk.Walk

/-!
# Where paths lead

The walk along a path told as a relation: what is found at each piece, and where the walk goes on. A walk
over a number of links ends in a place exactly if its pieces lead there (`walk_eq_ok_iff`), and they lead
to one place only (`Reaches.unique`). So what is true of all walks is shown piece by piece, by induction on
the relation, on disks with links and limits of any sort.
-/

namespace Linework

namespace Disk

/-- A piece that the host takes for the name of an entry. -/
structure Takes (d : Disk) (piece : Text) : Prop where
  ne_nil : piece ≠ []
  ne_dot : piece ≠ (['.'] : Text)
  ne_up : piece ≠ HostPath.up
  fits : d.host.refusesName piece = false

/-- The pieces of a path lead from a spot to a place, over at most so many links. -/
inductive Reaches (d : Disk) (follow : Bool) : (links : Nat) → Spot → List Text → Found → Prop
  | done {links : Nat} {spot : Spot} : Reaches d follow links spot [] (d.standing spot)
  | stay {links : Nat} {spot : Spot} {piece : Text} {rest : List Text} {found : Found}
      (hpiece : piece = [] ∨ piece = (['.'] : Text)) (hrest : Reaches d follow links spot rest found) :
      Reaches d follow links spot (piece :: rest) found
  | up {links : Nat} {spot : Spot} {rest : List Text} {found : Found}
      (hrest : Reaches d follow links spot.parent rest found) :
      Reaches d follow links spot (HostPath.up :: rest) found
  | missing {links : Nat} {live : Route} {piece : Text} (htakes : d.Takes piece)
      (hnone : d.find? (live ++ [piece]) = none) :
      Reaches d follow links ⟨live, []⟩ [piece] (.missing (live ++ [piece]))
  | directory {links : Nat} {live : Route} {piece : Text} {rest : List Text} {found : Found} {mode : Nat}
      (htakes : d.Takes piece) (hdirectory : d.find? (live ++ [piece]) = some (.directory mode))
      (hrest : Reaches d follow links ⟨live ++ [piece], []⟩ rest found) :
      Reaches d follow links ⟨live, []⟩ (piece :: rest) found
  | file {links : Nat} {live : Route} {piece : Text} {mode : Nat} {bytes : List UInt8} (htakes : d.Takes piece)
      (hfile : d.find? (live ++ [piece]) = some (.file mode bytes)) :
      Reaches d follow links ⟨live, []⟩ [piece] (.entry (live ++ [piece]) (.file mode bytes))
  | link {links : Nat} {live : Route} {piece target : Text} (htakes : d.Takes piece)
      (hlink : d.find? (live ++ [piece]) = some (.link target)) (hfollow : follow = false) :
      Reaches d follow links ⟨live, []⟩ [piece] (.entry (live ++ [piece]) (.link target))
  | jump {links : Nat} {live : Route} {piece target : Text} {rest : List Text} {found : Found}
      (htakes : d.Takes piece) (hlink : d.find? (live ++ [piece]) = some (.link target))
      (hfollow : rest ≠ [] ∨ follow = true)
      (hrest : Reaches d follow links (origin ⟨live, []⟩ target) (HostPath.names target ++ rest) found) :
      Reaches d follow (links + 1) ⟨live, []⟩ (piece :: rest) found

variable {d : Disk} {follow : Bool} {links : Nat} {spot : Spot} {pieces : List Text} {found : Found}
  {jump : Spot → List Text → Except Errno Found}

/-- A piece that names an entry is looked up in the directory reached so far. -/
theorem walkWith_cons {piece : Text} (htakes : d.Takes piece) (live : Route) (rest : List Text) :
    d.walkWith jump follow ⟨live, []⟩ (piece :: rest) =
      match d.find? (live ++ [piece]) with
      | none => if rest = [] then .ok (.missing (live ++ [piece])) else .error Errno.noEntry
      | some (.directory _) => d.walkWith jump follow ⟨live ++ [piece], []⟩ rest
      | some (.file mode bytes) =>
        if rest = [] then .ok (.entry (live ++ [piece]) (.file mode bytes)) else .error Errno.notDirectory
      | some (.link target) =>
        if rest = [] && !follow then .ok (.entry (live ++ [piece]) (.link target))
        else jump (origin ⟨live, []⟩ target) (HostPath.names target ++ rest) := by
  have hskip : ¬ (decide (piece = []) || decide (piece = (['.'] : Text))) = true := by
    simp [htakes.ne_nil, htakes.ne_dot]
  rw [walkWith, if_neg hskip, if_neg htakes.ne_up, if_neg (by simp), htakes.fits]
  exact if_neg (by simp)

/-- A walk whose first piece names an entry, once its rest is known to lead where it ends. -/
theorem reaches_of_name {live : Route} {piece : Text} {rest : List Text}
    (hjump : ∀ spot pieces found, jump spot pieces = .ok found →
      ∃ fewer, links = fewer + 1 ∧ Reaches d follow fewer spot pieces found)
    (hrest : ∀ spot, d.walkWith jump follow spot rest = .ok found → Reaches d follow links spot rest found)
    (htakes : d.Takes piece) (h : d.walkWith jump follow ⟨live, []⟩ (piece :: rest) = .ok found) :
    Reaches d follow links ⟨live, []⟩ (piece :: rest) found := by
  rw [walkWith_cons htakes] at h
  cases hentry : d.find? (live ++ [piece]) with
  | none =>
    rw [hentry] at h
    dsimp only at h
    split at h
    · rename_i hnil
      cases h
      subst hnil
      exact .missing htakes hentry
    · cases h
  | some entry =>
    rw [hentry] at h
    cases entry with
    | directory mode => exact .directory htakes hentry (hrest _ h)
    | file mode bytes =>
      dsimp only at h
      split at h
      · rename_i hnil
        cases h
        subst hnil
        exact .file htakes hentry
      · cases h
    | link target =>
      dsimp only at h
      split at h
      · rename_i hlast
        simp only [Bool.and_eq_true, decide_eq_true_eq, Bool.not_eq_true'] at hlast
        cases h
        obtain ⟨rfl, hfollow⟩ := hlast
        exact .link htakes hentry hfollow
      · rename_i hlast
        simp only [Bool.and_eq_true, decide_eq_true_eq, Bool.not_eq_true', not_and, Bool.not_eq_false] at hlast
        obtain ⟨fewer, rfl, hreaches⟩ := hjump _ _ _ h
        refine .jump htakes hentry ?_ hreaches
        by_cases hnil : rest = []
        · exact .inr (hlast hnil)
        · exact .inl hnil

/-- Where the jumps at links lead is what the relation says, so is where the whole walk leads. -/
theorem reaches_of_walkWith
    (hjump : ∀ spot pieces found, jump spot pieces = .ok found →
      ∃ fewer, links = fewer + 1 ∧ Reaches d follow fewer spot pieces found)
    (h : d.walkWith jump follow spot pieces = .ok found) : Reaches d follow links spot pieces found := by
  induction pieces generalizing spot with
  | nil =>
    cases h
    exact .done
  | cons piece rest ih =>
    by_cases hstay : piece = [] ∨ piece = (['.'] : Text)
    · rw [walkWith, if_pos (by simpa using hstay)] at h
      exact .stay hstay (ih h)
    by_cases hup : piece = HostPath.up
    · rw [walkWith, if_neg (by simpa using hstay), if_pos hup] at h
      subst hup
      exact .up (ih h)
    obtain ⟨live, gone⟩ := spot
    by_cases hgone : gone = []
    · by_cases hfits : d.host.refusesName piece = true
      · rw [walkWith, if_neg (by simpa using hstay), if_neg hup, if_neg (by simp [hgone]), if_pos hfits] at h
        cases h
      · have htakes : d.Takes piece :=
          ⟨fun hnil => hstay (.inl hnil), fun hdot => hstay (.inr hdot), hup, by simpa using hfits⟩
        subst hgone
        exact reaches_of_name hjump (fun spot => ih) htakes h
    · rw [walkWith, if_neg (by simpa using hstay), if_neg hup, if_pos hgone] at h
      cases h

theorem walkWith_of_reaches
    (hjump : ∀ fewer spot pieces found, links = fewer + 1 → Reaches d follow fewer spot pieces found →
      jump spot pieces = .ok found)
    (h : Reaches d follow links spot pieces found) : d.walkWith jump follow spot pieces = .ok found := by
  induction pieces generalizing spot with
  | nil =>
    cases h
    rfl
  | cons piece rest ih =>
    cases h with
    | stay hpiece hrest =>
      rw [walkWith, if_pos (by simpa using hpiece)]
      exact ih hrest
    | up hrest =>
      rw [walkWith, if_neg (by decide), if_pos rfl]
      exact ih hrest
    | missing htakes hnone => rw [walkWith_cons htakes, hnone, if_pos rfl]
    | directory htakes hdirectory hrest =>
      rw [walkWith_cons htakes, hdirectory]
      exact ih hrest
    | file htakes hfile =>
      rw [walkWith_cons htakes, hfile]
      exact if_pos rfl
    | link htakes hlink hfollow =>
      rw [walkWith_cons htakes, hlink]
      exact if_pos (by simp [hfollow])
    | jump htakes hlink hfollow hrest =>
      rw [walkWith_cons htakes, hlink]
      dsimp only
      rw [if_neg]
      · exact hjump _ _ _ _ rfl hrest
      · rcases hfollow with hne | hyes
        · simp [hne]
        · simp [hyes]

/-- **A walk ends where its pieces lead.** -/
theorem walk_eq_ok_iff : d.walk follow links spot pieces = .ok found ↔ Reaches d follow links spot pieces found := by
  induction links generalizing spot pieces found with
  | zero => exact ⟨reaches_of_walkWith nofun, walkWith_of_reaches nofun⟩
  | succ fewer ih =>
    constructor
    · exact reaches_of_walkWith fun spot pieces found h => ⟨fewer, rfl, ih.1 h⟩
    · refine walkWith_of_reaches fun other spot pieces found heq h => ih.2 ?_
      rw [Nat.add_right_cancel heq]
      exact h

/-- A path leads to a place. -/
theorem resolve_eq_ok_iff {path : Text} :
    d.resolve follow path = .ok found ↔ path ≠ [] ∧ d.host.refusesPath path = false ∧
      Reaches d follow linkLimit (origin d.here path) (HostPath.names path) found := by
  rw [← walk_eq_ok_iff, resolve]
  by_cases hnil : path = []
  · simp [hnil]
  · cases hlength : d.host.refusesPath path <;> simp [hnil]

theorem Reaches.mono {more : Nat} (h : Reaches d follow links spot pieces found) (hle : links ≤ more) :
    Reaches d follow more spot pieces found := by
  induction h generalizing more with
  | done => exact .done
  | stay hpiece _ ih => exact .stay hpiece (ih hle)
  | up _ ih => exact .up (ih hle)
  | missing htakes hnone => exact .missing htakes hnone
  | directory htakes hdirectory _ ih => exact .directory htakes hdirectory (ih hle)
  | file htakes hfile => exact .file htakes hfile
  | link htakes hlink hfollow => exact .link htakes hlink hfollow
  | jump htakes hlink hfollow _ ih =>
    obtain ⟨fewer, rfl⟩ : ∃ fewer, more = fewer + 1 := ⟨more - 1, by omega⟩
    exact .jump htakes hlink hfollow (ih (by omega))

/-- Pieces lead to one place only, over however many links. -/
theorem Reaches.unique {other : Found} {more : Nat} (h : Reaches d follow links spot pieces found)
    (hother : Reaches d follow more spot pieces other) : found = other := by
  have hone := walk_eq_ok_iff.2 (h.mono (Nat.le_max_left links more))
  have htwo := walk_eq_ok_iff.2 (hother.mono (Nat.le_max_right links more))
  rw [hone] at htwo
  exact Except.ok.inj htwo

/-- What is found is there: an entry in the table, or a name that is free. -/
theorem Reaches.find?_eq (h : Reaches d follow links spot pieces found) :
    (∀ route entry, found = .entry route entry → d.find? route = some entry) ∧
      ∀ route, found = .missing route → d.find? route = none := by
  induction h with
  | @done _ spot =>
    unfold standing
    constructor
    · intro route entry heq
      split at heq
      · split at heq
        · rename_i hfound
          cases heq
          exact hfound
        · cases heq
      · cases heq
    · intro route heq
      split at heq
      · split at heq <;> cases heq
      · cases heq
  | stay _ _ ih | up _ ih | directory _ _ _ ih | jump _ _ _ _ ih => exact ih
  | missing _ hnone =>
    constructor
    · nofun
    · rintro _ ⟨⟩
      exact hnone
  | file _ hentry | link _ hentry =>
    constructor
    · rintro _ _ ⟨⟩
      exact hentry
    · nofun

/-- A walk that follows a link at its end goes the way of one that does not, and on from there. -/
theorem Reaches.unfollowed (h : Reaches d true links spot pieces found) :
    Reaches d false links spot pieces found ∨
      ∃ live name target fewer, fewer < links ∧
        Reaches d false links spot pieces (.entry (live ++ [name]) (.link target)) ∧
        Reaches d true fewer (origin ⟨live, []⟩ target) (HostPath.names target) found := by
  induction h with
  | done => exact .inl .done
  | stay hpiece _ ih =>
    rcases ih with hsame | ⟨live, name, target, fewer, hlt, hlink, hrest⟩
    · exact .inl (.stay hpiece hsame)
    · exact .inr ⟨live, name, target, fewer, hlt, .stay hpiece hlink, hrest⟩
  | up _ ih =>
    rcases ih with hsame | ⟨live, name, target, fewer, hlt, hlink, hrest⟩
    · exact .inl (.up hsame)
    · exact .inr ⟨live, name, target, fewer, hlt, .up hlink, hrest⟩
  | missing htakes hnone => exact .inl (.missing htakes hnone)
  | directory htakes hdirectory _ ih =>
    rcases ih with hsame | ⟨live, name, target, fewer, hlt, hlink, hrest⟩
    · exact .inl (.directory htakes hdirectory hsame)
    · exact .inr ⟨live, name, target, fewer, hlt, .directory htakes hdirectory hlink, hrest⟩
  | file htakes hfile => exact .inl (.file htakes hfile)
  | link _ _ hfollow => cases hfollow
  | @jump fewer live name target rest _ htakes hlink _ hback ih =>
    by_cases hrest : rest = []
    · subst hrest
      rw [List.append_nil] at hback
      exact .inr ⟨live, name, target, fewer, Nat.lt_succ_self _, .link htakes hlink rfl, hback⟩
    · rcases ih with hsame | ⟨live', name', target', fewer', hlt, hlink', hback'⟩
      · exact .inl (.jump htakes hlink (.inl hrest) hsame)
      · exact .inr ⟨live', name', target', fewer', by omega, .jump htakes hlink (.inl hrest) hlink', hback'⟩

/-- A walk whose last piece names an entry ends one below a directory. -/
theorem Reaches.found_below {name : Text} (h : Reaches d false links spot pieces found)
    (hlast : pieces.getLast? = some name) (hnil : name ≠ []) (hdot : name ≠ (['.'] : Text)) (hup : name ≠ HostPath.up) :
    ∃ live last, found = .missing (live ++ [last]) ∨ ∃ entry, found = .entry (live ++ [last]) entry := by
  induction h with
  | done => cases hlast
  | @stay _ _ piece rest _ hpiece hback ih =>
    cases rest with
    | nil =>
      cases hlast
      exact absurd hpiece (not_or.2 ⟨hnil, hdot⟩)
    | cons next more => exact ih hlast
  | @up _ _ rest _ hback ih =>
    cases rest with
    | nil =>
      cases hlast
      exact absurd rfl hup
    | cons next more => exact ih hlast
  | missing => exact ⟨_, _, .inl rfl⟩
  | file | link => exact ⟨_, _, .inr ⟨_, rfl⟩⟩
  | @directory _ live piece rest _ mode _ hdirectory hback ih =>
    cases rest with
    | nil =>
      cases hback
      refine ⟨live, piece, .inr ⟨.directory mode, ?_⟩⟩
      rw [standing, if_pos rfl, hdirectory]
    | cons next more => exact ih hlast
  | @jump _ _ piece target rest _ _ _ hfollow _ ih =>
    obtain ⟨next, more, rfl⟩ := List.exists_cons_of_ne_nil (hfollow.resolve_right Bool.false_ne_true)
    refine ih ?_
    rw [List.getLast?_append, ← List.getLast?_cons_cons (a := piece), hlast, Option.some_or]

/-! ## Ways that are there -/

/-- A route of names as they are looked up along a path, with directories all the way. -/
structure Firm (d : Disk) (route : Route) : Prop where
  named : ∀ name ∈ route, name ≠ [] ∧ name ≠ (['.'] : Text) ∧ name ≠ HostPath.up ∧ HostPath.Shown name
  way : d.Open route

/-- What a walk along ways that are there comes to: what it finds is in a directory that is there. -/
def FirmAt (d : Disk) : Found → Prop
  | .entry route (.directory _) => d.Firm route
  | .entry route _ | .missing route => ∃ live name, route = live ++ [name] ∧ d.Firm live
  | .removed spot => d.Firm spot.live

theorem Firm.above {route above : Route} (h : d.Firm route) (habove : above <+: route) : d.Firm above :=
  ⟨fun name hname => h.named name (habove.subset hname), fun other hother => h.way other (hother.trans habove)⟩

theorem Firm.concat {live : Route} {piece : Text} {mode : Nat} (h : d.Firm live) (htakes : d.Takes piece)
    (hshown : HostPath.Shown piece) (hdirectory : d.find? (live ++ [piece]) = some (.directory mode)) :
    d.Firm (live ++ [piece]) := by
  constructor
  · intro name hname
    rcases List.mem_append.1 hname with hname | hname
    · exact h.named name hname
    · rw [List.mem_singleton.1 hname]
      exact ⟨htakes.ne_nil, htakes.ne_dot, htakes.ne_up, hshown⟩
  · exact open_concat h.way hdirectory

theorem Firm.standing {live : Route} {gone : List Nat} (h : d.Firm live) : d.FirmAt (d.standing ⟨live, gone⟩) := by
  obtain ⟨mode, hmode⟩ := h.way live (List.prefix_refl _)
  unfold Disk.standing
  split
  · rw [hmode]
    exact h
  · exact h

theorem Firm.at_origin (h : d.Firm spot.live) (path : Text) : d.Firm (origin spot path).live := by
  unfold origin
  split
  · exact h.above List.nil_prefix
  · exact h

/-- **Walks stay on ways that are there.** -/
theorem Reaches.firmAt (h : Reaches d follow links spot pieces found) (hfirm : d.Firm spot.live)
    (hpieces : ∀ piece ∈ pieces, HostPath.Shown piece) : d.FirmAt found := by
  induction h with
  | done => exact hfirm.standing
  | stay _ _ ih => exact ih hfirm fun piece hpiece => hpieces piece (List.mem_cons_of_mem _ hpiece)
  | @up _ spot _ _ _ ih =>
    refine ih ?_ fun piece hpiece => hpieces piece (List.mem_cons_of_mem _ hpiece)
    unfold Spot.parent
    split
    · exact hfirm.above (List.dropLast_prefix _)
    · exact hfirm
  | missing => exact ⟨_, _, rfl, hfirm⟩
  | directory htakes hdirectory _ ih =>
    refine ih (hfirm.concat htakes (hpieces _ List.mem_cons_self) hdirectory) fun piece hpiece => ?_
    exact hpieces piece (List.mem_cons_of_mem _ hpiece)
  | file => exact ⟨_, _, rfl, hfirm⟩
  | link => exact ⟨_, _, rfl, hfirm⟩
  | jump _ _ _ _ ih =>
    refine ih (Firm.at_origin hfirm _) fun piece hpiece => ?_
    rcases List.mem_append.1 hpiece with hpiece | hpiece
    · exact HostPath.shown_of_mem_names hpiece
    · exact hpieces piece (List.mem_cons_of_mem _ hpiece)

/-- A walk along directories that are there passes through them. -/
theorem Reaches.of_firm {start names rest : List Text} (hfirm : d.Firm (start ++ names))
    (h : Reaches d follow links ⟨start, []⟩ (names ++ rest) found) :
    Reaches d follow links ⟨start ++ names, []⟩ rest found := by
  induction names generalizing start with
  | nil => rwa [List.append_nil]
  | cons name more ih =>
    obtain ⟨hnil, hdot, hup, -⟩ := hfirm.named name (by simp)
    have hassoc : start ++ name :: more = start ++ [name] ++ more := by simp
    rw [hassoc] at hfirm ⊢
    obtain ⟨mode, hmode⟩ := hfirm.way (start ++ [name]) (List.prefix_append _ _)
    refine ih hfirm ?_
    rw [List.cons_append] at h
    generalize hback : more ++ rest = back at h
    cases h with
    | stay hpiece => exact absurd hpiece (not_or.2 ⟨hnil, hdot⟩)
    | up => exact absurd rfl hup
    | directory _ _ hrest => exact hback ▸ hrest
    | missing _ hentry | file _ hentry | link _ hentry | jump _ hentry => simp [hmode] at hentry

end Disk

end Linework
