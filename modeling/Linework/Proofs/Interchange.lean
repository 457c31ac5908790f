import Linework.Proofs.Disk.Refinement
import Linework.Proofs.Memory.Refinement

/-!
# A memory and a disk stand for one another

A memory and a disk begin with the same empty directory and are asked the same, any admitted actions
in any order. Both are one flat map below the directory all along (`Together.paired`): the memory
behaves as its map, and the disk shows it. So at every step both answer alike or fail alike, and hold
the same names, kinds and contents.
-/

namespace Linework

/-- The same names below a base, of the same kinds and with the same contents. -/
def SameBelow (base : List Text) (m : Memory) (d : Disk) : Prop :=
  ∀ rest, Matches (m.flat.listing (base ++ rest)) (d.find? (base ++ rest))

/-- The same answer, or failures of one kind. -/
inductive SameResult : Except Failure Answer → Except Failure Answer → Prop
  | ok (answer : Answer) : SameResult (.ok answer) (.ok answer)
  | error {failure other : Failure} (h : failure.Alike other) : SameResult (.error failure) (.error other)

/-- A memory and a disk that were asked the same since they had the same empty directory. The disk has
no links on the way to it and no limits of length, and its host has UTF-8. -/
inductive Together (base : List Text) : Memory → Disk → Prop
  | start {m : Memory} {d : Disk} (hreachable : m.Reachable) (hattached : m.Attached)
      (hdirectory : m.flat.listing.IsDirectory base)
      (hempty : ∀ route, Below base route → m.flat.listing route = none) (hunlimited : d.Unlimited)
      (hutf8 : d.host.HasUtf8) (hopen : d.Open base) (hempty' : ∀ route, Below base route → d.find? route = none) :
      Together base m d
  | step {m : Memory} {d : Disk} {rules : Rules} {action : Action} (h : Together base m d)
      (hutf8 : rules.InUtf8) (hadmits : Admits base m.flat action) :
      Together base (Op.outcome (action.perform rules) m).2.store
        (Op.outcome (action.perform rules) d).2.store

/-- What a memory and a disk that stand for one another keep. -/
structure Paired (base : List Text) (m : Memory) (d : Disk) : Prop where
  sound : m.Sound
  attached : m.Attached
  outside : ∀ dir ∈ m.flat.dir :: m.flat.saved, ¬ Below base dir
  shows : d.Shows base m.flat.listing

variable {base : List Text} {m : Memory} {d : Disk} {rules : Rules} {action : Action}

theorem paired_of_empty (hsound : m.Sound) (hattached : m.Attached)
    (hdirectory : m.flat.listing.IsDirectory base)
    (hempty : ∀ route, Below base route → m.flat.listing route = none) (hunlimited : d.Unlimited)
    (hutf8 : d.host.HasUtf8) (hopen : d.Open base) (hempty' : ∀ route, Below base route → d.find? route = none) :
    Paired base m d where
  sound := hsound
  attached := hattached
  outside dir hdir hbelow := by
    obtain ⟨place, hplace, rfl⟩ := List.mem_map.1 (show dir ∈ (m.here :: m.saved).map Place.dir from hdir)
    exact hsound.listing_dir_ne_none hattached hplace (hempty _ hbelow)
  shows :=
    { unlimited := hunlimited
      utf8 := hutf8
      way := hopen
      tree := (hsound.proper hattached).tree
      top := hdirectory
      alike := by
        intro rest
        by_cases hrest : rest = []
        · obtain ⟨mode, hmode⟩ := hdirectory
          obtain ⟨mode', hmode'⟩ := hopen base (List.prefix_refl _)
          rw [hrest, List.append_nil, hmode, hmode']
          exact .directory _ _
        · have hbelow : Below base (base ++ rest) := ⟨List.prefix_append _ _, by simpa using hrest⟩
          rw [hempty _ hbelow, hempty' _ hbelow]
          exact .nothing
      distinct := by
        intro rest
        have hnames : d.names (base ++ rest) = [] := by
          refine List.eq_nil_iff_forall_not_mem.2 fun name hname => ?_
          exact Disk.mem_names_iff.1 hname (hempty' _ (.of_concat name (List.prefix_append _ _)))
        rw [hnames]
        exact List.nodup_nil }

theorem not_isFile_empty (route : List Text) : ¬ ({} : Memory).flat.listing.IsFile route := by
  rintro ⟨mode, content, hcontent⟩
  cases route <;> cases hcontent

theorem listing_made (hplain : ∀ s ∈ base, Path.Plain s) (rules : Rules) :
    (Op.outcome (Move.act rules (.makeDir (Path.ofSegments base))).run ({} : Memory)).2.store.flat.listing =
      ({} : Memory).flat.listing.withDirectories base := by
  have hmeets :=
    (Memory.sound_empty.meets_move (by decide) (.act rules (.makeDir (Path.ofSegments base)))).outcome
  cases hresult : (Op.outcome (Move.act rules (.makeDir (Path.ofSegments base))).run ({} : Memory)).1 with
  | ok answer =>
    rw [hresult] at hmeets
    obtain ⟨-, hflat⟩ := hmeets.1.unique .makeDir
    rw [hflat, Flat.key_ofSegments _ hplain]
    rfl
  | error failure =>
    rw [hresult] at hmeets
    cases hmeets with
    | blocked hblocked =>
      obtain ⟨above, -, -, habove⟩ := hblocked
      exact absurd habove (not_isFile_empty above)
    | file hfile => exact absurd hfile (not_isFile_empty _)

/-- A memory in which the base has been made and a disk with nothing but the base start together. -/
theorem together_made (hplain : ∀ s ∈ base, Path.Plain s) (rules : Rules) :
    Together base (Op.outcome (Move.act rules (.makeDir (Path.ofSegments base))).run ({} : Memory)).2.store
      { Disk.atRoute base with host := { nameLimit := none, pathLimit := none } } := by
  have hreachable := Memory.Reachable.start.move (.act rules (.makeDir (Path.ofSegments base)))
  have hattached :
      (Op.outcome (Move.act rules (.makeDir (Path.ofSegments base))).run ({} : Memory)).2.store.Attached :=
    Memory.sound_empty.attached_move (by decide) nofun
  refine .start hreachable hattached ?_ ?_ ⟨rfl, rfl⟩ (fun _ => Codecs.standard_eq_of_ofName?) (Disk.open_atRoute base) ?_
  · rw [listing_made hplain]
    exact Listing.isDirectory_withDirectories (not_isFile_empty base)
  · intro route hroute
    have hnot : ¬ route <+: base := fun hpre => hroute.ne_above hpre rfl
    rw [listing_made hplain, Listing.withDirectories, if_neg fun hmade => hnot hmade.1]
    obtain ⟨front, name, rfl, -⟩ := hroute.exists_concat
    cases front <;> rfl
  · intro route hroute
    exact Disk.find?_atRoute_eq_none fun hpre => hroute.ne_above hpre rfl

/-- An admitted action removes nothing but what is below the base. -/
theorem Admits.below_of_removes {flat : Flat} (h : Admits base flat action) {path : Text}
    (hremoves : (Move.act rules action).Removes path) : Below base (flat.key path) := by
  cases action with
  | remove other | removeTree other =>
    obtain rfl : path = other := hremoves
    exact (Inside.key h flat).1
  | _ => cases hremoves

/-- What is done as one flat map says is done alike: both did what the map says, or both failed. -/
theorem sameResult_of_meets {flat : Flat} {move : Move} {result other : Except Failure Answer}
    {after : Memory}
    {last : Disk} (hproper : flat.Proper)
    (hmemory : Memory.Meets (flat.Refuses move) (flat.Acts move) result after)
    (hkept : ∀ failure, result = .error failure → after.flat = flat)
    (hdisk : Disk.Meets base flat move other last) :
    SameResult result other ∧ last.Shows base after.flat.listing := by
  cases result with
  | ok answer =>
    obtain ⟨hacts, hnever⟩ := hmemory
    cases other with
    | ok answer' =>
      obtain ⟨⟨flat', hacts', hshows⟩, -⟩ := hdisk
      obtain ⟨rfl, rfl⟩ := hacts.unique hacts'
      exact ⟨.ok answer, hshows⟩
    | error failure =>
      obtain ⟨refusal, hrefuses, -, -⟩ := hdisk
      exact absurd hrefuses (hnever refusal)
  | error failure =>
    cases other with
    | ok answer' =>
      obtain ⟨-, hnever⟩ := hdisk
      exact absurd hmemory (hnever failure)
    | error failure' =>
      obtain ⟨refusal, hrefuses, halike, hshows⟩ := hdisk
      obtain rfl := hproper.refuses_unique hmemory hrefuses
      rw [hkept _ rfl]
      exact ⟨.error halike, hshows⟩

/-- An action leaves the working directories of a memory as they are, whether or not it fails. -/
theorem dirs_of_meets {flat : Flat} {result : Except Failure Answer} {after : Memory}
    (h : Memory.Meets (flat.Refuses (.act rules action)) (flat.Acts (.act rules action)) result after)
    (hkept : ∀ failure, result = .error failure → after.flat = flat) :
    after.flat.dir = flat.dir ∧ after.flat.saved = flat.saved := by
  cases result with
  | ok answer => exact h.1.dirs
  | error failure =>
    rw [hkept failure rfl]
    exact ⟨rfl, rfl⟩

/-- **One step of both**: they answer alike or fail alike, and stay paired. -/
theorem Paired.step (h : Paired base m d) (hutf8 : rules.InUtf8) (hadmits : Admits base m.flat action) :
    SameResult (Op.outcome (action.perform rules) m).1 (Op.outcome (action.perform rules) d).1 ∧
      Paired base (Op.outcome (action.perform rules) m).2.store
        (Op.outcome (action.perform rules) d).2.store := by
  have hproper := h.sound.proper h.attached
  have hmemory := (h.sound.meets_move h.attached (.act rules action)).outcome
  have hdisk := (h.shows.meets_perform (h.outside _ List.mem_cons_self) hutf8 hadmits).outcome
  have hcomes := (h.sound.ends_move (.act rules action)).outcome
  have hkept := fun failure hfailure => congrArg Memory.flat (hcomes.2 failure hfailure)
  have hattached : (Op.outcome (Move.act rules action).run m).2.store.Attached := by
    refine h.sound.attached_move h.attached fun path hremoves dir hdir hkey => ?_
    have hbelow := hadmits.below_of_removes hremoves
    exact h.outside dir hdir ⟨hbelow.1.trans hkey, fun heq => hbelow.ne_above (heq ▸ hkey) rfl⟩
  obtain ⟨hsame, hshows⟩ := sameResult_of_meets hproper hmemory hkept hdisk
  obtain ⟨hdir, hsaved⟩ := dirs_of_meets hmemory hkept
  refine ⟨hsame, hcomes.sound h.sound, hattached, ?_, hshows⟩
  intro dir hmem
  refine h.outside dir ?_
  rw [← hdir, ← hsaved]
  exact hmem

theorem Together.paired (h : Together base m d) : Paired base m d := by
  induction h with
  | start hreachable hattached hdirectory hempty hunlimited hutf8 hopen hempty' =>
    exact paired_of_empty hreachable.sound hattached hdirectory hempty hunlimited hutf8 hopen hempty'
  | step _ hutf8 hadmits ih => exact (ih.step hutf8 hadmits).2

theorem Paired.sameBelow (h : Paired base m d) : SameBelow base m d := h.shows.alike

/-- **A memory and a disk are interchangeable**: whatever they were asked together, they answer the next
action alike or fail alike, and hold the same before it and after it. -/
theorem Together.agree (h : Together base m d) (hutf8 : rules.InUtf8)
    (hadmits : Admits base m.flat action) :
    SameBelow base m d ∧
      SameResult (Op.outcome (action.perform rules) m).1 (Op.outcome (action.perform rules) d).1 ∧
      SameBelow base (Op.outcome (action.perform rules) m).2.store
        (Op.outcome (action.perform rules) d).2.store := by
  obtain ⟨hsame, hpaired⟩ := h.paired.step hutf8 hadmits
  exact ⟨h.paired.sameBelow, hsame, hpaired.sameBelow⟩

/-- What an edit has made of a new file is read alike. -/
theorem agree_readLines_appended :
    ∃ m d, Together [['b']] m d ∧ Rules.InUtf8 {} ∧
      Admits [['b']] m.flat (.readLines (Text.lit "/b/f")) ∧ SameBelow [['b']] m d ∧
      SameResult (Op.outcome ((Action.readLines (Text.lit "/b/f")).perform {}) m).1
        (Op.outcome ((Action.readLines (Text.lit "/b/f")).perform {}) d).1 := by
  have hutf8 : Rules.InUtf8 {} := ⟨⟨rfl, rfl⟩, ⟨rfl, rfl⟩⟩
  have hinside : Inside [['b']] (Text.lit "/b/f") :=
    ⟨[['b'], ['f']], ⟨List.prefix_append _ _, by decide⟩, by decide, rfl⟩
  have happend : ∀ flat, Admits [['b']] flat (.edit (Text.lit "/b/f") (.append [['x']])) := fun _ =>
    ⟨hinside, by decide⟩
  have hread : ∀ flat, Admits [['b']] flat (.readLines (Text.lit "/b/f")) := fun _ => hinside
  have htogether := (together_made (by decide) {}).step hutf8 (happend _)
  obtain ⟨hbelow, hresult, -⟩ := htogether.agree hutf8 (hread _)
  exact ⟨_, _, htogether, hutf8, hread _, hbelow, hresult⟩

/-- They differ over a surrogate in a name: the memory writes the file, and the disk fails neither as a storage
does nor for want of a target. -/
theorem apart_write_surrogate :
    ∃ m d, Together [['b']] m d ∧ Rules.InUtf8 {} ∧
      (∀ s ∈ ([['b'], [.surrogate 0]] : List Text), Path.Plain s ∧ ('\x00' : CodePoint) ∉ s) ∧
      ¬ m.flat.listing.IsDirectory [['b'], [.surrogate 0]] ∧ Text.Scalar ['x'] ∧
      (Op.outcome ((Action.write (Path.ofSegments [['b'], [.surrogate 0]]) ['x']).perform {}) m).1 = .ok .nothing ∧
      (Op.outcome ((Action.write (Path.ofSegments [['b'], [.surrogate 0]]) ['x']).perform {}) d).1 =
        .error (.unusable (.surrogates (Encoding.refuseSurrogate .utf8 (.surrogate 0) 3 4))) ∧
      ¬ SameResult (Op.outcome ((Action.write (Path.ofSegments [['b'], [.surrogate 0]]) ['x']).perform {}) m).1
        (Op.outcome ((Action.write (Path.ofSegments [['b'], [.surrogate 0]]) ['x']).perform {}) d).1 := by
  have htogether : Together [['b']] _ _ := together_made (by decide) {}
  refine ⟨_, _, htogether, ⟨⟨rfl, rfl⟩, ⟨rfl, rfl⟩⟩, by decide, ?_, by decide, rfl, rfl, nofun⟩
  rintro ⟨mode, hmode⟩
  cases hmode

end Linework
