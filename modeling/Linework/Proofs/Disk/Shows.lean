import Linework.Disk.Operations
import Linework.Proofs.Disk.Walk
import Linework.Proofs.Listing
import Linework.Proofs.Text.Scalar

/-!
# Disks that show a listing

A disk shows a listing below a base when it has the same entries there, whatever their permissions:
the same names, the same kinds, and in each file the content in UTF-8. There are no links then. Where
a path below the base leads on the disk is settled by the listing (`Shows.resolve`), and a change of
the listing is shown by the change of the disk that goes with it (`Shows.put`, `Shows.without`).
-/

namespace Linework

/-- Entries of one kind and, in files, of one content. -/
inductive Matches : Option Entry → Option DiskEntry → Prop
  | nothing : Matches none none
  | directory (mode : Int) (mode' : Nat) : Matches (some (.directory mode)) (some (.directory mode'))
  | file (mode : Int) (mode' : Nat) {content : Text} {bytes : List UInt8}
      (hbytes : Encoding.utf8.encode content = .ok bytes) :
      Matches (some (.file mode content)) (some (.file mode' bytes))

/-- Strictly below a base. -/
def Below (base route : List Text) : Prop := base <+: route ∧ route ≠ base

namespace Below

variable {base route : List Text}

theorem exists_concat (h : Below base route) : ∃ front name, route = front ++ [name] ∧ base <+: front := by
  obtain ⟨rest, rfl⟩ := h.1
  have hne : rest ≠ [] := fun hnil => h.2 (by rw [hnil, List.append_nil])
  refine ⟨base ++ rest.dropLast, rest.getLast hne, ?_, List.prefix_append _ _⟩
  rw [List.append_assoc, List.dropLast_concat_getLast]

theorem of_concat {front : List Text} (name : Text) (h : base <+: front) :
    Below base (front ++ [name]) := by
  refine ⟨h.trans (List.prefix_append _ _), fun heq => ?_⟩
  have hlength := h.length_le
  rw [← heq, List.length_append, List.length_singleton] at hlength
  omega

theorem ne_above (h : Below base route) {above : List Text} (habove : above <+: base) : above ≠ route := by
  rintro rfl
  exact h.2 (h.1.eq_of_length_le habove.length_le).symm

end Below

/-- The host has UTF-8 under each of its names. -/
def Host.HasUtf8 (host : Host) : Prop :=
  ∀ name, Encoding.ofName? name = some .utf8 → host.codecs name = .ok Encoding.utf8.codec

/-- A name of UTF-8 that the host takes. -/
def NamesUtf8 (encoding : Text) : Prop :=
  Encoding.ofName? encoding = some .utf8 ∧ Disk.encodingFault? encoding = none

theorem Codecs.standard_eq_of_ofName? {name : Text} {encoding : Encoding} (h : Encoding.ofName? name = some encoding) :
    Codecs.standard name = .ok encoding.codec := by
  rw [Codecs.standard, h]

namespace Disk

structure Shows (base : List Text) (l : Listing) (d : Disk) : Prop where
  unlimited : d.Unlimited
  utf8 : d.host.HasUtf8
  way : d.Open base
  tree : l.IsTree
  top : l.IsDirectory base
  alike : ∀ rest, Matches (l (base ++ rest)) (d.find? (base ++ rest))
  distinct : ∀ rest, (d.names (base ++ rest)).Nodup

variable {base route : List Text} {l : Listing} {d : Disk}

namespace Shows

variable (h : Shows base l d)
include h

theorem matches_at (hbase : base <+: route) : Matches (l route) (d.find? route) := by
  obtain ⟨rest, rfl⟩ := hbase
  exact h.alike rest

theorem find?_eq_none_iff (hbase : base <+: route) : d.find? route = none ↔ l route = none := by
  have hmatch := h.matches_at hbase
  constructor
  · intro hnone
    rw [hnone] at hmatch
    generalize l route = entry at hmatch
    cases hmatch
    rfl
  · intro hnone
    rw [hnone] at hmatch
    generalize d.find? route = entry at hmatch
    cases hmatch
    rfl

theorem find?_of_isDirectory (hbase : base <+: route) (hdirectory : l.IsDirectory route) :
    ∃ mode, d.find? route = some (.directory mode) := by
  have hmatch := h.matches_at hbase
  obtain ⟨mode, hmode⟩ := hdirectory
  rw [hmode] at hmatch
  generalize d.find? route = entry at hmatch ⊢
  cases hmatch
  exact ⟨_, rfl⟩

theorem find?_of_file (hbase : base <+: route) {mode : Int} {content : Text}
    (hfile : l route = some (.file mode content)) :
    ∃ mode' bytes, Encoding.utf8.encode content = .ok bytes ∧ d.find? route = some (.file mode' bytes) := by
  have hmatch := h.matches_at hbase
  rw [hfile] at hmatch
  generalize d.find? route = entry at hmatch ⊢
  cases hmatch with
  | file _ _ hbytes => exact ⟨_, _, hbytes, rfl⟩

/-- A file in UTF-8 has no surrogates. -/
theorem scalar (hbase : base <+: route) {mode : Int} {content : Text}
    (hfile : l route = some (.file mode content)) : content.Scalar := by
  obtain ⟨mode', bytes, hbytes, -⟩ := h.find?_of_file hbase hfile
  exact Encoding.exists_encode_utf8_iff.1 ⟨bytes, hbytes⟩

theorem isOpen (hbase : base <+: route) (hdirectory : l.IsDirectory route) : d.Open route := by
  obtain ⟨rest, rfl⟩ := hbase
  refine open_append h.way fun above habove => ?_
  refine h.find?_of_isDirectory (List.prefix_append _ _) ?_
  obtain ⟨more, rfl⟩ := habove
  by_cases hmore : more = []
  · rwa [hmore, List.append_nil] at hdirectory
  · rw [← List.append_assoc] at hdirectory
    exact h.tree.isDirectory_above hmore hdirectory.ne_none

end Shows

/-! ## Where a path leads -/

/-- Where the path of a route leads on a disk that shows a listing. -/
inductive Leads (l : Listing) (route : List Text) : Except Errno Found → Prop
  | directory (mode : Nat) (hdirectory : l.IsDirectory route) :
      Leads l route (.ok (.entry route (.directory mode)))
  | file (mode : Nat) {bits : Int} {content : Text} {bytes : List UInt8} (hfile : l route = some (.file bits content))
      (hbytes : Encoding.utf8.encode content = .ok bytes) : Leads l route (.ok (.entry route (.file mode bytes)))
  | free (hnone : l route = none) {front : List Text} {name : Text} (hroute : route = front ++ [name])
      (hfront : l.IsDirectory front) : Leads l route (.ok (.missing route))
  | blocked (hnone : l route = none) (hblocked : l.Blocked route) : Leads l route (.error Errno.notDirectory)
  | absent (hnone : l route = none) {front : List Text} {name : Text} (hroute : route = front ++ [name])
      (hfront : l front = none) (hopen : ¬ l.Blocked route) : Leads l route (.error Errno.noEntry)

theorem Shows.resolve (h : Shows base l d) (hbase : base <+: route) (hnames : ∀ s ∈ route, Path.Name s)
    (follow : Bool) : Leads l route (d.resolve follow (Path.ofSegments route)) := by
  obtain ⟨rest, rfl⟩ := hbase
  rcases Listing.exists_edge h.top rest with hdirectory | ⟨front, name, more, hroute, hbase, hfront, hname⟩
  · obtain ⟨mode, hresolve⟩ := resolve_open h.unlimited hnames
      (h.isOpen (List.prefix_append _ _) hdirectory) follow
    rw [hresolve]
    exact .directory mode hdirectory
  · rw [hroute] at hnames ⊢
    have hopen := h.isOpen hbase hfront
    have hbelow : base <+: front ++ [name] := hbase.trans (List.prefix_append _ _)
    rcases l.cases_entry (front ++ [name]) with hnone | hfile | hdirectory
    · rw [resolve_missing h.unlimited hnames hopen ((h.find?_eq_none_iff hbelow).2 hnone)]
      split
      · rename_i hmore
        subst hmore
        exact .free hnone rfl hfront
      · rename_i hmore
        have hopen := h.tree.not_blocked_of_free hfront hnone more
        have hlast : front ++ name :: more = front ++ [name] ++ more.dropLast ++ [more.getLast hmore] := by
          simp [List.dropLast_concat_getLast]
        rw [List.append_cons] at hlast ⊢
        exact .absent (h.tree.eq_none_below hnone more) hlast (h.tree.eq_none_below hnone more.dropLast) hopen
    · obtain ⟨bits, content, hcontent⟩ := hfile
      obtain ⟨mode, bytes, hbytes, hmode⟩ := h.find?_of_file hbelow hcontent
      rw [resolve_file h.unlimited hnames hopen hmode]
      split
      · rename_i hmore
        subst hmore
        exact .file mode hcontent hbytes
      · rename_i hmore
        have hblocked : l.Blocked (front ++ name :: more) :=
          ⟨front ++ [name], ⟨more, by simp⟩, fun heq => hmore (by simpa using heq), bits, content, hcontent⟩
        exact .blocked (h.tree.eq_none_of_blocked hblocked) hblocked
    · exact absurd hdirectory hname

/-! ## Changes -/

namespace Shows

variable (h : Shows base l d)
include h

/-- An entry in a directory is shown by any disk with one that matches. -/
theorem having {front : List Text} {name : Text} (hbase : base <+: front) (hfront : l.IsDirectory front)
    (hbelow : ∀ next, l (front ++ [name] ++ [next]) = none) {entry : Entry} {entry' : DiskEntry}
    (hmatch : Matches (some entry) (some entry')) {d' : Disk} (hhost : d'.host = d.host)
    (hnames : ∀ rest, (d'.names (base ++ rest)).Nodup)
    (hfind : ∀ other, d'.find? other = if other = front ++ [name] then some entry' else d.find? other) :
    Shows base (l.put (front ++ [name]) entry) d' where
  unlimited := by rw [Disk.Unlimited, hhost]; exact h.unlimited
  utf8 := by rw [hhost]; exact h.utf8
  way above habove := by
    rw [hfind, if_neg ((Below.of_concat name hbase).ne_above habove)]
    exact h.way above habove
  tree := h.tree.put hfront hbelow entry
  top := by
    rw [Listing.IsDirectory, Listing.put, if_neg ((Below.of_concat name hbase).ne_above (List.prefix_refl _))]
    exact h.top
  alike rest := by
    rw [hfind, Listing.put]
    split
    · exact hmatch
    · exact h.alike rest
  distinct := hnames

theorem put {front : List Text} {name : Text} (hbase : base <+: front) (hfront : l.IsDirectory front)
    (hbelow : ∀ next, l (front ++ [name] ++ [next]) = none) {entry : Entry} {entry' : DiskEntry}
    (hmatch : Matches (some entry) (some entry')) :
    Shows base (l.put (front ++ [name]) entry) (d.put (front ++ [name]) entry') :=
  h.having hbase hfront hbelow hmatch rfl (fun rest => nodup_names_put (h.distinct rest)) fun other =>
    find?_put d _ other entry'

/-- Taking away a route with all below it is shown by any disk without them. -/
theorem without (hroute : Below base route) {d' : Disk} (hhost : d'.host = d.host)
    (hnames : ∀ rest, (d'.names (base ++ rest)).Nodup)
    (hfind : ∀ other, d'.find? other = if route <+: other then none else d.find? other) :
    Shows base (l.eraseBelow route) d' where
  unlimited := by rw [Disk.Unlimited, hhost]; exact h.unlimited
  utf8 := by rw [hhost]; exact h.utf8
  way above habove := by
    have hkept : ¬ route <+: above := fun hpre =>
      hroute.2 ((hpre.trans habove).eq_of_length_le hroute.1.length_le)
    rw [hfind, if_neg hkept]
    exact h.way above habove
  tree := h.tree.eraseBelow route
  top := by
    have hkept : ¬ route <+: base := fun hpre => hroute.2 (hpre.eq_of_length_le hroute.1.length_le)
    rw [Listing.IsDirectory, Listing.eraseBelow, if_neg hkept]
    exact h.top
  alike rest := by
    rw [hfind, Listing.eraseBelow]
    split
    · exact .nothing
    · exact h.alike rest
  distinct := hnames

theorem erase_file (hroute : Below base route) (hfile : l.IsFile route) :
    Shows base (l.eraseBelow route) (d.erase route) := by
  refine h.without hroute rfl (fun rest => nodup_names_erase (h.distinct rest)) fun other => ?_
  rw [find?_erase]
  by_cases hpre : route <+: other
  · rw [if_pos hpre]
    split
    · rfl
    · rename_i hother
      refine (h.find?_eq_none_iff (hroute.1.trans hpre)).2 (Classical.not_not.1 fun hsome => hother ?_)
      obtain ⟨rest, rfl⟩ := hpre
      rw [h.tree.leaf route rest hfile hsome, List.append_nil]
  · rw [if_neg hpre, if_neg]
    rintro rfl
    exact hpre (List.prefix_refl _)

theorem erase_clear (hroute : Below base route) :
    Shows base (l.eraseBelow route) ((d.clear route).erase route) := by
  refine h.without hroute rfl (fun rest => nodup_names_erase (nodup_names_clear (h.distinct rest)))
    fun other => ?_
  rw [find?_erase, find?_clear]
  by_cases hother : other = route
  · simp [hother]
  · simp [hother]

end Shows

end Disk

end Linework
