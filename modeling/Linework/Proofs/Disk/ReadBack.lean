import Linework.Proofs.Disk.Writing
import Linework.Proofs.Edit.Block
import Linework.Proofs.Text.Encoded

/-!
# What is written to a disk is read again

A path that leads to a file opens this file for writing, over whatever links it leads (`route_of_openOver`).
So once it has been written to it holds what was written (`Opens.locate_filled`), as long as the working directory
has a way that is there, and it is read as that by a codec that reads what it has written (`Wrote.reads`).
-/

namespace Linework

namespace Host

/-- The codec of a name reads what it has written. -/
def Faithful (host : Host) (encoding : Text) : Prop := ∀ codec, host.codecs encoding = .ok codec → codec.Faithful

variable {host : Host} {encoding content : Text} {bytes : List UInt8}

theorem textOf_bytesOf (hfaithful : host.Faithful encoding) (h : host.bytesOf encoding content = .ok bytes) :
    host.textOf encoding bytes = .ok content := by
  unfold bytesOf at h
  unfold textOf
  split at h
  · cases h
  · rename_i codec hcodec
    cases hencode : codec.encode content with
    | error fault =>
      rw [hencode] at h
      cases h
    | ok written =>
      rw [hencode] at h
      cases h
      rw [(hfaithful codec hcodec).decode_encode hencode]
      rfl

theorem faithful_of_standard (h : host.codecs = .standard) (encoding : Text) : host.Faithful encoding := by
  unfold Faithful
  rw [h]
  exact fun codec => Codecs.faithful_standard

/-- A codec that has read one file reads an empty one. -/
theorem textOf_nil (hfaithful : host.Faithful encoding) (h : host.textOf encoding bytes = .ok content) :
    host.textOf encoding [] = .ok [] := by
  unfold textOf at h ⊢
  split at h
  · cases h
  · rename_i codec hcodec
    rw [(hfaithful codec hcodec).decode_nil]
    rfl

end Host

namespace Disk

open Op

variable {d after : Disk} {live route other : Route} {path target encoding content : Text} {links : Nat}
  {mode : Nat} {bytes : List UInt8}

/-! ## The path of a link -/

theorem names_append (path rest : Text) :
    HostPath.names (path ++ ('/' : CodePoint) :: rest) = HostPath.names path ++ HostPath.names rest := by
  rw [HostPath.names, HostPath.pieces, Text.pieces_append_cons (by decide), List.map_append]
  rfl

theorem names_text (hne : live ≠ []) (hshown : ∀ name ∈ live, HostPath.Shown name) :
    HostPath.names (Route.text live) = [] :: live := by
  have hbody : Text.pieces HostPath.isSlash (Path.ofPieces live) = live :=
    Path.pieces_ofPieces (by decide) hne fun name hname => (hshown name hname).bare
  have hlisted : live.map Text.listed = live := Text.map_listed fun name hname => (hshown name hname).listed
  have htext : HostPath.names (Route.text live) = HostPath.names [] ++ HostPath.names (Path.ofPieces live) :=
    names_append [] (Path.ofPieces live)
  rw [htext, HostPath.names, HostPath.names, HostPath.pieces, HostPath.pieces, hbody, hlisted]
  rfl

/-- The target of a link in a directory, seen from the root. -/
theorem names_joined (hnames : ∀ name ∈ live, name ≠ [] ∧ HostPath.Shown name)
    (htarget : target.head? ≠ some ('/' : CodePoint)) :
    HostPath.names (HostPath.joined (Route.text live) target) = [] :: (live ++ HostPath.names target) := by
  rw [HostPath.joined, if_neg htarget]
  by_cases hne : live = []
  · subst hne
    rw [if_pos (by decide)]
    exact names_append [] target
  · have htext := names_text hne fun name hname => (hnames name hname).2
    have hlast : (Route.text live).getLast? ≠ some ('/' : CodePoint) := by
      intro hlast
      obtain ⟨body, hbody⟩ := List.getLast?_eq_some_iff.1 hlast
      rw [hbody, names_append] at htext
      have hend := congrArg List.getLast? htext
      rw [List.getLast?_append, List.getLast?_cons_of_ne_nil hne] at hend
      exact (hnames [] (List.mem_of_getLast? hend.symm)).1 rfl
    have hnil : Route.text live ≠ [] := List.cons_ne_nil _ _
    have hcond : ¬ (decide (Route.text live = []) ||
        decide ((Route.text live).getLast? = some ('/' : CodePoint))) = true := by
      simp [hlast, hnil]
    rw [if_neg hcond, names_append, htext]
    rfl

/-! ## Opening -/

theorem Reaches.of_nil_cons {follow : Bool} {spot : Spot} {rest : List Text} {found : Found}
    (h : Reaches d follow links spot ([] :: rest) found) : Reaches d follow links spot rest found := by
  cases h with
  | stay _ hrest => exact hrest
  | missing htakes | directory htakes | file htakes | link htakes | jump htakes => exact absurd rfl htakes.ne_nil

/-- The path of a link leads on from the directory that the link is in. -/
theorem Firm.reaches_joined (hlive : d.Firm live) {follow : Bool} {found : Found}
    (h : Reaches d follow links (origin d.here (HostPath.joined (Route.text live) target))
      (HostPath.names (HostPath.joined (Route.text live) target)) found) :
    Reaches d follow links (origin ⟨live, []⟩ target) (HostPath.names target) found := by
  by_cases htarget : target.head? = some ('/' : CodePoint)
  · rw [HostPath.joined, if_pos htarget, origin, if_pos htarget] at h
    rw [origin, if_pos htarget]
    exact h
  · have hnames : ∀ name ∈ live, name ≠ [] ∧ HostPath.Shown name := fun name hname =>
      ⟨(hlive.named name hname).1, (hlive.named name hname).2.2.2⟩
    have hroot : origin d.here (HostPath.joined (Route.text live) target) = ⟨[], []⟩ := by
      rw [origin, HostPath.joined, if_neg htarget]
      split <;> exact if_pos rfl
    rw [names_joined hnames htarget, hroot] at h
    rw [origin, if_neg htarget]
    have hroute : d.Firm ([] ++ live) := hlive
    exact Reaches.of_firm hroute h.of_nil_cons

/-- A path that leads to a file opens no other, when it leads at least as far as some pieces do. -/
theorem route_of_reaches {start : Spot} {pieces : List Text} {opened : Disk} {more : Nat}
    (hfirm : d.Firm start.live) (hshown : ∀ piece ∈ pieces, HostPath.Shown piece)
    (hgoes : ∀ found, Reaches d false linkLimit (origin d.here path) (HostPath.names path) found →
      Reaches d false linkLimit start pieces found)
    (hreaches : Reaches d true more start pieces (.entry route (.file mode bytes)))
    (h : d.openOver links path = .ok (other, opened)) : other = route := by
  induction links generalizing path start pieces more with
  | zero => cases h
  | succ fewer ih =>
    unfold openOver at h
    dsimp only at h
    split at h
    · split at h <;> cases h
    have hseen : ∀ found, d.resolve false path = .ok found →
        found = .entry route (.file mode bytes) ∨
          ∃ live name target fewer, found = .entry (live ++ [name]) (.link target) ∧ d.Firm live ∧
            Reaches d true fewer (origin ⟨live, []⟩ target) (HostPath.names target)
              (.entry route (.file mode bytes)) := by
      intro found hresolve
      have hfound := hgoes found (resolve_eq_ok_iff.1 hresolve).2.2
      rcases hreaches.unfollowed with hsame | ⟨live, name, target, fewer, -, hlink, hback⟩
      · exact .inl (hfound.unique hsame)
      · obtain ⟨live', name', heq, hlive⟩ := hlink.firmAt hfirm hshown
        obtain ⟨rfl, -⟩ := List.append_inj' heq rfl
        exact .inr ⟨live, name, target, fewer, hfound.unique hlink, hlive, hback⟩
    split at h
    · rename_i hresolve
      cases h
      rcases hseen _ hresolve with heq | ⟨live, name, target, fewer, heq, -⟩
      · cases heq
        rfl
      · cases heq
    · rename_i entry target hresolve
      rcases hseen _ hresolve with heq | ⟨live, name, same, fewer, heq, hlive, hback⟩
      · cases heq
      · obtain ⟨hentry, hsame⟩ : entry = live ++ [name] ∧ target = same := by simpa using heq
        subst hsame
        rw [hentry, List.dropLast_concat] at h
        have hon : d.Firm (origin ⟨live, []⟩ target).live := Firm.at_origin hlive target
        exact ih hon (fun piece hpiece => HostPath.shown_of_mem_names hpiece)
          (fun found hfound => hlive.reaches_joined hfound) hback h
    · rename_i hresolve
      rcases hseen _ hresolve with heq | ⟨live, name, target, fewer, heq, -⟩ <;> cases heq
    · cases h
    · cases h

/-- **The file that a path leads to is the one that is opened at it.** -/
theorem Opens.route_eq (h : d.Opens path other) (hfirm : d.Firm d.here.live)
    (hlocate : d.locate (HostPath.collapse path) = .ok (.entry route (.file mode bytes))) : other = route := by
  obtain ⟨made, opened, hmade, hopened⟩ := h
  have hfound := (locate_eq_ok_iff.1 hlocate).1
  have hfile := hmade.grown.kept nofun (find?_eq_some_of_resolve hfound)
  have hseen := resolve_seen hmade.grown.carries hmade.grown.here hfound
  have hentry : made.seen (.entry route (.file mode bytes)) = .entry route (.file mode bytes) := foundAt_eq hfile
  rw [hentry] at hseen
  have hstart : made.Firm (origin made.here (HostPath.collapse path)).live := by
    rw [hmade.grown.here]
    exact Firm.at_origin (hmade.grown.carries.firm hfirm) _
  exact route_of_reaches hstart (fun piece hpiece => HostPath.shown_of_mem_names hpiece) (fun _ hfound => hfound)
    (resolve_eq_ok_iff.1 hseen).2.2 hopened

/-- A file that was opened is the one that is opened again. -/
theorem Opens.route_eq_of_opened {made opened : Disk}
    (hopened : made.openFile (HostPath.collapse path) = .ok (route, opened)) (h : opened.Opens path other) : other = route := by
  obtain ⟨old, hold⟩ := Filled.of_openOver hopened
  obtain ⟨last, again, hlast, hagain⟩ := h
  obtain ⟨mode, hmode, -⟩ := hold.file
  have hcarries := hold.carries.trans hlast.grown.carries
  have hhere := hlast.grown.here.trans hold.here
  have hsame := openOver_seen hcarries hhere (hlast.grown.kept nofun hmode) hopened
  have heq := Except.ok.inj (hagain.symm.trans hsame)
  exact congrArg Prod.fst heq

/-! ## Reading back -/

theorem Reads.ends_read (h : d.Reads encoding path content) (hpath : HostPath.Takes (HostPath.collapse path)) :
    Ends (read encoding path) d fun result after => result = .ok content ∧ after = d := by
  obtain ⟨hname, route, mode, bytes, hlocate, htext⟩ := h
  have hbytes : d.readBytes (HostPath.collapse path) = .ok bytes := by
    unfold readBytes
    rw [hlocate]
    rfl
  unfold read
  refine .bind (ends_refuse hname ?_)
  rw [andThen_ok]
  refine .bind (.bind (ends_usable hpath (ends_pure.2 ?_)))
  rw [andThen_ok]
  refine .bind (ends_answer hbytes ?_)
  rw [andThen_ok]
  unfold Host.textOf at htext
  refine .bind (ends_codecOf_cases (fun codec hcodec => ?_) fun refusal hnone => ?_)
  · rw [hcodec] at htext
    dsimp only at htext
    rw [andThen_ok]
    cases hdecode : codec.decode bytes with
    | ok text =>
      rw [hdecode] at htext
      cases htext
      exact ends_pure.2 ⟨rfl, rfl⟩
    | error fault =>
      rw [hdecode] at htext
      cases htext
  · rw [hnone] at htext
    cases htext

/-- What a path has been read as is what is read at it. -/
theorem reads_of_read (hread : (Op.outcome (Storage.read encoding path) d).1 = .ok content) :
    HostPath.Takes (HostPath.collapse path) ∧ d.Reads encoding path content := by
  have hends := (ends_read encoding path d).outcome
  change (Op.outcome (read encoding path) d).1 = .ok content at hread
  rw [hread] at hends
  exact hends.2

/-- A path that leads to a file leads to what it has been filled with. -/
theorem Filled.locate {filling : List UInt8} (h : d.Filled route filling after)
    (hlocate : d.locate (HostPath.collapse path) = .ok (.entry route (.file mode bytes))) :
    ∃ mode', after.locate (HostPath.collapse path) = .ok (.entry route (.file mode' filling)) := by
  obtain ⟨mode', hfile, -⟩ := h.file
  have hseen := locate_seen h.carries h.here hlocate
  have hentry : after.seen (.entry route (.file mode bytes)) = .entry route (.file mode' filling) := foundAt_eq hfile
  rw [hentry] at hseen
  exact ⟨mode', hseen⟩

/-- Added directories change nothing that is read. -/
theorem Reads.of_grown (h : d.Reads encoding path content) (hgrown : d.Grown none after) :
    after.Reads encoding path content := by
  obtain ⟨hname, route, mode, bytes, hlocate, htext⟩ := h
  have hfile := hgrown.kept nofun (find?_eq_some_of_resolve (locate_eq_ok_iff.1 hlocate).1)
  have hseen := locate_seen hgrown.carries hgrown.here hlocate
  have hentry : after.seen (.entry route (.file mode bytes)) = .entry route (.file mode bytes) := foundAt_eq hfile
  rw [hentry] at hseen
  exact ⟨hname, route, mode, bytes, hseen, by rwa [hgrown.host]⟩

/-- The file that is written over is the one that the path leads to. -/
theorem Opens.locate_filled {filling : List UInt8} (h : d.Opens path route) (hfirm : d.Firm d.here.live)
    (hreads : d.Reads encoding path content) (hfilled : d.Filled route filling after) :
    ∃ mode, after.locate (HostPath.collapse path) = .ok (.entry route (.file mode filling)) := by
  obtain ⟨-, other, mode, bytes, hlocate, -⟩ := hreads
  obtain rfl := h.route_eq hfirm hlocate
  exact hfilled.locate hlocate

/-- **A file that has been written to** is read as what was written. Where that failed it is read as before,
or it is empty. -/
theorem Wrote.reads {result : Except Failure Unit} {next : Text} (h : d.Wrote encoding path next result after)
    (hfaithful : d.host.Faithful encoding) (hfirm : d.Firm d.here.live) (hreads : d.Reads encoding path content) :
    after.Firm after.here.live ∧
      match result with
      | .ok _ => after.Reads encoding path next
      | .error _ => after.Reads encoding path content ∨ after.Reads encoding path [] := by
  cases result with
  | ok _ =>
    obtain ⟨hname, route, written, hbytes, hopens, hfilled⟩ := h
    obtain ⟨mode, hlocate⟩ := hopens.locate_filled hfirm hreads hfilled
    refine ⟨?_, hname, route, mode, written, hlocate, ?_⟩
    · rw [hfilled.here]
      exact hfilled.carries.firm hfirm
    · rw [hfilled.host]
      exact Host.textOf_bytesOf hfaithful hbytes
  | error failure =>
    rcases h with ⟨-, hmade⟩ | ⟨hrefused, route, hopens, hfilled⟩
    · refine ⟨?_, .inl (hreads.of_grown hmade.grown)⟩
      rw [hmade.grown.here]
      exact hmade.grown.carries.firm hfirm
    · obtain ⟨mode, hlocate⟩ := hopens.locate_filled hfirm hreads hfilled
      obtain ⟨hname, -, -, bytes, -, htext⟩ := hreads
      refine ⟨?_, .inr ⟨hname, route, mode, [], hlocate, ?_⟩⟩
      · rw [hfilled.here]
        exact hfilled.carries.firm hfirm
      · rw [hfilled.host]
        exact Host.textOf_nil hfaithful htext

/-! ## Edits -/

end Disk

end Linework
