import Linework.Proofs.Disk.Change
import Linework.Proofs.Edit.Missing

/-!
# What writing does to a disk

One rule for each operation that writes, on any disk and whether or not it succeeds. The parents of a file are
made first; then the file is opened, emptied and filled, so it is left empty when its text has no bytes in the
encoding (`ends_write`). A copy reads its bytes before it opens a file and an edit its lines, so neither fails
once a file has been opened, but for the encoding of the text.
-/

namespace Linework

namespace Host

/-- The bytes of a text in the encoding of a name. -/
def bytesOf (host : Host) (encoding content : Text) : Except Failure (List UInt8) :=
  match host.codecs encoding with
  | .error refusal => .error (.unknownEncoding refusal)
  | .ok codec => (codec.encode content).mapError .unencodable

/-- The text of bytes in the encoding of a name. -/
def textOf (host : Host) (encoding : Text) (bytes : List UInt8) : Except Failure Text :=
  match host.codecs encoding with
  | .error refusal => .error (.unknownEncoding refusal)
  | .ok codec => (codec.decode bytes).mapError .undecodable

end Host

namespace Disk

open Op Failure

/-- A file that a path leads to is read as a content. -/
def Reads (d : Disk) (encoding path content : Text) : Prop :=
  encodingFault? encoding = none ∧ ∃ route mode bytes,
    d.locate (HostPath.collapse path) = .ok (.entry route (.file mode bytes)) ∧
      d.host.textOf encoding bytes = .ok content

/-- The file that is opened at a path once its parents have been made. -/
def Opens (d : Disk) (path : Text) (route : Route) : Prop :=
  ∃ made opened, d.Made (Path.parent path) made ∧
    made.openFile (HostPath.collapse path) = .ok (route, opened)

/-- A path that is too long to be looked up is reported as it is. -/
def Unanswered (d : Disk) (path : Text) (failure : Failure) : Prop :=
  HostPath.Takes (HostPath.collapse path) ∧ d.resolve true (HostPath.collapse path) = .error Errno.nameTooLong ∧
    failure = .system (.about Errno.nameTooLong (HostPath.collapse path))

/-- What writing a content ends in. A text without bytes in the encoding leaves its file empty. -/
def Wrote (d : Disk) (encoding path content : Text) (result : Except Failure Unit) (after : Disk) : Prop :=
  match result with
  | .ok _ => encodingFault? encoding = none ∧ ∃ route bytes,
      d.host.bytesOf encoding content = .ok bytes ∧ d.Opens path route ∧ d.Filled route bytes after
  | .error failure => failure.OfPath ∧ d.Made (Path.parent path) after ∨
      d.host.bytesOf encoding content = .error failure ∧ ∃ route, d.Opens path route ∧ d.Filled route [] after

variable {d after : Disk} {path encoding content : Text} {found : Found}

theorem Wrote.host_eq {result : Except Failure Unit} (h : d.Wrote encoding path content result after) :
    after.host = d.host := by
  cases result with
  | ok _ =>
    obtain ⟨-, route, bytes, -, -, hfilled⟩ := h
    exact hfilled.host
  | error failure =>
    rcases h with ⟨-, hmade⟩ | ⟨-, route, -, hfilled⟩
    · exact hmade.grown.host
    · exact hfilled.host

/-! ## Looking and reading -/

theorem locate_eq_ok_iff : d.locate path = .ok found ↔
    d.resolve true path = .ok found ∧ ∀ route, found ≠ .missing route := by
  unfold locate
  cases d.resolve true path with
  | error code => simp [bind, Except.bind]
  | ok other =>
    cases other with
    | missing route =>
      constructor
      · nofun
      · rintro ⟨⟨⟩, hne⟩
        exact absurd rfl (hne route)
    | entry route entry =>
      constructor
      · rintro ⟨⟩
        exact ⟨rfl, nofun⟩
      · rintro ⟨⟨⟩, -⟩
        rfl
    | removed spot =>
      constructor
      · rintro ⟨⟩
        exact ⟨rfl, nofun⟩
      · rintro ⟨⟨⟩, -⟩
        rfl

/-- What has been located is located still. -/
theorem locate_seen (hcarries : d.Carries after) (hhere : after.here = d.here) (h : d.locate path = .ok found) :
    after.locate path = .ok (after.seen found) := by
  obtain ⟨hresolve, hne⟩ := locate_eq_ok_iff.1 h
  refine locate_eq_ok_iff.2 ⟨resolve_seen hcarries hhere hresolve, fun route => ?_⟩
  cases found with
  | missing free => exact absurd rfl (hne free)
  | removed spot =>
    show after.standing spot ≠ _
    unfold standing
    split
    · split <;> nofun
    · nofun
  | entry other entry =>
    obtain ⟨entry', hentry, -⟩ := hcarries.kept (find?_eq_some_of_resolve hresolve)
    show after.foundAt other ≠ _
    rw [foundAt_eq hentry]
    nofun

/-- What is answered of a path that is looked up, and what is said where nothing is. -/
theorem ends_lookedUp {α : Type} (hpath : HostPath.Takes (HostPath.collapse path)) (answered : Found → α) (absent : α) :
    Ends (query (HostPath.collapse path) fun d =>
        match d.resolve true (HostPath.collapse path) with
        | .ok found => .ok (answered found)
        | .error code => if saysAbsent code then .ok absent else .error code) d
      fun result after => after = d ∧ Only (d.Unanswered path) result := by
  refine ends_query_cases (fun _ _ => ⟨rfl, trivial⟩) fun code hrefused => ?_
  split at hrefused
  · cases hrefused
  · rename_i other hresolve
    split at hrefused
    · cases hrefused
    · rename_i hcode
      cases hrefused
      obtain rfl := (resolve_refused hresolve).resolve_left hcode
      exact ⟨rfl, hpath, hresolve, rfl⟩

theorem ends_isDir (path : Text) (d : Disk) :
    Ends (isDir path) d fun result after => after = d ∧ Only (d.Unanswered path) result := by
  unfold isDir
  dsimp only
  split
  · exact ends_pure.2 ⟨rfl, trivial⟩
  · exact ends_lookedUp (not_not.1 ‹_›) _ _

theorem ends_hasEntry (path : Text) (d : Disk) :
    Ends (hasEntry path) d fun result after => after = d ∧ Only (d.Unanswered path) result := by
  unfold hasEntry
  dsimp only
  split
  · exact ends_pure.2 ⟨rfl, trivial⟩
  · refine .map ((ends_lookedUp (not_not.1 ‹_›) Found.item? none).mono ?_)
    rintro (failure | found) after ⟨rfl, honly⟩
    · exact ⟨rfl, honly⟩
    · exact ⟨rfl, trivial⟩

theorem ends_codecOf_cases {Q : Except Failure Codec → Disk → Prop}
    (known : ∀ codec, d.host.codecs encoding = .ok codec → Q (.ok codec) d)
    (unknown : ∀ refusal, d.host.codecs encoding = .error refusal → Q (.error (.unknownEncoding refusal)) d) :
    Ends (codecOf encoding) d Q := by
  unfold codecOf
  refine .get ?_
  cases hcodec : d.host.codecs encoding with
  | ok codec => exact ends_pure.2 (known codec hcodec)
  | error refusal => exact ends_throw.2 (unknown refusal hcodec)

theorem ends_read (encoding path : Text) (d : Disk) :
    Ends (read encoding path) d fun result after => after = d ∧
      match result with
      | .ok content => HostPath.Takes (HostPath.collapse path) ∧ d.Reads encoding path content
      | .error failure => failure.OfPath ∨ ∃ bytes, d.host.textOf encoding bytes = .error failure := by
  unfold read
  refine .bind (ends_refuse_cases (fun hname => ?_) fun fault _ => ⟨rfl, .inl (ofPath_unusable fault)⟩)
  rw [andThen_ok]
  refine .bind (ends_hostPath_cases (fun hpath => ?_) fun fault => ⟨rfl, .inl (ofPath_unusable fault)⟩)
  rw [andThen_ok]
  refine .bind (ends_answer_cases (fun bytes hbytes => ?_) fun failure hstorage => ⟨rfl, .inl (.inl hstorage)⟩)
  obtain ⟨route, mode, hlocate⟩ : ∃ route mode,
      d.locate (HostPath.collapse path) = .ok (.entry route (.file mode bytes)) := by
    unfold readBytes at hbytes
    cases hlocate : d.locate (HostPath.collapse path) with
    | error code =>
      rw [hlocate] at hbytes
      cases hbytes
    | ok found =>
      rw [hlocate] at hbytes
      cases found with
      | missing | removed => cases hbytes
      | entry route entry =>
        cases entry with
        | directory | link => cases hbytes
        | file mode old =>
          cases hbytes
          exact ⟨route, mode, rfl⟩
  rw [andThen_ok]
  refine .bind (ends_codecOf_cases (fun codec hcodec => ?_) fun refusal hnone => ?_)
  · have htext : d.host.textOf encoding bytes = (codec.decode bytes).mapError .undecodable := by
      rw [Host.textOf, hcodec]
    rw [andThen_ok]
    cases hdecode : codec.decode bytes with
    | ok content =>
      rw [hdecode] at htext
      exact ends_pure.2 ⟨rfl, hpath, hname, route, mode, bytes, hlocate, htext⟩
    | error fault =>
      rw [hdecode] at htext
      exact ends_throw.2 ⟨rfl, .inr ⟨bytes, htext⟩⟩
  · refine ⟨rfl, .inr ⟨bytes, ?_⟩⟩
    rw [Host.textOf, hnone]

/-! ## Writing -/

theorem ends_opened (path : Text) (d : Disk) :
    Ends (opened path) d fun result after =>
      match result with
      | .ok route => d.openFile path = .ok (route, after)
      | .error failure => after = d ∧ failure.IsStorage := by
  unfold opened
  refine .bind (ends_answer_cases ?_ fun failure hstorage => ⟨rfl, hstorage⟩)
  rintro ⟨route, opened⟩ hopened
  rw [andThen_ok]
  exact .set (ends_pure.2 hopened)

/-- **Writing** fails before the file is opened, or leaves it empty, or succeeds. -/
theorem ends_write (encoding path content : Text) (d : Disk) :
    Ends (write encoding path content) d (d.Wrote encoding path content) := by
  unfold write
  refine .bind ((ends_makeDir (Path.parent path) d).mono ?_)
  rintro (failure | _) made ⟨hmade, honly⟩
  · exact .inl ⟨honly, hmade⟩
  rw [andThen_ok]
  refine .bind (ends_refuse_cases (fun hname => ?_) fun fault _ => .inl ⟨ofPath_unusable fault, hmade⟩)
  refine .bind (ends_hostPath_cases (fun _ => ?_) fun fault => .inl ⟨ofPath_unusable fault, hmade⟩)
  refine .bind ((ends_opened _ made).mono ?_)
  rintro (failure | route) opened hopened
  · obtain ⟨rfl, hstorage⟩ := hopened
    exact .inl ⟨.inl hstorage, hmade⟩
  have hopens : d.Opens path route := ⟨made, opened, hmade, hopened⟩
  obtain ⟨old, hold⟩ := Filled.of_openOver hopened
  have hemptied : d.Filled route [] (opened.putBytes route []) := .of_grown hmade.grown (hold.putBytes [])
  refine .get (.set (.bind (ends_codecOf_cases (fun codec hcodec => ?_) fun refusal hnone => ?_)))
  · have hbytes : d.host.bytesOf encoding content = (codec.encode content).mapError .unencodable := by
      rw [Host.bytesOf, ← hemptied.host, hcodec]
    rw [andThen_ok]
    cases hencode : codec.encode content with
    | ok bytes =>
      rw [hencode] at hbytes
      exact .get (.set (ends_note.2 ⟨hname, route, bytes, hbytes, hopens, hemptied.putBytes bytes⟩))
    | error fault =>
      rw [hencode] at hbytes
      exact .bind (ends_throw.2 (.inr ⟨hbytes, route, hopens, hemptied⟩))
  · refine .inr ⟨?_, route, hopens, hemptied⟩
    rw [Host.bytesOf, ← hemptied.host, hnone]

/-- A file is created where nothing is located, once its parents have been made. -/
theorem ends_touch (path : Text) (d : Disk) :
    Ends (touch path) d fun result after =>
      match result with
      | .ok _ => d.Made (Path.parent path) after ∨
          (∀ found, d.locate (HostPath.collapse path) ≠ .ok found) ∧
            ∃ (route : Route) (made : Disk), d.find? route = none ∧
              made.openFile (HostPath.collapse path) = .ok (route, after) ∧ d.Filled route [] after
      | .error failure => d.Made (Path.parent path) after ∧ (failure.OfPath ∨ d.Unanswered path failure) := by
  unfold touch
  refine .bind ((ends_isDir path d).mono ?_)
  rintro (failure | found) d ⟨rfl, honly⟩
  · exact ⟨.refl d _, .inr honly⟩
  rw [andThen_ok]
  refine .unless (fun _ => ⟨.refl d _, .inl (ofPath_ofErrno _ _)⟩) fun _ => ?_
  refine .bind ((ends_makeDir (Path.parent path) d).mono ?_)
  rintro (failure | _) made ⟨hmade, honly⟩
  · exact ⟨hmade, .inl honly⟩
  rw [andThen_ok]
  refine .bind (ends_hostPath_cases (fun _ => ?_) fun fault => ⟨hmade, .inl (ofPath_unusable fault)⟩)
  rw [andThen_ok]
  refine .get ?_
  split
  · exact ends_pure.2 (.inl hmade)
  rename_i hnowhere
  have hlocate : ∀ found, d.locate (HostPath.collapse path) ≠ .ok found := by
    intro found hfound
    rw [locate_seen hmade.grown.carries hmade.grown.here hfound] at hnowhere
    cases hnowhere
  refine .bind ((ends_opened _ made).mono ?_)
  rintro (failure | route) opened hopened
  · obtain ⟨rfl, hstorage⟩ := hopened
    exact ⟨hmade, .inl (.inl hstorage)⟩
  rw [andThen_ok]
  refine ends_pure.2 ?_
  rcases opened_of_openOver hopened with ⟨mode, old, hfile, rfl⟩ | ⟨hnone, rfl⟩
  · exact .inl hmade
  · refine .inr ⟨hlocate, route, made, ?_, hopened, .of_grown hmade.grown (.put_file hnone)⟩
    rcases hmade.grown.others route nofun with hsame | ⟨hfree, -⟩
    · exact hsame ▸ hnone
    · exact hfree

theorem ends_openCopy (source destination : Text) (d : Disk) :
    Ends (openCopy source destination) d fun result after =>
      match result with
      | .ok route => d.openFile destination = .ok (route, after)
      | .error failure => after = d ∧ failure.IsStorage := by
  unfold openCopy
  refine .get ?_
  have hrefused : ∀ code, Ends (answer destination fun _ => .error code : Op Disk Route) d fun result after =>
      match result with
      | .ok route => d.openFile destination = .ok (route, after)
      | .error failure => after = d ∧ failure.IsStorage := fun code =>
    ends_answer_refused rfl ⟨rfl, _, _, rfl⟩
  split
  · rename_i hopened
    exact .set (ends_pure.2 hopened)
  · refine .unless (fun _ => ⟨rfl, _, _, rfl⟩) fun _ => hrefused _
  · exact hrefused _

/-- A copy is refused before its file is opened. -/
theorem ends_copy (source destination : Text) (d : Disk) :
    Ends (copy source destination) d fun result after =>
      match result with
      | .ok _ => ∃ route bytes, d.Filled route bytes after
      | .error failure => d.Made (Path.parent destination) after ∧ (failure.OfPath ∨ d.Unanswered source failure) := by
  unfold copy
  refine .bind ((ends_hasEntry source d).mono ?_)
  rintro (failure | found) d ⟨rfl, honly⟩
  · exact ⟨.refl d _, .inr honly⟩
  rw [andThen_ok]
  refine .unless (fun _ => ⟨.refl d _, .inl (ofPath_ofErrno _ _)⟩) fun _ => ?_
  refine .bind ((ends_makeDir (Path.parent destination) d).mono ?_)
  rintro (failure | _) made ⟨hmade, honly⟩
  · exact ⟨hmade, .inl honly⟩
  rw [andThen_ok]
  refine .bind (ends_usable_cases (fun _ => ?_) fun fault => ⟨hmade, .inl (ofPath_unusable fault)⟩)
  rw [andThen_ok]
  refine .get (.unless (fun _ => ⟨hmade, .inl (ofPath_ofFault _ _)⟩) fun _ => ?_)
  refine .bind (ends_answer_cases (fun bytes _ => ?_) fun failure hstorage => ⟨hmade, .inl (.inl hstorage)⟩)
  rw [andThen_ok]
  refine .bind ((ends_openCopy source destination made).mono ?_)
  rintro (failure | route) opened hopened
  · obtain ⟨rfl, hstorage⟩ := hopened
    exact ⟨hmade, .inl (.inl hstorage)⟩
  obtain ⟨old, hold⟩ := Filled.of_openOver hopened
  rw [andThen_ok]
  exact .get (ends_setStore.2 ⟨route, bytes, .of_grown hmade.grown (hold.putBytes bytes)⟩)

/-! ## Editing -/

/-- An edit that reads no lines or finds no place for its own. -/
def Unedited (host : Host) (encoding : Text) (failure : Failure) : Prop :=
  failure.OfPath ∨ (∃ bytes, host.textOf encoding bytes = .error failure) ∨
    ∃ label path, failure = .missingTarget label path

/-- **An edit** of a file leaves the disk as it is, or ends as the writing of the spliced lines does. -/
theorem ends_rewrite (files lines : Settings) (path : Text) (e : Edit) (d : Disk) :
    Ends (Storage.rewrite files lines path e) d fun result after =>
      after = d ∧ (∃ failure, result = .error failure ∧ Unedited d.host files.encoding failure) ∨
        ∃ content splice, d.Reads files.encoding path content ∧
          e.splice lines path (Line.split files.newline.text content) = .ok splice ∧
          d.Wrote files.encoding path (splice.apply (Line.split files.newline.text content)).flatten result after := by
  refine Storage.ends_rewrite (.map ((ends_read files.encoding path d).mono ?_))
  rintro (failure | content) d ⟨rfl, hread⟩
  · refine .inl ⟨rfl, failure, rfl, ?_⟩
    rcases hread with hpath | hbytes
    · exact .inl hpath
    · exact .inr (.inl hbytes)
  · dsimp only [Except.map]
    cases hsplice : e.splice lines path (Line.split files.newline.text content) with
    | error failure =>
      obtain ⟨target, -, rfl⟩ := Edit.missing_of_splice hsplice
      exact .inl ⟨rfl, _, rfl, .inr (.inr ⟨_, _, rfl⟩)⟩
    | ok splice =>
      refine (ends_write files.encoding path _ d).mono fun result after hwrote => ?_
      exact .inr ⟨content, splice, hread.2, hsplice, hwrote⟩

end Disk

end Linework
