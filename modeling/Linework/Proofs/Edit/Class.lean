import Linework.Proofs.Edit.Missing
import Linework.Proofs.Endings

/-!
# Lines at the bottom of a class

Where no header contains a target, an edit at the bottom of a class goes by the first line with the target. The
class is taken to be that of the nearest header above this line, which is looked for without regard to depth, while
the end of the class is found by depth. So the line lies in the class that is edited exactly if this class is still
open in front of the line (`Block.ClassAbove.reaches`): the nearest header may be that of a class that is closed by
then. That is how lines get into a class in memories and on disks (`addsToClass_of_no_header`).
-/

namespace Linework

namespace Block

variable {delimiter : Delimiter} {target : Target} {lines : List Text} {start stop inner offset : Nat}

/-- What a line opens is not closed before a later line: the depth is positive after every line between. -/
def OpenUntil (delimiter : Delimiter) (lines : List Text) (start inner : Nat) : Prop :=
  ∀ part, part <+: (lines.drop start).take (inner - start) → part ≠ [] → 0 < delimiter.total part

/-- A scan passes the lines in front of a later one exactly if the depth stays positive there. -/
theorem openUntil_iff (h : closing? delimiter 0 (lines.drop start) = some offset) (hinner : inner ≤ lines.length)
    (habove : start ≤ inner) : OpenUntil delimiter lines start inner ↔ inner ≤ start + offset := by
  have hlength : ((lines.drop start).take (inner - start)).length = inner - start :=
    List.length_take_of_le (by rw [List.length_drop]; omega)
  have hnone : OpenUntil delimiter lines start inner ↔
      closing? delimiter 0 ((lines.drop start).take (inner - start)) = none := by
    rw [closing?_eq_none_iff]
    simp only [Int.zero_add]
    exact Iff.rfl
  rw [← List.take_append_drop (inner - start) (lines.drop start)] at h
  rw [hnone]
  constructor
  · intro hopen
    rw [closing?_append, hopen, Option.none_or] at h
    obtain ⟨more, -, hmore⟩ := Option.map_eq_some_iff.1 h
    omega
  · exact fun hle => closing?_eq_none_of_le h (by omega)

/-- The class that a line refers to: from the nearest header above the line to where the class is closed. The line
lies within it exactly if the class is open until there. -/
structure ClassAbove (target : Target) (lines : List Text) (start stop inner : Nat) : Prop where
  first : findFirst? target lines = some inner
  nearest : Nearest Delimiter.classHeader lines inner start
  above : start < inner
  ends : matchingEnd .classBody lines start = .ok (some stop)
  reaches : inner ≤ stop ↔ OpenUntil .classBody lines start inner

/-- A target that no header contains refers to the nearest header above its first line. -/
theorem exists_nearest_of_findHeader {header : Pattern}
    (hheaders : ∀ line ∈ lines, header.matchesIn line = true → target.isIn line = false)
    (h : findHeader header target lines = .ok (some start)) :
    ∃ inner, findFirst? target lines = some inner ∧ Nearest header lines inner start ∧ start < inner := by
  have hdirect : (lines.findIdx? fun line => header.matchesIn line && target.isIn line) = none := by
    refine List.findIdx?_eq_none_iff.2 fun line hline => ?_
    rw [Bool.and_eq_false_imp]
    exact hheaders line hline
  rw [findHeader, hdirect] at h
  cases hinner : findFirst? target lines with
  | none =>
    rw [hinner] at h
    cases h
  | some inner =>
    rw [hinner] at h
    dsimp only at h
    obtain ⟨hlt, hline, -⟩ := List.findIdx?_eq_some_iff_getElem.1 hinner
    obtain ⟨found, hfound, hnearest⟩ := exists_enclosing header hlt
    have hnearest := hnearest start (Except.ok.inj (hfound.symm.trans h))
    -- the line with the target is no header, so it is not itself the nearest one
    have hother : start ≠ inner := by
      rintro rfl
      obtain ⟨hstart, hheader⟩ := hnearest.head
      rw [hheaders _ (List.getElem_mem hstart) hheader] at hline
      cases hline
    exact ⟨inner, rfl, hnearest, Nat.lt_of_le_of_ne hnearest.le hother⟩

/-- **The class of a target** that no header contains is that of the nearest header above its first line. -/
theorem exists_classAbove
    (hheaders : ∀ line ∈ lines, Delimiter.classHeader.matchesIn line = true → target.isIn line = false)
    (h : classSpan target lines = .ok (some (start, stop))) : ∃ inner, ClassAbove target lines start stop inner := by
  obtain ⟨hheader, last, hlast, rfl⟩ := exists_of_classSpan h
  obtain ⟨inner, hinner, hnearest, habove⟩ := exists_nearest_of_findHeader hheaders hheader
  obtain ⟨hstart, hmatch⟩ := hnearest.head
  have hlt : inner < lines.length := (List.findIdx?_eq_some_iff_getElem.1 hinner).1
  have hends := hlast
  rw [matchingEnd_natCast hstart, if_neg (Nat.ne_of_gt (Delimiter.opens_pos_of_classHeader hmatch))] at hends
  obtain ⟨offset, hoffset, rfl⟩ := Option.map_eq_some_iff.1 (Except.ok.inj hends)
  refine ⟨inner, hinner, hnearest, habove, hlast, ?_⟩
  rw [openUntil_iff hoffset (Nat.le_of_lt hlt) hnearest.le]
  exact Iff.rfl

end Block

namespace Edit

variable {settings : Settings} {path : Text} {target : Target} {contents lines : List Text} {splice : Splice}

/-- An edit at the bottom of a class puts lines in front of the line that closes the class. -/
theorem exists_classAbove_of_splice
    (hheaders : ∀ line ∈ lines, Delimiter.classHeader.matchesIn line = true → target.isIn line = false)
    (h : (insertClassBottom target contents).splice settings path lines = .ok splice) :
    ∃ start stop inner, Block.ClassAbove target lines start stop inner ∧ start < stop ∧
      splice = ⟨stop, 0, added settings lines stop contents⟩ := by
  obtain ⟨span, hspan, h⟩ := exists_of_bind_eq_ok h
  cases span with
  | none => cases h
  | some span =>
    obtain ⟨start, stop⟩ := span
    obtain ⟨inner, hclass⟩ := Block.exists_classAbove hheaders hspan
    have hle := (Block.bounds_of_classSpan hspan).1
    dsimp only at h
    split at h
    · cases h
    · exact ⟨start, stop, inner, hclass, by omega, (Except.ok.inj h).symm⟩

end Edit

namespace Storage

variable {σ : Type} [Storage σ] {files lines : Settings} {path : Text} {Holds : Text → σ → Prop} {content : Text}
  {s : σ} {e : Edit}

/-- An edit that succeeds leaves the spliced lines in a file that is guarded. -/
theorem Guards.ends_edit_ok (h : Guards files path Holds) (hholds : Holds content s) (hcreates : e.creates = false) :
    Op.Ends (edit files lines path e) s fun result after => result = .ok () →
      ∃ splice, e.splice lines path (Line.split files.newline.text content) = .ok splice ∧
        Holds (splice.apply (Line.split files.newline.text content)).flatten after := by
  rw [edit_eq, hcreates]
  refine Storage.ends_rewrite (.map ((h.reads hholds).mono ?_))
  rintro _ after ⟨rfl, hafter⟩
  dsimp only [Except.map]
  cases hsplice : e.splice lines path (Line.split files.newline.text content) with
  | error failure => nofun
  | ok splice =>
    refine (h.writes hafter _).mono ?_
    rintro _ last hlast rfl
    exact ⟨splice, rfl, hlast⟩

/-- An edit at the bottom of a class, if it succeeds, adds its lines in front of the line that closes the class of the
nearest header above the first line with its target. `files` tells how the file is read. -/
def AddsToClass (files lines : Settings) (path : Text) (target : Target) (contents : List Text) (content : Text)
    (s : σ) : Prop :=
  let old := Line.split files.newline.text content
  let edited := Op.outcome (edit files lines path (.insertClassBottom target contents)) s
  edited.1 = .ok () → ∃ start stop inner, Block.ClassAbove target old start stop inner ∧ start < stop ∧
    (Op.outcome (read files.encoding path) edited.2.store).1 =
      .ok (old.take stop ++ Edit.added lines old stop contents ++ old.drop stop).flatten

theorem Guards.addsToClass (h : Guards files path Holds) (hholds : Holds content s) {target : Target}
    (hheaders : ∀ line ∈ Line.split files.newline.text content,
      Delimiter.classHeader.matchesIn line = true → target.isIn line = false) (contents : List Text) :
    AddsToClass files lines path target contents content s := by
  intro hok
  obtain ⟨splice, hsplice, hafter⟩ := (h.ends_edit_ok hholds rfl).outcome hok
  obtain ⟨start, stop, inner, hclass, hlater, rfl⟩ := Edit.exists_classAbove_of_splice hheaders hsplice
  exact ⟨start, stop, inner, hclass, hlater, (h.reads hafter).outcome.1⟩

end Storage

/-- **Lines at the bottom of a class** that no header names go into the class of the nearest header above the first
line with the target, in every reachable memory and on every disk that keeps its place and whose codec reads
what it has written. This line lies in the class
exactly if the class is still open in front of it. -/
theorem addsToClass_of_no_header {files : Settings} {content : Text} {target : Target}
    (hheaders : ∀ line ∈ Line.split files.newline.text content,
      Delimiter.classHeader.matchesIn line = true → target.isIn line = false)
    (lines : Settings) (contents : List Text) :
    (∀ (m : Memory) (path : Text), m.Reachable →
      (Op.outcome (Storage.read files.encoding path) m).1 = .ok content →
        Storage.AddsToClass files lines path target contents content m) ∧
      ∀ (d : Disk) (path : Text), d.Grounded → d.host.Faithful files.encoding →
        (Op.outcome (Storage.read files.encoding path) d).1 = .ok content →
          Storage.AddsToClass files lines path target contents content d := by
  constructor
  · intro m path hreachable hread
    exact (Memory.guards files path).addsToClass ⟨hreachable.sound, Memory.exists_file_of_read hread⟩ hheaders contents
  · intro d path hgrounded hfaithful hread
    obtain ⟨hpath, hreads⟩ := Disk.reads_of_read hread
    exact (Disk.guards files path).addsToClass ⟨hgrounded, hfaithful, hpath, hreads⟩ hheaders contents

/-- A line of a class within a module, and lines below it. -/
theorem addsToClass_of_no_header_inner :
    (∀ line ∈ Line.split ['\n'] (Text.lit "module M\n  class A\n    x\n  end\nend\n"),
        Delimiter.classHeader.matchesIn line = true → (Target.text ['x']).isIn line = false) ∧
      (∃ m : Memory, m.Reachable ∧
        (Op.outcome (Storage.read (Text.lit "utf-8") ['f']) m).1 =
          .ok (Text.lit "module M\n  class A\n    x\n  end\nend\n") ∧
        (Op.outcome (Storage.edit {} {} ['f'] (.insertClassBottom (.text ['x']) [['y']])) m).1 = .ok () ∧
        ∃ start stop inner, Block.ClassAbove (.text ['x'])
            (Line.split ['\n'] (Text.lit "module M\n  class A\n    x\n  end\nend\n")) start stop inner ∧
          start < stop) ∧
      ∃ d : Disk, d.Grounded ∧ d.host.Faithful (Text.lit "utf-8") ∧
        (Op.outcome (Storage.read (Text.lit "utf-8") ['f']) d).1 =
          .ok (Text.lit "module M\n  class A\n    x\n  end\nend\n") ∧
        Storage.AddsToClass {} {} ['f'] (.text ['x']) [['y']]
          (Text.lit "module M\n  class A\n    x\n  end\nend\n") d := by
  have hheaders : ∀ line ∈ Line.split Newline.lf.text (Text.lit "module M\n  class A\n    x\n  end\nend\n"),
      Delimiter.classHeader.matchesIn line = true → (Target.text ['x']).isIn line = false := by decide +kernel
  have hreachable := Memory.Reachable.start.move
    (.act {} (.write ['f'] (Text.lit "module M\n  class A\n    x\n  end\nend\n")))
  have hwritten := (Disk.ends_perform_acts {}
    (.write ['f'] (Text.lit "module M\n  class A\n    x\n  end\nend\n")) (Disk.atRoute [])).outcome
  have hgrounded := hwritten.1.grounded Disk.grounded_atRoot
  have hfaithful := Host.faithful_of_standard (congrArg Host.codecs hwritten.1.host)
  have hadds := @addsToClass_of_no_header {} _ _ hheaders {} [['y']]
  have hedited : (Op.outcome (Storage.edit {} {} ['f'] (.insertClassBottom (.text ['x']) [['y']]))
      (Op.outcome (Move.act {} (.write ['f'] (Text.lit "module M\n  class A\n    x\n  end\nend\n"))).run
        ({} : Memory)).2.store).1 = .ok () := by decide +kernel
  obtain ⟨start, stop, inner, hclass, hlater, -⟩ := hadds.1 _ ['f'] hreachable rfl hedited
  exact ⟨hheaders, ⟨_, hreachable, rfl, hedited, start, stop, inner, hclass, hlater⟩, _, hgrounded,
    hfaithful _, rfl, hadds.2 _ ['f'] hgrounded (hfaithful _) rfl⟩

/-- The nearest header above a line may be that of a class that is closed by then. -/
theorem addsToClass_sibling :
    ∃ m : Memory, m.Reachable ∧
      (Op.outcome (Storage.read (Text.lit "utf-8") ['f']) m).1 =
        .ok (Text.lit "class A\n  class B\n  end\n  x\nend\n") ∧
      (∀ line ∈ Line.split ['\n'] (Text.lit "class A\n  class B\n  end\n  x\nend\n"),
        Delimiter.classHeader.matchesIn line = true → (Target.text ['x']).isIn line = false) ∧
      (Op.outcome (Storage.edit {} {} ['f'] (.insertClassBottom (.text ['x']) [['y']])) m).1 = .ok () ∧
      (Op.outcome (Storage.read (Text.lit "utf-8") ['f'])
          (Op.outcome (Storage.edit {} {} ['f'] (.insertClassBottom (.text ['x']) [['y']])) m).2.store).1 =
        .ok (Text.lit "class A\n  class B\n    y\n  end\n  x\nend\n") ∧
      ∃ start stop inner,
        Block.classSpan (.text ['x']) (Line.split ['\n'] (Text.lit "class A\n  class B\n  end\n  x\nend\n")) =
          .ok (some (start, stop)) ∧
        Block.findFirst? (.text ['x']) (Line.split ['\n'] (Text.lit "class A\n  class B\n  end\n  x\nend\n")) =
          some inner ∧
        stop < inner :=
  ⟨_, Memory.Reachable.start.move (.act {} (.write ['f'] (Text.lit "class A\n  class B\n  end\n  x\nend\n"))), rfl,
    by decide +kernel, by decide +kernel, by decide +kernel, 1, 2, 3, by decide +kernel, by decide +kernel, by decide⟩

end Linework
