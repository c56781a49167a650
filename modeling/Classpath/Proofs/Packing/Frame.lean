import Classpath.Proofs.FileTree.Presence
import Classpath.Proofs.FileTree.Removal
import Classpath.Proofs.FileTree.Standing
import Classpath.Proofs.Packing.Call
import Classpath.Proofs.Packing.Targets

/-! # Nothing but the temporary directory

The target of a job is a name in the temporary directory, or the directory above it, where no file
can be written and none is taken away (`Classpath.Packer.Prepared.keeps`). So whatever becomes of a
call, it changes nothing outside the temporary directory that it has made, and where there is no
directory to pack it changes nothing at all (`Classpath.Packer.packWith_frame`). Such a call gives
its locations back unless one of them is too long to be looked up.
-/

namespace Classpath.Packer

open Packing

section Target

variable {w : Workspace} {temporary : Path} {fresh : Place} {t : FileTree}

/-! ## The directory above -/

/-- The path that goes up from the temporary directory leads to a directory outside. -/
theorem locate_up (sound : w.files.Sound) (found : FreshAt w temporary fresh)
    (made : Made w.files fresh t) (aim : FileTree.Aim) {workingDirectory : Path}
    (same : temporary.origin workingDirectory = temporary.origin w.workingDirectory) {place : Place}
    (located : t.locate aim workingDirectory (temporary.child "..").text = .ok place) :
    t.node? place = some .directory := by
  have above : w.files.node? fresh.dropLast = some .directory :=
    FileTree.directory_of_follow sound found.followed
      (FileTree.stands_of_follow found.some_name found.followed) found.absent
  have some_name : fresh ≠ [] := by
    rintro rfl
    cases found.absent
  have outside : ¬ fresh <+: fresh.dropLast := fun below => by
    have shorter := below.length_le
    rw [List.length_dropLast] at shorter
    have positive := List.length_pos_iff.mpr some_name
    omega
  obtain ⟨links, gone⟩ := FileTree.follow_into made.agree found.absent made.directory aim
    found.apart found.followed [".."] (by simp)
  have normal : (temporary.child "..").Normal := by
    intro name member
    rcases List.mem_append.mp member with before | last
    · exact found.normal name before
    · rw [List.mem_singleton.mp last]
      exact ⟨by decide, by decide, by decide⟩
  have start : (temporary.child "..").origin workingDirectory =
      temporary.origin w.workingDirectory := same
  rw [FileTree.locate_names t normal (by simp [Path.child]), start] at located
  split at located
  · cases located
  · rw [Path.child, gone, FileTree.follow_cons_up made.directory, FileTree.follow] at located
    cases located
    rw [made.agree _ outside, above]

theorem keeps_up (sound : w.files.Sound) (found : FreshAt w temporary fresh) :
    Keeps w fresh (temporary.child "..") where
  write {u _ _ _} held wrote := by
    have same : temporary.origin u.workingDirectory = temporary.origin w.workingDirectory := by
      rw [held.working]
    obtain ⟨place, writable, -⟩ := FileTree.exists_of_write wrote
    obtain ⟨located, notDirectory⟩ := FileTree.writable_eq_ok_iff.mp writable
    exact absurd (locate_up sound found held.made .newFile same located) notDirectory
  unlink {u _} held taken := by
    have same : temporary.origin u.workingDirectory = temporary.origin w.workingDirectory := by
      rw [held.working]
    obtain ⟨gone, node, located, stands, notDirectory, -⟩ := FileTree.unlink_eq_ok_iff.mp taken
    have directory := locate_up sound found held.made .name same located
    exact absurd (Option.some.inj (stands.symm.trans directory)) notDirectory

/-- Where nothing that is added to a name has a slash, every target keeps to the temporary
directory. -/
theorem keeps_of_planned {p : Packer} (sound : w.files.Sound) (found : FreshAt w temporary fresh)
    (ending : '/' ∉ p.ending.shown.toList) (extension : '/' ∉ p.extension.shown.toList)
    {locations : List Location} {jobs : List Job}
    (planned : p.plan temporary locations = .ok jobs) :
    ∀ job ∈ jobs, Keeps w fresh job.target := by
  intro job member
  obtain ⟨-, path, count, target⟩ := mem_planAfter planned job member
  have normal : job.directory.Normal :=
    eq_filePath_of_path path ▸ Location.normal_filePath job.source
  have named := isName_fileName_stem normal ending extension count
  rw [Path.join_name _ named] at target
  rw [target]
  by_cases up : p.fileName (p.stem job.directory) count = ".."
  · rw [up]
    exact keeps_up sound found
  · refine keeps_of_isTarget ⟨found, ?_, temporary.below_child up⟩
    intro name inside
    rcases List.mem_append.mp inside with before | last
    · exact found.normal name before
    · exact List.mem_singleton.mp last ▸ named

end Target

/-! ## Whole calls -/

section Call

variable {p : Packer} {w : Workspace} {runner : List Job → Action (List Location)}
  {locations : List Location}

/-- A call that keeps to what it has made: it has changed no file, or it has made a temporary
directory where nothing stood and has changed nothing outside of it. -/
def Framed (p : Packer) (w after : Workspace) : Prop :=
  after.files = w.files ∨
    ∃ temporary fresh between, p.makeTemporary.start w = (.ok temporary, between) ∧
      w.files.node? fresh = none ∧ between.files = w.files.put fresh .directory ∧
      after.files.node? fresh = some .directory ∧ w.files.Agree fresh after.files

theorem framed_packWith (sound : w.files.Sound) (ending : '/' ∉ p.ending.shown.toList)
    (extension : '/' ∉ p.extension.shown.toList) (way : p.IsRunner runner)
    (locations : List Location) : p.Framed w ((p.packWith runner locations).start w).2 := by
  by_cases decided : ∀ l ∈ distinct locations, leadsToDirectory w l = .ok (isPacked w l)
  case neg =>
    obtain ⟨refusal, ended⟩ := exists_packWith_eq (p := p) decided
    rw [ended]
    exact Or.inl rfl
  rw [packWith_eq decided]
  split
  · exact Or.inl rfl
  rcases made : p.makeTemporary.start w with ⟨refusal | temporary, between⟩
  · obtain ⟨serial, -, rfl⟩ := makeTemporary_refused made
    rw [Action.start_bind, made]
    exact Or.inl rfl
  obtain ⟨fresh, serial, registered, found, same⟩ := exists_freshAt sound made
  have held : Held w fresh between := by
    rw [same]
    exact ⟨made_put sound found.absent, rfl⟩
  have framed : ∀ {after : Workspace}, Held w fresh after → p.Framed w after := fun held =>
    Or.inr ⟨temporary, fresh, between, made, found.absent, congrArg Workspace.files same,
      held.made.directory, held.made.agree⟩
  rw [Action.start_bind_ok made]
  cases planned : p.plan temporary (directoriesOf w locations) with
  | error fault => exact framed held
  | ok jobs =>
    have planning : (Action.ofFault (.ok jobs)).start between = (.ok jobs, between) := rfl
    have keeps := keeps_of_planned sound found ending extension planned
    have after := kept_runner way (fun job member => (keeps job member).keptAt) held
    rw [Action.start_bind_ok planning, Action.start_bind]
    rcases ran : (runner jobs).start between with ⟨refusal | archives, last⟩ <;>
      · rw [ran] at after
        exact framed after

/-- A location that leads to a directory. -/
def LeadsToDirectory (w : Workspace) (l : Location) : Prop :=
  l.isLocal = true ∧
    ∃ place, w.files.status w.workingDirectory l.filePath.text = .ok (place, .directory)

/-- A location that is too long to be looked up. -/
def TooLong (w : Workspace) (l : Location) : Prop :=
  l.isLocal = true ∧ w.files.status w.workingDirectory l.filePath.text = .error .nameTooLong

theorem leadsToDirectory_eq_true_iff {l : Location} :
    leadsToDirectory w l = .ok true ↔ LeadsToDirectory w l := by
  unfold leadsToDirectory LeadsToDirectory
  by_cases inFiles : l.isLocal = true <;> simp [inFiles, FileTree.isDirectory_eq_true_iff]

theorem leadsToDirectory_eq_error_iff {l : Location} {fault : Fault} :
    leadsToDirectory w l = .error fault ↔
      TooLong w l ∧ fault = .file .nameTooLong l.filePath.text := by
  unfold leadsToDirectory TooLong
  by_cases inFiles : l.isLocal = true
  · simp [inFiles, FileTree.isDirectory, FileTree.ask_eq_error_iff]
  · simp [inFiles]

theorem not_leadsToDirectory {l : Location} (plain : leadsToDirectory w l = .ok false) :
    ¬LeadsToDirectory w l := by
  rw [← leadsToDirectory_eq_true_iff, plain]
  simp

theorem not_tooLong {l : Location} {packed : Bool} (decided : leadsToDirectory w l = .ok packed) :
    ¬TooLong w l := by
  intro long
  rw [leadsToDirectory_eq_error_iff.mpr ⟨long, rfl⟩] at decided
  cases decided

/-- A call without directories changes nothing. It gives its locations back unless one of them is
too long. -/
theorem packWith_of_none (p : Packer) (runner : List Job → Action (List Location))
    (none : ∀ l ∈ locations, ¬LeadsToDirectory w l) :
    (∀ l ∈ locations, ¬TooLong w l) ∧
        (p.packWith runner locations).start w = (.ok (distinct locations), w) ∨
      ∃ l ∈ locations, TooLong w l ∧ (p.packWith runner locations).start w =
        (.error (.fault (.file .nameTooLong l.filePath.text)), w) := by
  cases marks : (distinct locations).mapM fun l => (leadsToDirectory w l).map ((l, ·)) with
  | error fault =>
    obtain ⟨l, member, refused⟩ := exists_error_of_mapM marks
    cases asked : leadsToDirectory w l with
    | ok packed => simp [asked, Except.map] at refused
    | error other =>
      rw [asked] at refused
      cases refused
      obtain ⟨long, rfl⟩ := leadsToDirectory_eq_error_iff.mp asked
      refine Or.inr ⟨l, mem_distinct.mp member, long, ?_⟩
      rw [packWith, Action.start_bind_ok (Action.start_get w)]
      dsimp only
      rw [marks, Action.start_bind]
      rfl
  | ok marked =>
    have decided := (marked_eq marks).1
    have plain : ∀ l ∈ locations, leadsToDirectory w l = .ok false := by
      intro l member
      have known := decided l (mem_distinct.mpr member)
      cases packed : isPacked w l with
      | false => rw [known, packed]
      | true =>
        rw [packed] at known
        exact absurd (leadsToDirectory_eq_true_iff.mp known) (none l member)
    have empty : (directoriesOf w locations).isEmpty = true := by
      rw [List.isEmpty_iff, List.eq_nil_iff_forall_not_mem]
      intro l member
      obtain ⟨inside, packed⟩ := mem_directoriesOf.mp member
      simp [isPacked, plain l inside, Except.toOption] at packed
    exact Or.inl ⟨fun l member => not_tooLong (plain l member),
      by rw [packWith_eq decided, if_pos empty]⟩

/-- **Packing touches nothing but its own temporary directory.** Whether a call succeeds or fails,
and in whatever order its jobs take their steps, every file, link and directory outside the
temporary directory that the call has made is as it was. A call none of whose locations is a
directory changes nothing at all. It gives back its locations exactly when none of them is too long
to be looked up, and is refused otherwise. -/
theorem packWith_frame (sound : w.files.Sound) (ending : '/' ∉ p.ending.shown.toList)
    (extension : '/' ∉ p.extension.shown.toList) (way : p.IsRunner runner)
    (locations : List Location) :
    p.Framed w ((p.packWith runner locations).start w).2 ∧
    ((∀ l ∈ locations, ¬LeadsToDirectory w l) →
      ((p.packWith runner locations).start w).2 = w ∧
      ((∃ members, ((p.packWith runner locations).start w).1 = .ok members ∧ members.Nodup ∧
          ∀ l, l ∈ members ↔ l ∈ locations) ↔ ∀ l ∈ locations, ¬TooLong w l) ∧
      ((∃ l ∈ locations, TooLong w l) → ∃ l ∈ locations, TooLong w l ∧
        ((p.packWith runner locations).start w).1 =
          .error (.fault (.file .nameTooLong l.filePath.text)))) := by
  refine ⟨framed_packWith sound ending extension way locations, fun none => ?_⟩
  obtain ⟨short, ended⟩ | ⟨l, member, long, ended⟩ := p.packWith_of_none runner none
  · rw [ended]
    refine ⟨rfl, ⟨fun _ => short, fun _ => ?_⟩, fun ⟨l, member, long⟩ => ?_⟩
    · exact ⟨_, rfl, nodup_distinct locations, fun l => mem_distinct⟩
    · exact absurd long (short l member)
  · rw [ended]
    refine ⟨rfl, ⟨?_, fun short => absurd long (short l member)⟩, fun _ => ⟨l, member, long, rfl⟩⟩
    rintro ⟨members, ⟨⟩, -⟩

end Call

/-- An archive whose target goes up from the temporary directory, and a location that nothing is
at. -/
theorem packWith_frame_up :
    let files : FileTree := ⟨[(["a"], .directory), (["a", "f"], .file (.bytes [65]) 946684800),
      (["tmp"], .directory)]⟩
    let w : Workspace := ⟨files, ⟨.root, []⟩, ⟨.root, ["tmp"]⟩, 946684800, 0, [], []⟩
    let p : Packer := { ending := .text "", extension := .text "" }
    let up : Location := ⟨"file:///a/.."⟩
    let gone : Location := ⟨"file:///b"⟩
    w.files.Sound ∧ '/' ∉ p.ending.shown.toList ∧ '/' ∉ p.extension.shown.toList ∧
      p.IsRunner p.runJobs ∧ LeadsToDirectory w up ∧ p.Framed w ((p.pack [up, gone]).start w).2 ∧
      ¬LeadsToDirectory w gone ∧ ¬TooLong w gone ∧ ((p.pack [gone]).start w).2 = w ∧
      ∃ members, ((p.pack [gone]).start w).1 = .ok members ∧ members.Nodup ∧
        ∀ l, l ∈ members ↔ l ∈ [gone] := by
  intro files w p up gone
  have sound : w.files.Sound := FileTree.sound_of_entries (by decide)
  have ending : '/' ∉ p.ending.shown.toList := by decide
  have leads : LeadsToDirectory w up := leadsToDirectory_eq_true_iff.mp (by cbv)
  have plain : leadsToDirectory w gone = .ok false := by cbv
  have none : ¬LeadsToDirectory w gone := not_leadsToDirectory plain
  have short : ¬TooLong w gone := not_tooLong plain
  obtain ⟨framed, -⟩ := packWith_frame sound ending ending (isRunner_runJobs p) [up, gone]
  obtain ⟨-, all⟩ := packWith_frame sound ending ending (isRunner_runJobs p) [gone]
  obtain ⟨unchanged, given, -⟩ := all (by simpa using none)
  exact ⟨sound, ending, ending, isRunner_runJobs p, leads, framed, none, short, unchanged,
    given.mpr (by simpa using short)⟩

/-! ## Names that are too long -/

/-- A location below the root whose name is too long. -/
theorem tooLong_of_name {w : Workspace} {name : String} (canonical : Path.Canonical ⟨.root, [name]⟩)
    (whole : (⟨.root, [name]⟩ : Path).Whole) (long : FileTree.nameLimit < name.utf8ByteSize) :
    TooLong w ⟨Location.fileUri ⟨.root, [name]⟩⟩ := by
  have named : Path.IsName name := canonical.normal name List.mem_cons_self
  have notUp : name ≠ ".." := fun up => canonical.plain (List.mem_singleton.mpr up.symm)
  refine ⟨Location.isLocal_fileUri rfl, ?_⟩
  rw [filePath_archive canonical whole, FileTree.status,
    FileTree.locate_names _ canonical.normal (List.cons_ne_nil _ _)]
  split
  · rfl
  · rw [FileTree.follow_cons_long rfl (by simp [named.1, named.2.1]) notUp (by simp) long]
    rfl

/-- A name of that many letters. -/
def letters (n : Nat) : String :=
  String.ofList (List.replicate n 'a')

theorem utf8ByteSize_letters (n : Nat) : (letters n).utf8ByteSize = n := by
  induction n with
  | zero => rfl
  | succ n ih =>
    have size : (String.ofList ['a']).utf8ByteSize = 1 := by decide
    rw [letters, List.replicate_succ, ← List.singleton_append, String.ofList_append,
      String.utf8ByteSize_append, size, ← letters, ih, Nat.add_comm]

theorem fileUri_letters (n : Nat) :
    Location.fileUri ⟨.root, [letters n]⟩ = "file:///" ++ letters n := by
  have text : (⟨.root, [letters n]⟩ : Path).text = "/" ++ letters n := rfl
  have shown : Uri.encode (letters n).toList = (letters n).toList := by
    refine Uri.encode_eq_self fun c member => ?_
    rw [letters, String.toList_ofList] at member
    rw [List.eq_of_mem_replicate member]
    decide
  have spelled : Uri.encode ("/" ++ letters n).toList = ("/" ++ letters n).toList := by
    rw [String.toList_append]
    exact (Uri.encode_slash _).trans (congrArg _ shown)
  rw [Location.fileUri, text, spelled, String.ofList_toList, ← String.append_assoc]
  rfl

/-- Nothing leads to a location with too many letters, and a call is refused all the same. -/
theorem pack_refuses_letters (p : Packer) (w : Workspace) {n : Nat}
    (long : FileTree.nameLimit < n) :
    ¬LeadsToDirectory w ⟨"file:///" ++ letters n⟩ ∧
      (p.pack [⟨"file:///" ++ letters n⟩]).start w =
        (.error (.fault (.file .nameTooLong ("/" ++ letters n))), w) := by
  have size : FileTree.nameLimit < (letters n).utf8ByteSize := by rwa [utf8ByteSize_letters]
  have all : ∀ c ∈ (letters n).toList, c = 'a' := by
    intro c member
    rw [letters, String.toList_ofList] at member
    exact List.eq_of_mem_replicate member
  have other : ∀ short : String, short.utf8ByteSize ≤ FileTree.nameLimit → letters n ≠ short := by
    rintro _ few rfl
    omega
  have canonical : Path.Canonical ⟨.root, [letters n]⟩ := by
    refine ⟨rfl, fun name member => ?_, fun up => ?_⟩
    · rw [List.mem_singleton.mp member]
      exact ⟨other "" (by decide), other "." (by decide),
        fun slash => absurd (all _ slash) (by decide)⟩
    · exact other ".." (by decide) (List.mem_singleton.mp up).symm
  have whole : (⟨.root, [letters n]⟩ : Path).Whole := by
    intro name member c inside
    rw [List.mem_singleton.mp member] at inside
    rw [all c inside]
    decide
  rw [← fileUri_letters]
  have tooLong := tooLong_of_name (w := w) canonical whole size
  have none : ∀ l ∈ [Location.mk (Location.fileUri ⟨.root, [letters n]⟩)],
      ¬LeadsToDirectory w l := by
    rintro l member ⟨-, place, leads⟩
    rw [List.mem_singleton.mp member, tooLong.2] at leads
    cases leads
  refine ⟨none _ List.mem_cons_self, ?_⟩
  obtain ⟨short, -⟩ | ⟨l, member, -, ended⟩ := p.packWith_of_none p.runJobs none
  · exact absurd tooLong (short _ List.mem_cons_self)
  · rw [List.mem_singleton.mp member, filePath_archive canonical whole] at ended
    exact ended

/-- Nothing is at the location, and the call is refused all the same: its name is too long by a
byte. -/
theorem pack_refuses_long_name :
    let name := String.ofList (List.replicate 256 'a')
    let w : Workspace := ⟨.empty, ⟨.root, []⟩, ⟨.root, ["tmp"]⟩, 0, 0, [], []⟩
    let l : Location := ⟨"file:///" ++ name⟩
    w.files.Sound ∧ ¬LeadsToDirectory w l ∧
      (({} : Packer).pack [l]).start w =
        (.error (.fault (.file .nameTooLong ("/" ++ name))), w) := by
  intro name w l
  exact ⟨FileTree.sound_of_entries (by simp [w, FileTree.empty]),
    pack_refuses_letters {} w (n := 256) (by decide)⟩

end Classpath.Packer
