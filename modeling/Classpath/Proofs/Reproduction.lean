import Classpath.Proofs.Packing.Again

/-! # Runs come to the same again

What a run comes to depends on the file tree and on sets: on the answers of the source, on the roots
and on the exclusions. With one directory packed after another, two runs both fail while they pack,
or they come to the same but for the number in the name of the temporary directory
(`Classpath.Resolver.run_again`).
-/

namespace Classpath

open Packer (isPacked IsArchive Packed SameSetting StandsAside FreshAt numbered)

/-! ## Notices -/

namespace Packer

variable {p : Packer} {w w' : Workspace} {journal : List Notice}

/-- The notices so far are not looked at. -/
theorem makeFresh_journal (root start : String) (tries : Nat) :
    (makeFresh root start tries).start { w with journal } =
      (((makeFresh root start tries).start w).1,
        { ((makeFresh root start tries).start w).2 with journal }) := by
  induction tries generalizing w with
  | zero => rfl
  | succ tries ih =>
    simp only [makeFresh, Action.start_bind, Action.start_get, Action.start_modify]
    split
    · rfl
    · exact ih (w := { w with serial := w.serial + 1 })
    · rfl

theorem makeTemporary_journal :
    (p.makeTemporary.start { w with journal }).1 = (p.makeTemporary.start w).1 := by
  simp only [makeTemporary, Action.start_bind, Action.start_get]
  cases p.temporaryStart with
  | error fault => rfl
  | ok start =>
    simp only [Action.start_bind, makeFresh_journal]
    rcases (makeFresh _ start _).start w with ⟨refusal | made, between⟩
    · rfl
    · dsimp only
      split <;> rfl

theorem StandsAside.of_journal {packed : Location → Prop} (aside : p.StandsAside w packed) :
    p.StandsAside { w with journal } packed := by
  intro temporary fresh after made found
  have first := congrArg Prod.fst made
  rw [makeTemporary_journal] at first
  have here : FreshAt w temporary fresh :=
    ⟨found.normal, found.some_name, found.apart, found.followed, found.absent⟩
  have there := aside temporary fresh (p.makeTemporary.start w).2 (Prod.ext first rfl) here
  exact ⟨there.below, there.outside, there.literal⟩

theorem SameSetting.of_journal {packed : Location → Prop} (setting : p.SameSetting w w' packed)
    (journal journal' : List Notice) :
    p.SameSetting { w with journal } { w' with journal := journal' } packed where
  single := setting.single
  same := ⟨setting.same.files, setting.same.workingDirectory, setting.same.temporaryDirectory⟩
  sound := setting.sound
  working := setting.working
  few := setting.few
  few' := setting.few'
  aside := setting.aside.of_journal
  aside' := setting.aside'.of_journal

end Packer

/-! ## What a run comes to -/

namespace Answers

variable (a : Answers) (request : Request)

/-- A run keeps the local locations that count and are not excluded. -/
def Keeps (l : Location) : Prop :=
  a.Found request.roots l ∧ ¬ l.Excluded request.exclusions ∧ l.scheme = Location.fileScheme

/-- A run that is asked to packs the directories among the locations that it keeps. -/
def Packs (w : Workspace) (l : Location) : Prop :=
  request.packDirectories = true ∧ a.Keeps request l ∧ isPacked w l = true

end Answers

/-- Requests that differ in order and repeats only. -/
structure Request.Alike (request request' : Request) : Prop where
  roots : ∀ root, root ∈ request.roots ↔ root ∈ request'.roots
  exclusions : ∀ pattern, pattern ∈ request.exclusions ↔ pattern ∈ request'.exclusions
  packDirectories : request.packDirectories = request'.packDirectories

/-- What a run comes to, seen from its temporary directory: what it keeps and does not pack, and the
archives that it has made there. -/
structure Outcome.SeenFrom (o : Outcome) (a : Answers) (request : Request) (w after : Workspace)
    (temporary : Path) (archives : List (String × List Entry)) : Prop where
  packed : Packed w (fun l => a.Keeps request l ∧ ¬ a.Packs request w l) temporary archives
    o.locations after
  archivesCreated : ∀ l, l ∈ o.archivesCreated ↔
    IsArchive w temporary archives l ∧ ¬ a.Keeps request l
  createdApart : o.archivesCreated.Nodup
  createdSorted : o.archivesCreated.Pairwise fun l l' => Text.le l.uri l'.uri = true

/-- What a run that packs tells of a resolution. -/
def Resolution.packedOutcome (resolution : Resolution) (locations : List Location) : Outcome :=
  { resolution.outcome with
    locations
    archivesCreated :=
      Location.sort (locations.filter fun l => !resolution.selection.kept.contains l) }

section Outcome

variable {a : Answers} {request : Request} {w after : Workspace} {temporary : Path}
  {resolution : Resolution}

theorem seenFrom_outcome (unpacked : request.packDirectories = false)
    (keeps : ∀ l, l ∈ resolution.selection.kept ↔ a.Keeps request l)
    (apart : resolution.selection.kept.Nodup) :
    resolution.outcome.SeenFrom a request w after temporary [] where
  packed := by
    refine ⟨apart, fun l => ?_, fun archive member => ?_⟩
    · simp [Resolution.outcome, keeps, Answers.Packs, IsArchive, unpacked]
    · cases member
  archivesCreated l := by simp [Resolution.outcome, IsArchive]
  createdApart := List.nodup_nil
  createdSorted := .nil

theorem seenFrom_packedOutcome {locations : List Location} {archives : List (String × List Entry)}
    (packs : request.packDirectories = true)
    (keeps : ∀ l, l ∈ resolution.selection.kept ↔ a.Keeps request l)
    (packed : Packed w (fun l => a.Keeps request l ∧ isPacked w l = false) temporary archives
      locations after) :
    (resolution.packedOutcome locations).SeenFrom a request w after temporary archives where
  packed := by
    refine ⟨packed.apart, fun l => ?_, packed.stored⟩
    rw [Resolution.packedOutcome, packed.locations]
    refine or_congr (and_congr_right fun kept => ?_) Iff.rfl
    rw [Answers.Packs, and_iff_right packs, and_iff_right kept, Bool.not_eq_true]
  archivesCreated l := by
    have other : (!resolution.selection.kept.contains l) = true ↔ ¬ a.Keeps request l := by
      simp [keeps]
    rw [Resolution.packedOutcome, Location.sort, (Text.perm_sortOn _ _).mem_iff, List.mem_filter,
      packed.locations, other]
    exact and_congr_left fun other => or_iff_right fun stays => other stays.1
  createdApart := ((Text.perm_sortOn _ _).nodup_iff).mpr (packed.apart.filter _)
  createdSorted := Text.pairwise_sortOn _ _

end Outcome

/-- Two outcomes are the same but for the number of the temporary directory. -/
structure Outcome.Agrees (o o' : Outcome) (a : Answers) (request : Request)
    (w after after' : Workspace) : Prop where
  seen : ∃ archives root start n n', o.SeenFrom a request w after (numbered root start n) archives ∧
    o'.SeenFrom a request w after' (numbered root start n') archives
  excluded : o.excluded.Perm o'.excluded
  visitedClasses : o.visitedClasses = o'.visitedClasses
  skippedRoots : ∀ name, name ∈ o.skippedRoots ↔ name ∈ o'.skippedRoots

namespace Resolver

/-- A run fails while it packs what it keeps. -/
def FailsPacking (r : Resolver) (s : Source) (request : Request) (w : Workspace)
    (keeps : Location → Prop) : Prop :=
  ∃ kept journal refusal after, (∀ l, l ∈ kept ↔ keeps l) ∧
    (r.packer.pack kept).start { w with journal } = (.error refusal, after) ∧
    (r.run s request).start w = (.error refusal, after)

/-- A run that packs fails when packing does, and else tells of what packing has given back. -/
theorem exists_start_packed (r : Resolver) {s : Source} {w : Workspace} {g : Graph}
    (built : Graph.ofSource w.workingDirectory s r.sourceName = .ok g) (request : Request)
    (packs : request.packDirectories = true) :
    let resolution := Resolution.of g (request.roots.map .text) request.exclusions
    ∃ journal journal', (r.run s request).start w =
      match (r.packer.pack resolution.selection.kept).start { w with journal } with
      | (.error refusal, after) => (.error refusal, after)
      | (.ok locations, between) =>
        (.ok (resolution.packedOutcome locations), { between with journal := journal' }) := by
  intro resolution
  obtain ⟨notices, ran⟩ := exists_start_run r built request
  rcases packed : (r.packer.pack resolution.selection.kept).start
    { w with journal := w.journal ++ notices } with ⟨refusal | locations, between⟩
  · refine ⟨w.journal ++ notices, [], ran.trans ?_⟩
    rw [packed, conclude, if_pos packs, Action.start_bind, packed]
  · refine ⟨w.journal ++ notices, between.journal ++ [.resolved locations.length
      request.roots.length resolution.closure.visited.length], ran.trans ?_⟩
    rw [packed, conclude, if_pos packs, Action.start_bind_ok packed,
      Action.start_bind_ok (Action.start_report _ _), if_pos packs]
    rfl

/-- **Runs come to the same again.** -/
theorem run_again {r r' : Resolver} {s s' : Source} {a a' : Answers} {w w' : Workspace}
    {request request' : Request} (packer : r.packer = r'.packer)
    (setting : r.packer.SameSetting w w' (a.Packs request w))
    (gives : s.Gives w.workingDirectory a) (gives' : s'.Gives w'.workingDirectory a')
    (alike : a.Alike a') (asked : request.Alike request') :
    (request.packDirectories = true ∧ r.FailsPacking s request w (a.Keeps request) ∧
      r'.FailsPacking s' request' w' (a.Keeps request)) ∨
    ∃ o o' after after', (r.run s request).start w = (.ok o, after) ∧
      (r'.run s' request').start w' = (.ok o', after') ∧ o.Agrees o' a request w after after' := by
  obtain ⟨g, built, shows⟩ := Graph.exists_ofSource gives r.sourceName
  obtain ⟨g', built', shows'⟩ := Graph.exists_ofSource gives' r'.sourceName
  have agrees := shows.agrees shows' alike asked.roots asked.exclusions
  have keeps : ∀ l, l ∈ (Resolution.of g (request.roots.map .text)
      request.exclusions).selection.kept ↔ a.Keeps request l := fun l => by
    rw [Resolution.of, Selection.mem_kept_iff, shows.mem_locations_iff, Answers.Keeps]
  have keeps' := fun l => agrees.kept.mem_iff.symm.trans (keeps l)
  cases packs : request.packDirectories with
  | false =>
    obtain ⟨journal, ran⟩ := exists_start_unpacked r built request packs
    obtain ⟨journal', ran'⟩ :=
      exists_start_unpacked r' built' request' (asked.packDirectories.symm.trans packs)
    exact .inr ⟨_, _, _, _, ran, ran', ⟨[], "", "", 0, 0,
      seenFrom_outcome packs keeps Selection.nodup_kept,
      seenFrom_outcome packs keeps' Selection.nodup_kept⟩, agrees.excluded, agrees.visited,
      agrees.skipped⟩
  | true =>
    obtain ⟨journal, last, ran⟩ := exists_start_packed r built request packs
    obtain ⟨journal', last', ran'⟩ :=
      exists_start_packed r' built' request' (asked.packDirectories.symm.trans packs)
    rw [← packer] at ran'
    -- Packing is told of what this run keeps, and what counts as packed is told of the answers.
    have chosen : a.Packs request w = fun l => l ∈ (Resolution.of g (request.roots.map .text)
        request.exclusions).selection.kept ∧ isPacked w l = true := by
      funext l
      rw [Answers.Packs, keeps, eq_true packs, true_and]
    rw [chosen] at setting
    have same := Packer.pack_again (setting.of_journal journal journal')
      fun l => agrees.kept.mem_iff
    rcases same with ⟨refusal, refusal', after, after', ended, ended'⟩ |
      ⟨archives, root, start, n, n', locations, locations', after, after', ended, ended', packed,
        packed'⟩
    · rw [ended] at ran
      rw [ended'] at ran'
      exact .inl ⟨rfl, ⟨_, journal, refusal, after, keeps, ended, ran⟩,
        ⟨_, journal', refusal', after', keeps', packer ▸ ended', ran'⟩⟩
    · rw [ended] at ran
      rw [ended'] at ran'
      refine .inr ⟨_, _, _, _, ran, ran', ⟨archives, root, start, n, n', ?_, ?_⟩,
        agrees.excluded, agrees.visited, agrees.skipped⟩
      · refine seenFrom_packedOutcome packs keeps ⟨packed.apart, fun l => ?_, packed.stored⟩
        rw [packed.locations, keeps]
        rfl
      · refine seenFrom_packedOutcome packs keeps' ⟨packed'.apart, fun l => ?_, packed'.stored⟩
        rw [packed'.locations, keeps]
        rfl

/-- A directory, and sources that enumerate the classes in different orders. -/
theorem run_again_shuffled :
    let files : FileTree := ⟨[(["b"], .directory), (["tmp"], .directory)]⟩
    let w : Workspace := ⟨files, ⟨.root, []⟩, ⟨.root, ["tmp"]⟩, 946684800, 0, [], []⟩
    let w' : Workspace := { w with serial := 5 }
    let m : Maps := ⟨[(.text "A", [.text "B", .text "C"])], [(.text "B", ⟨"file:///b"⟩)]⟩
    let m' : Maps := ⟨[(.text "C", []), (.text "A", [.text "C", .text "B", .text "C"])],
      [(.text "B", ⟨"file:///b"⟩)]⟩
    let r : Resolver := { packer := { temporaryName := .text "" } }
    let request : Request := ⟨["A"], ["q"], true⟩
    let request' : Request := ⟨["A", "A"], ["q", "q"], true⟩
    r.packer.SameSetting w w' (m.answers.Packs request w) ∧
      m.toSource.Gives w.workingDirectory m.answers ∧
      m'.toSource.Gives w'.workingDirectory m'.answers ∧ m.answers.Alike m'.answers ∧
      request.Alike request' ∧
      ((request.packDirectories = true ∧ r.FailsPacking m.toSource request w
          (m.answers.Keeps request) ∧
          r.FailsPacking m'.toSource request' w' (m.answers.Keeps request)) ∨
        ∃ o o' after after', (r.run m.toSource request).start w = (.ok o, after) ∧
          (r.run m'.toSource request').start w' = (.ok o', after') ∧
          o.Agrees o' m.answers request w after after') := by
  intro files w w' m m' r request request'
  have sound : w.files.Sound := FileTree.sound_of_entries (by decide +kernel)
  have textual : m.Textual := ⟨by simp [m], by simp [m, Name.Textual], by simp [m]⟩
  have textual' : m'.Textual := ⟨by simp [m'], by simp [m', Name.Textual], by simp [m']⟩
  have gives := Maps.gives_toSource textual w.workingDirectory
  have gives' := Maps.gives_toSource textual' w'.workingDirectory
  have classes : m.answers.classes = ["A", "B", "C"] := by cbv
  have classes' : m'.answers.classes = ["C", "A", "B"] := by cbv
  have dependencies : ["A", "B", "C"].map m.answers.dependencies = [["B", "C"], [], []] := by cbv
  have dependencies' : ["A", "B", "C"].map m'.answers.dependencies =
      [["C", "B", "C"], [], []] := by cbv
  have location : ["A", "B", "C"].map m.answers.location =
      ["A", "B", "C"].map m'.answers.location := by cbv
  simp only [List.map_cons, List.map_nil, List.cons.injEq, and_true]
    at dependencies dependencies' location
  have alike : m.answers.Alike m'.answers := by
    refine ⟨fun name => ?_, ?_, ?_⟩
    · rw [classes, classes']
      simp only [List.mem_cons, List.not_mem_nil, or_false]
      tauto
    · rw [classes]
      simp [dependencies, dependencies', or_comm]
    · rw [classes]
      simpa using location
  have asked : request.Alike request' :=
    ⟨by simp [request, request'], by simp [request, request'], rfl⟩
  have only : ∀ l, m.answers.Packs request w l → l = ⟨"file:///b"⟩ := by
    rintro l ⟨-, ⟨⟨name, -, -, found⟩, -⟩, -⟩
    obtain ⟨before, later, split, -⟩ := List.lookup_eq_some_iff.mp found
    have member : l ∈ m.locations.map Prod.snd :=
      split ▸ List.mem_map.mpr ⟨_, List.mem_append_right _ List.mem_cons_self, rfl⟩
    exact List.mem_singleton.mp member
  have status : w.files.status w.workingDirectory (Location.mk "file:///b").filePath.text =
      .ok (["b"], .directory) := by cbv
  have links : (w.files.nodes.all fun entry => (w.files.missingAt? ⟨.root, []⟩
      ("/" ++ String.intercalate "/" entry.1)).isNone) = true := by cbv
  have aside : ∀ u : Workspace, u.files = w.files → u.workingDirectory = w.workingDirectory →
      ∀ name, (r.packer.makeTemporary.start u).1.toOption = some ⟨.root, ["tmp", name]⟩ →
      w.files.follow .name FileTree.linkLimit [] ["tmp", name] = .ok ["tmp", name] →
      r.packer.StandsAside u (m.answers.Packs request w) := by
    intro u sameFiles sameDirectory name made followed temporary fresh after ran found
    rw [ran] at made
    cases made
    have place := found.followed
    rw [sameFiles] at place
    cases place.symm.trans followed
    refine .of_absolute rfl (fun l packed => ?_) fun l packed place stands => ?_
    · rw [only l packed]
      decide +kernel
    · rw [only l packed, sameFiles, sameDirectory, status] at stands
      cases stands
      rw [sameFiles]
      exact ⟨by simp, FileTree.not_leads_of_all (by simp) links⟩
  have setting : r.packer.SameSetting w w' (m.answers.Packs request w) :=
    ⟨rfl, ⟨rfl, rfl, rfl⟩, sound, rfl, by simp [Workspace.Countable, w, files],
      by simp [Workspace.Countable, w', w, files],
      aside w rfl rfl "00000001" (by cbv) (by cbv),
      aside w' rfl rfl "00000006" (by cbv) (by cbv)⟩
  exact ⟨setting, gives, gives', alike, asked, run_again rfl setting gives gives' alike asked⟩

end Resolver

end Classpath
