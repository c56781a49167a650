import Classpath.Proofs.Packing.Contents
import Classpath.Proofs.Packing.Frame
import Classpath.Proofs.Packing.Session

/-! # Removing the temporary directories of a session

A removal that succeeds takes away the temporary directories made since the last one that are to be
removed, with all that is in them, and nothing else (`Classpath.Session.node?_clean`). It succeeds
in every order when no packer adds a slash to a name and no temporary directory is made on the way
through another (`Classpath.Session.Reachable.run`, `Classpath.Session.Reachable.removes`). Both
together say what a whole session leaves behind (`Classpath.Session.cleans_exactly`).
-/

namespace Classpath

open FileTree

variable {t t' : FileTree} {workingDirectory : Path}

/-! ## One directory -/

namespace Temporary

/-- The path of a temporary directory leads to the directory. -/
structure Leads (T : Temporary) (workingDirectory : Path) (t : FileTree) : Prop where
  located : t.locate .name workingDirectory T.path.text = .ok T.place
  stands : t.node? T.place = some .directory

variable {T : Temporary}

theorem Leads.within (leads : T.Leads workingDirectory t) (within : t.Within t') :
    T.Leads workingDirectory t' where
  located := within.locate (by rw [within _ _ leads.stands, leads.stands]) leads.located
  stands := within _ _ leads.stands

/-- What is found without each of two directories is found without both. -/
theorem Leads.clear {gone gone' : Place} (some_name : gone ≠ []) (some_name' : gone' ≠ [])
    (leads : T.Leads workingDirectory (t.clear gone))
    (leads' : T.Leads workingDirectory (t.clear gone')) :
    T.Leads workingDirectory ((t.clear gone).clear gone') where
  located := locate_clear_clear some_name some_name' (by simp [leads.stands])
    (by simp [leads'.stands]) leads.located leads'.located
  stands := (node?_clear_eq_some_iff some_name').mpr
    ⟨((node?_clear_eq_some_iff some_name').mp leads'.stands).1, leads.stands⟩

end Temporary

namespace Session

/-! ## A removal that succeeds -/

/-- Each of some temporary directories is found under its path when its turn comes to be removed. -/
def Removable (workingDirectory : Path) : FileTree → List Temporary → Prop
  | _, [] => True
  | t, T :: rest =>
    T.Leads workingDirectory t ∧ Removable workingDirectory (t.clear T.place) rest

/-- A removal in some order succeeds: it comes to each temporary directory that is to be removed,
and finds it. -/
def Removes (s : Session) (arrange : List Path → List Path) : Prop :=
  ∃ order, order.Perm s.pending ∧ order.map Temporary.path = arrange s.workspace.registered ∧
    Removable s.workspace.workingDirectory s.workspace.files order

theorem Removable.foldl_removeTree {order : List Temporary}
    (some_names : ∀ T ∈ order, T.place ≠ []) (removable : Removable workingDirectory t order) :
    (order.map Temporary.path).foldl
        (fun files path => files.removeTree workingDirectory path) t =
      (order.map Temporary.place).foldl FileTree.clear t := by
  induction order generalizing t with
  | nil => rfl
  | cons T rest ih =>
    obtain ⟨leads, later⟩ := removable
    obtain ⟨some_name, others⟩ := List.forall_mem_cons.mp some_names
    rw [List.map_cons, List.foldl_cons, removeTree_eq_clear some_name leads.located leads.stands,
      ih others later]
    rfl

section Clean

variable {s : Session}

theorem mem_pending {T : Temporary} : T ∈ s.pending ↔ T ∈ s.recent ∧ T.isRemoved = true := by
  rw [pending, List.mem_filter]

theorem Exact.place_ne_nil (exact : s.Exact) {T : Temporary} (member : T ∈ s.pending) :
    T.place ≠ [] := by
  obtain ⟨n, -, top, middle, place⟩ := exact.numbered T (exact.among (mem_pending.mp member).1)
  simp [place]

/-- A removal that succeeds leaves nothing of the directories that are to be removed, and it changes
nothing else. -/
theorem node?_clean (exact : s.Exact) {arrange : List Path → List Path}
    (removes : s.Removes arrange) (place : Place) :
    (s.next (.clean arrange)).workspace.files.node? place =
      if ∃ T ∈ s.pending, T.place <+: place then none else s.workspace.files.node? place := by
  obtain ⟨order, perm, paths, removable⟩ := removes
  have some_names : ∀ T ∈ order, T.place ≠ [] := fun T member =>
    exact.place_ne_nil (perm.mem_iff.mp member)
  have below : [] ∉ order.map Temporary.place := by
    intro member
    obtain ⟨T, inside, none⟩ := List.mem_map.mp member
    exact some_names T inside none
  rw [Session.next, Workspace.removeRegistered]
  dsimp only
  rw [← paths, removable.foldl_removeTree some_names, node?_foldl_clear below]
  simp only [List.mem_map, exists_exists_and_eq_and, perm.mem_iff]

end Clean

/-! ## Directories that stay within reach -/

/-- The temporary directories that are to be removed are found under their paths, also when one of
the others is gone. -/
structure Reachable (s : Session) : Prop where
  leads : ∀ T ∈ s.pending, T.Leads s.workspace.workingDirectory s.workspace.files
  apart : s.pending.Pairwise fun S T =>
    S.Leads s.workspace.workingDirectory (s.workspace.files.clear T.place) ∧
      T.Leads s.workspace.workingDirectory (s.workspace.files.clear S.place)

theorem reachable_start (w : Workspace) : (start w).Reachable where
  leads _ member := nomatch member
  apart := List.Pairwise.nil

/-- Directories each of which is found without each other are removable one after another. -/
theorem removable_of_pairwise {order : List Temporary} (some_names : ∀ T ∈ order, T.place ≠ [])
    (leads : ∀ T ∈ order, T.Leads workingDirectory t)
    (apart : order.Pairwise fun S T => S.Leads workingDirectory (t.clear T.place) ∧
      T.Leads workingDirectory (t.clear S.place)) : Removable workingDirectory t order := by
  induction order generalizing t with
  | nil => trivial
  | cons T rest ih =>
    obtain ⟨first, others⟩ := List.pairwise_cons.mp apart
    obtain ⟨some_name, some_names⟩ := List.forall_mem_cons.mp some_names
    refine ⟨leads T List.mem_cons_self, ih some_names (fun S member => (first S member).2) ?_⟩
    refine others.imp_of_mem fun {S U} inside inside' each => ⟨?_, ?_⟩
    · exact (first S inside).2.clear some_name (some_names U inside') each.1
    · exact (first U inside').2.clear some_name (some_names S inside) each.2

section Reach

variable {s : Session}

theorem nodup_paths (exact : s.Exact) (reachable : s.Reachable) :
    (s.pending.map Temporary.path).Nodup := by
  have places : (s.pending.map Temporary.place).Nodup :=
    exact.apart.sublist (List.filter_sublist.map _)
  rw [List.Nodup, List.pairwise_map] at places ⊢
  refine places.imp_of_mem fun {S T} inside inside' apart same => apart ?_
  have located := (reachable.leads S inside).located
  rw [same, (reachable.leads T inside').located] at located
  exact (Except.ok.inj located).symm

/-- An order of the paths of some directories is the order of the directories. -/
theorem exists_order {paths : List Path} {directories : List Temporary}
    (perm : paths.Perm (directories.map Temporary.path)) :
    ∃ order : List Temporary, order.Perm directories ∧ order.map Temporary.path = paths := by
  have each : List.Forall₂ (fun path T => path = Temporary.path T)
      (directories.map Temporary.path) directories := by
    rw [List.forall₂_map_left_iff, List.forall₂_same]
    exact fun _ _ => rfl
  obtain ⟨order, same, perm⟩ := List.perm_comp_forall₂ perm each
  refine ⟨order, perm, ?_⟩
  have listed := List.forall₂_map_right_iff.mpr same
  exact (List.forall₂_eq_eq_eq ▸ listed : paths = _).symm

/-- The removal of directories within reach succeeds in every order. -/
theorem Reachable.removes (reachable : s.Reachable) (exact : s.Exact)
    {arrange : List Path → List Path} (all : ∀ paths, (arrange paths).Perm paths) :
    s.Removes arrange := by
  have registered : s.workspace.registered = s.pending.map Temporary.path := by
    rw [exact.registered, distinct_of_nodup (nodup_paths exact reachable)]
  obtain ⟨order, perm, paths⟩ := exists_order ((all _).trans (.of_eq registered))
  refine ⟨order, perm, paths, removable_of_pairwise ?_ ?_ ?_⟩
  · exact fun T member => exact.place_ne_nil (perm.mem_iff.mp member)
  · exact fun T member => reachable.leads T (perm.mem_iff.mp member)
  · exact (perm.pairwise_iff fun each => each.symm).mpr reachable.apart

/-! ## Calls that keep the others within reach -/

/-- Nothing that a packer adds to a name has a slash, so that archives stay in their temporary
directory. -/
def Step.Plain : Step → Prop
  | .pack p _ _ => '/' ∉ p.ending.shown.toList ∧ '/' ∉ p.extension.shown.toList
  | .clean _ => True

/-- A temporary directory that is to be removed is not made in another one or on a way through it:
its path leads to its place in the tree without the other one, too. -/
def Avoids (s : Session) : Step → Prop
  | .pack p _ locations => ∀ T, p.makes? s.workspace locations = some T → T.isRemoved = true →
      ∀ S ∈ s.pending, (s.workspace.files.clear S.place).locate .name s.workspace.workingDirectory
        T.path.text = .ok T.place
  | .clean _ => True

section Began

variable {w after : Workspace} {S T : Temporary} {serial : Nat}
  (began : Packer.Began w T serial after) (agree : w.files.Agree T.place after.files)
  (sound : w.files.Sound)

include began agree sound

/-- A new temporary directory is found under its path when the jobs have been run. -/
theorem leads_of_began : T.Leads w.workingDirectory after.files := by
  have stands := (directory_of_began began).mpr (.inr rfl)
  have grown := (agree.within sound began.found.absent).put began.place_ne_nil stands
  refine Temporary.Leads.within ⟨?_, ?_⟩ grown
  · exact Packer.locate_put_directory began.located began.found.absent
  · exact node?_put_self _ _ began.place_ne_nil

/-- What was found before is found without the new directory. -/
theorem leads_clear_of_began (leads : S.Leads w.workingDirectory w.files) :
    S.Leads w.workingDirectory (after.files.clear T.place) := by
  refine leads.within fun place node stands => ?_
  refine (node?_clear_eq_some_iff began.place_ne_nil).mpr ⟨fun below => ?_, ?_⟩
  · cases (sound.absent_below began.found.absent below).symm.trans stands
  · exact agree.within sound began.found.absent _ _ stands

/-- A new temporary directory that is made on no way through another one is found without it. -/
theorem leads_clear_of_avoids (some_name : S.place ≠ [])
    (stands : w.files.node? S.place = some .directory)
    (located : (w.files.clear S.place).locate .name w.workingDirectory T.path.text = .ok T.place) :
    T.Leads w.workingDirectory (after.files.clear S.place) := by
  have absent : (w.files.clear S.place).node? T.place = none := by
    rw [node?_clear some_name, began.found.absent, ite_self]
  have above : (w.files.clear S.place).node? T.place.dropLast = some .directory := by
    apply directory_of_follow (sound.clear some_name) (locate_eq_ok_iff.mp located).2.2 _ absent
    rw [directory_of_locate located]
    simp
  -- The directory above the new one is left, so that the new one is not below the other.
  have outside : ¬ S.place <+: T.place := by
    obtain ⟨top, middle, place⟩ := began.numbered
    rw [place, List.dropLast_concat] at above
    rw [place]
    refine not_prefix_concat ((node?_clear_eq_some_iff some_name).mp above).1 fun same => ?_
    rw [← same, ← place, began.found.absent] at stands
    cases stands
  have there : (after.files.clear S.place).node? T.place = some .directory :=
    (node?_clear_eq_some_iff some_name).mpr
      ⟨outside, (directory_of_began began).mpr (.inr rfl)⟩
  have grown := ((agree.within sound began.found.absent).clear some_name).put began.place_ne_nil
    there
  refine Temporary.Leads.within ⟨?_, ?_⟩ grown
  · exact Packer.locate_put_directory located absent
  · exact node?_put_self _ _ began.place_ne_nil

end Began

/-- A call whose packer adds no slash to a name changes nothing outside the temporary directory that
it makes. -/
theorem agree_of_began {p : Packer} {w : Workspace} {T : Temporary} {serial : Nat}
    {runner : List Packer.Job → Action (List Location)} {locations : List Location}
    (sound : w.files.Sound) (ending : '/' ∉ p.ending.shown.toList)
    (extension : '/' ∉ p.extension.shown.toList) (way : p.IsRunner runner)
    (began : Packer.Began w T serial ((p.packWith runner locations).start w).2) :
    w.files.Agree T.place ((p.packWith runner locations).start w).2.files := by
  rcases Packer.framed_packWith sound ending extension way locations with
    same | ⟨temporary, fresh, between, -, absent, -, directory, agree⟩
  · have stands := (directory_of_began began).mpr (.inr rfl)
    rw [same, began.found.absent] at stands
    cases stands
  · rcases (directory_of_began began).mp directory with before | here
    · cases absent.symm.trans before
    · exact here ▸ agree

/-- A call keeps the temporary directories within reach. -/
theorem Reachable.began (reachable : s.Reachable) (exact : s.Exact) {T : Temporary} {serial : Nat}
    {after : Workspace} (began : Packer.Began s.workspace T serial after)
    (agree : s.workspace.files.Agree T.place after.files)
    (avoids : T.isRemoved = true → ∀ S ∈ s.pending, (s.workspace.files.clear S.place).locate .name
      s.workspace.workingDirectory T.path.text = .ok T.place) :
    (⟨after, s.made ++ [T], s.recent ++ [T]⟩ : Session).Reachable := by
  have working : after.workingDirectory = s.workspace.workingDirectory :=
    began.same.workingDirectory_eq
  have grown := agree.within exact.sound began.found.absent
  have kept : s.pending.Pairwise fun S U =>
      S.Leads s.workspace.workingDirectory (after.files.clear U.place) ∧
        U.Leads s.workspace.workingDirectory (after.files.clear S.place) :=
    reachable.apart.imp_of_mem fun {S U} inside inside' each =>
      ⟨each.1.within (grown.clear (exact.place_ne_nil inside')),
        each.2.within (grown.clear (exact.place_ne_nil inside))⟩
  have before : ∀ S ∈ s.pending, S.Leads s.workspace.workingDirectory after.files :=
    fun S member => (reachable.leads S member).within grown
  have new := leads_of_began began agree exact.sound
  cases removed : T.isRemoved with
  | false =>
    have pending : Session.pending ⟨after, s.made ++ [T], s.recent ++ [T]⟩ = s.pending := by
      simp [Session.pending, List.filter_append, removed]
    constructor <;> rw [pending] <;> dsimp only <;> rw [working]
    · exact before
    · exact kept
  | true =>
    have pending : Session.pending ⟨after, s.made ++ [T], s.recent ++ [T]⟩ = s.pending ++ [T] := by
      simp [Session.pending, List.filter_append, removed]
    constructor <;> rw [pending] <;> dsimp only <;> rw [working]
    · intro S member
      rcases List.mem_append.mp member with old | own
      · exact before S old
      · rwa [List.mem_singleton.mp own]
    · refine List.pairwise_append.mpr ⟨kept, List.pairwise_singleton _ _, fun S old U own => ?_⟩
      rw [List.mem_singleton.mp own]
      have leads := reachable.leads S old
      exact ⟨leads_clear_of_began began agree exact.sound leads,
        leads_clear_of_avoids began agree exact.sound (exact.place_ne_nil old) leads.stands
          (avoids removed S old)⟩

/-- Each step of a packer that adds no slash keeps the temporary directories within reach. -/
theorem Reachable.next (reachable : s.Reachable) (exact : s.Exact) {step : Step}
    (runs : step.Runs) (plain : step.Plain) (avoids : s.Avoids step) :
    (s.next step).Reachable := by
  cases step with
  | clean arrange => exact ⟨fun _ member => (List.not_mem_nil member).elim, List.Pairwise.nil⟩
  | pack p runner locations =>
    rcases Packer.packWith_cases exact.sound runs locations with
      ⟨none, serial, -, same⟩ | ⟨T, serial, makes, -, began⟩
    · simp only [Session.next, none, same, Option.toList_none, List.append_nil]
      exact ⟨reachable.leads, reachable.apart⟩
    · simp only [Session.next, makes, Option.toList_some]
      exact reachable.began exact began
        (agree_of_began exact.sound plain.1 plain.2 runs began) (avoids T makes)

/-- So the temporary directories stay within reach. -/
theorem Reachable.run (reachable : s.Reachable) (exact : s.Exact) {steps : List Step}
    (runs : ∀ step ∈ steps, step.Runs) (plain : ∀ step ∈ steps, step.Plain)
    (avoids : ∀ front step back, steps = front ++ step :: back → (s.run front).Avoids step) :
    (s.run steps).Reachable := by
  induction steps generalizing s with
  | nil => exact reachable
  | cons step rest ih =>
    have first := runs step List.mem_cons_self
    exact ih (reachable.next exact first (plain step List.mem_cons_self) (avoids [] step rest rfl))
      (exact.next first) (fun other member => runs other (List.mem_cons_of_mem _ member))
      (fun other member => plain other (List.mem_cons_of_mem _ member))
      fun front other back split => avoids (step :: front) other back (by rw [split]; rfl)

end Reach

/-! ## Whole sessions -/

/-- How the temporary directories stand at a moment of a session. -/
structure Tidy (s : Session) : Prop where
  /-- Just those are registered that have been made since the last removal and are to be removed. -/
  registered : s.workspace.registered = distinct (s.pending.map Temporary.path)
  /-- Those that have been made since the last removal all stand, each at a place of its own. -/
  standing : ∀ T ∈ s.recent, s.workspace.files.node? T.place = some .directory
  apart : (s.recent.map Temporary.place).Nodup
  /-- With numbers of at most eight digits no two ever made have shared a place. -/
  unshared : s.workspace.serial < 10 ^ 8 → (s.made.map Temporary.place).Nodup
  /-- Another call makes its temporary directory where nothing stood. -/
  fresh : ∀ (p : Packer) (locations : List Location) (T : Temporary),
    p.makes? s.workspace locations = some T → s.workspace.files.node? T.place = none
  /-- Whatever becomes of it, no other directory comes or goes. -/
  own : ∀ (p : Packer) (runner : List Packer.Job → Action (List Location))
    (locations : List Location), p.IsRunner runner → ∀ place,
      (s.next (.pack p runner locations)).workspace.files.node? place = some .directory ↔
        s.workspace.files.node? place = some .directory ∨
          ∃ T, p.makes? s.workspace locations = some T ∧ place = T.place
  /-- A removal that succeeds, in whatever order, takes away what is at the places of those that are
  registered and below, and nothing else. -/
  cleaned : ∀ arrange, s.Removes arrange → ∀ place,
    (s.next (.clean arrange)).workspace.files.node? place =
      if ∃ T ∈ s.pending, T.place <+: place then none else s.workspace.files.node? place

theorem Exact.tidy {s : Session} (exact : s.Exact) : s.Tidy where
  registered := exact.registered
  standing := exact.standing
  apart := exact.apart
  unshared := exact.unshared
  fresh p locations T makes := by
    rcases Packer.packWith_cases exact.sound (Packer.isRunner_runJobs p) locations with
      ⟨none, -⟩ | ⟨T', serial, makes', -, began⟩
    · cases none.symm.trans makes
    · cases makes'.symm.trans makes
      exact began.found.absent
  own p runner locations way place := by
    rcases Packer.packWith_cases exact.sound way locations with
      ⟨none, serial, -, same⟩ | ⟨T, serial, makes, -, began⟩
    · simp [Session.next, none, same]
    · simp only [Session.next, directory_of_began began, makes, Option.some.injEq,
        exists_eq_left']
  cleaned _ removes place := node?_clean exact removes place

/-- **Temporary directories are removed exactly.** In every session of calls that succeed or fail and
of removals in whatever order, at each moment just those temporary directories are registered that
have been made since the last removal and are to be removed, no two calls share one, and a removal
that succeeds takes them away with all that is in them, and nothing else. It does succeed, in every
order, when no packer adds a slash to a name and none that is to be removed is made in another one
or on a way through it. -/
theorem cleans_exactly {w : Workspace} (sound : w.files.Sound) (none : w.registered = [])
    {steps : List Step} (runs : ∀ step ∈ steps, step.Runs) :
    ((start w).run steps).Tidy ∧
    ((∀ step ∈ steps, step.Plain) →
      (∀ front step back, steps = front ++ step :: back → ((start w).run front).Avoids step) →
      ∀ arrange : List Path → List Path, (∀ paths, (arrange paths).Perm paths) →
        ((start w).run steps).Removes arrange) := by
  have exact := exact_start sound none
  refine ⟨(exact.run runs).tidy, fun plain avoids arrange all => ?_⟩
  exact ((reachable_start w).run exact runs plain avoids).removes (exact.run runs) all

/-- Two calls after each of which a temporary directory is to be removed. -/
theorem cleans_exactly_emptyDirectory :
    let call : Step := .pack Packer.plainNames Packer.plainNames.runJobs [⟨"file:///x"⟩]
    let temporary (number : String) : Temporary := ⟨⟨.root, ["x", number]⟩, ["x", number], true⟩
    let s := (start Packer.emptyDirectory).run [call, call]
    Packer.emptyDirectory.files.Sound ∧ Packer.emptyDirectory.registered = [] ∧
      (∀ step ∈ [call, call], step.Runs) ∧ s.Tidy ∧
      s.pending = [temporary "00000001", temporary "00000002"] ∧ s.Removes List.reverse := by
  intro call temporary s
  let after : Workspace := { Packer.withArchive [⟨"00000001/x", []⟩] with
    journal := [.packed Packer.emptyJob.directory.text Packer.emptyJob.target.text] }
  have first : Packer.plainNames.makes? Packer.emptyDirectory [⟨"file:///x"⟩] =
      some (temporary "00000001") := by cbv
  have second : Packer.plainNames.makes? after [⟨"file:///x"⟩] =
      some (temporary "00000002") := by cbv
  have one : (start Packer.emptyDirectory).next call =
      ⟨after, [temporary "00000001"], [temporary "00000001"]⟩ := by
    simp only [call, Session.next, start, first, ← Packer.pack_eq, Packer.pack_emptyDirectory]
    rfl
  have pending : s.pending = [temporary "00000001", temporary "00000002"] := by
    simp only [s, run, List.foldl_cons, List.foldl_nil, one]
    simp only [call, Session.next, pending, second]
    rfl
  have runs : ∀ step ∈ [call, call], step.Runs := by
    simp only [List.mem_cons, List.not_mem_nil, or_false, or_self, forall_eq]
    exact Packer.isRunner_runJobs _
  have plain : ∀ step ∈ [call, call], step.Plain := by
    simp only [List.mem_cons, List.not_mem_nil, or_false, or_self, forall_eq]
    exact ⟨by decide, by decide⟩
  have avoids : ∀ front step back, [call, call] = front ++ step :: back →
      ((start Packer.emptyDirectory).run front).Avoids step := by
    intro front step back split
    rcases front with _ | ⟨other, _ | ⟨third, more⟩⟩
    · cases split
      exact fun _ _ _ _ member => (List.not_mem_nil member).elim
    · cases split
      change Session.Avoids ((start Packer.emptyDirectory).next call) call
      rw [one]
      intro T makes _ S member
      cases second.symm.trans makes
      rw [List.mem_singleton.mp member]
      cbv
    · simp at split
  have sound : Packer.emptyDirectory.files.Sound := Packer.sound_emptyDirectory
  obtain ⟨tidy, removes⟩ := cleans_exactly sound rfl runs
  exact ⟨sound, rfl, runs, tidy, pending, removes plain avoids _ List.reverse_perm⟩

end Session

end Classpath
