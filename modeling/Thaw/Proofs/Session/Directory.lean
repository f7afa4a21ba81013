import Thaw.Proofs.File.Tree
import Thaw.Proofs.Session.Attempts

namespace Thaw.Session

set_option autoImplicit true

def Sees (s : Session) (dir : String) : Prop :=
  s.machine.tree.leadsToDirectory s.machine.here dir s.machine.access = true

/-- Where the names of a path lead the process, but for a symbolic link at the end. -/
def place (s : Session) (dir : String) : Except Refusal FileTree.Place :=
  s.machine.tree.locate s.machine.here false FileTree.names dir s.machine.access

/-- How the path of the directory for images comes to be accepted, with the session afterwards. -/
inductive Accepted (s : Session) (dir : String) : Session → Prop
  | found (hsees : s.Sees dir) : Accepted s dir s
  | made (hsees : ¬ s.Sees dir) (hplace : s.place dir = .ok (.absent parent name))
    (hmay : s.machine.access.mayChange parent = true) :
    Accepted s dir { s with machine := { s.machine with
      tree := s.machine.tree.add parent name .directory 0o700 } }
  | taken (hsees : ¬ s.Sees dir) (hplace : s.place dir = .ok (.entry e)) : Accepted s dir s

inductive Denied (s : Session) (dir : String) : Refusal → Prop
  | lost (hsees : ¬ s.Sees dir) (hplace : s.place dir = .error cause) : Denied s dir cause
  | forbidden (hsees : ¬ s.Sees dir) (hplace : s.place dir = .ok (.absent parent name))
    (hmay : s.machine.access.mayChange parent = false) : Denied s dir (.system .permissionDenied)

variable {s ready : Session} {dir : String}

theorem ensureDirectory_of_none (h : s.settings.checkpointTo = none) :
    s.ensureDirectory = .error .notConfigured := by
  rw [ensureDirectory, h]
  rfl

theorem ensureDirectory_of_sees (hdir : s.settings.checkpointTo = some dir) (h : s.Sees dir) :
    s.ensureDirectory = .ok (dir, s) := by
  rw [Sees] at h
  rw [ensureDirectory, hdir]
  dsimp only
  rw [if_pos h]
  rfl

theorem ensureDirectory_of_not_sees (hdir : s.settings.checkpointTo = some dir) (h : ¬ s.Sees dir) :
    s.ensureDirectory = ((makePrivateDirectory s.machine dir).mapError .directory).map fun machine =>
      (dir, { s with machine := machine }) := by
  rw [Sees] at h
  rw [ensureDirectory, hdir]
  dsimp only
  rw [if_neg h]
  cases makePrivateDirectory s.machine dir <;> rfl

theorem Accepted.ensureDirectory_eq (hdir : s.settings.checkpointTo = some dir)
    (h : s.Accepted dir ready) : s.ensureDirectory = .ok (dir, ready) := by
  cases h with
  | found hsees => exact ensureDirectory_of_sees hdir hsees
  | made hsees hplace hmay =>
    rw [ensureDirectory_of_not_sees hdir hsees, makePrivateDirectory,
      FileTree.makeDirectory_of_absent hplace, if_pos hmay]
    rfl
  | taken hsees hplace =>
    rw [ensureDirectory_of_not_sees hdir hsees, makePrivateDirectory,
      FileTree.makeDirectory_of_entry hplace]
    rfl

theorem Denied.ensureDirectory_eq (hdir : s.settings.checkpointTo = some dir)
    (h : s.Denied dir cause) :
    s.ensureDirectory = .error (.directory (.directoryUnusable dir cause.message)) := by
  cases h with
  | lost hsees hplace =>
    rw [ensureDirectory_of_not_sees hdir hsees, makePrivateDirectory,
      FileTree.makeDirectory_of_error hplace]
    split
    case h_1 h => cases h
    case h_2 h =>
      cases h
      exact absurd hplace (FileTree.locate_ne_alreadyExists _ _ _ _ _ _)
    case h_3 h =>
      cases h
      rfl
  | forbidden hsees hplace hmay =>
    rw [ensureDirectory_of_not_sees hdir hsees, makePrivateDirectory,
      FileTree.makeDirectory_of_absent hplace, hmay]
    rfl

theorem accepted_or_denied (s : Session) (dir : String) :
    (∃ ready, s.Accepted dir ready) ∨ ∃ cause, s.Denied dir cause := by
  by_cases hsees : s.Sees dir
  · exact .inl ⟨s, .found hsees⟩
  · cases hplace : s.place dir with
    | error cause => exact .inr ⟨cause, .lost hsees hplace⟩
    | ok place =>
      cases place with
      | entry e => exact .inl ⟨s, .taken hsees hplace⟩
      | absent parent name =>
        cases hmay : s.machine.access.mayChange parent with
        | true => exact .inl ⟨_, .made hsees hplace hmay⟩
        | false => exact .inr ⟨_, .forbidden hsees hplace hmay⟩

theorem ensureDirectory_eq_ok_iff : s.ensureDirectory = .ok (dir, ready) ↔
    s.settings.checkpointTo = some dir ∧ s.Accepted dir ready := by
  constructor
  · intro h
    cases hdir : s.settings.checkpointTo with
    | none => cases (ensureDirectory_of_none hdir).symm.trans h
    | some path =>
      obtain ⟨_, haccepted⟩ | ⟨_, hdenied⟩ := accepted_or_denied s path
      · cases (haccepted.ensureDirectory_eq hdir).symm.trans h
        exact ⟨rfl, haccepted⟩
      · cases (hdenied.ensureDirectory_eq hdir).symm.trans h
  · rintro ⟨hdir, haccepted⟩
    exact haccepted.ensureDirectory_eq hdir

theorem ensureDirectory_eq_error_iff {e : CheckpointError} : s.ensureDirectory = .error e ↔
    s.settings.checkpointTo = none ∧ e = .notConfigured ∨
      ∃ dir cause, s.settings.checkpointTo = some dir ∧ s.Denied dir cause ∧
        e = .directory (.directoryUnusable dir cause.message) := by
  constructor
  · intro h
    cases hdir : s.settings.checkpointTo with
    | none =>
      cases (ensureDirectory_of_none hdir).symm.trans h
      exact .inl ⟨rfl, rfl⟩
    | some dir =>
      obtain ⟨_, haccepted⟩ | ⟨cause, hdenied⟩ := accepted_or_denied s dir
      · cases (haccepted.ensureDirectory_eq hdir).symm.trans h
      · cases (hdenied.ensureDirectory_eq hdir).symm.trans h
        exact .inr ⟨dir, cause, rfl, hdenied, rfl⟩
  · rintro (⟨hdir, rfl⟩ | ⟨dir, cause, hdir, hdenied, rfl⟩)
    · exact ensureDirectory_of_none hdir
    · exact hdenied.ensureDirectory_eq hdir

theorem Accepted.leadsToDirectory_or_taken (h : s.Accepted dir ready) :
    ready.machine.tree.leadsToDirectory ready.machine.here dir = true ∨
      ready = s ∧ ¬ s.Sees dir ∧ ∃ e, s.place dir = .ok (.entry e) := by
  cases h with
  | found hsees => exact .inl (FileTree.leadsToDirectory_full hsees)
  | made _ hplace _ => exact .inl (FileTree.leadsToDirectory_add hplace _)
  | taken hsees hplace => exact .inr ⟨rfl, hsees, _, hplace⟩

/-- The path for images is accepted where it leads to a directory or one can be made, which is all
that changes; it is accepted as well where its last name is taken by something else. Otherwise it is
refused, before anything is done. -/
theorem ensureDirectory_accepts_or_refuses (s : Session) :
    (∀ dir ready, s.ensureDirectory = .ok (dir, ready) ↔
      s.settings.checkpointTo = some dir ∧ s.Accepted dir ready) ∧
    (∀ e, s.ensureDirectory = .error e ↔
      s.settings.checkpointTo = none ∧ e = .notConfigured ∨
        ∃ dir cause, s.settings.checkpointTo = some dir ∧ s.Denied dir cause ∧
          e = .directory (.directoryUnusable dir cause.message)) ∧
    (∀ dir ready, s.ensureDirectory = .ok (dir, ready) →
      ready.machine.tree.leadsToDirectory ready.machine.here dir = true ∨
        ready = s ∧ ¬ s.Sees dir ∧ ∃ e, s.place dir = .ok (.entry e)) ∧
    ∀ e, s.ensureDirectory = .error e → ∀ host dryRun isControlSocket waiting,
      s.checkpoint host dryRun isControlSocket waiting = (.refused e, s) := by
  refine ⟨fun dir ready => ensureDirectory_eq_ok_iff, fun e => ensureDirectory_eq_error_iff,
    fun dir ready h => ?_, fun e h host dryRun isControlSocket waiting => ?_⟩
  · exact (ensureDirectory_eq_ok_iff.1 h).2.leadsToDirectory_or_taken
  · rw [checkpoint, h]

def withTree (t : FileTree) (access : Access) : Session :=
  .start { CheckpointSettings.disabled with checkpointTo := some "/images" }
    (.start .empty "app" true)
    { Machine.start t "/" "/" .empty 7 1 ⟨5, 6⟩ with access := access }

def confined : Session := withTree .empty ⟨fun _ => true, fun _ => false⟩

theorem ensureDirectory_accepts_or_refuses_confined :
    let provided := withTree (FileTree.empty.add FileTree.root "images" .directory 0o700) .full
    let e : CheckpointError :=
      .directory (.directoryUnusable "/images" (Refusal.system .permissionDenied).message)
    (withTree .empty .full).ensureDirectory = .ok ("/images", provided) ∧
      provided.machine.tree.leadsToDirectory provided.machine.here "/images" = true ∧
    confined.ensureDirectory = .error e ∧
      confined.checkpoint .idle false (fun _ => false) awaitSignal = (.refused e, confined) := by
  intro provided e
  have hprovided : (withTree .empty .full).ensureDirectory = .ok ("/images", provided) := rfl
  have hfree : (withTree .empty .full).place "/images" = .ok (.absent FileTree.root "images") := rfl
  have hrefused : confined.ensureDirectory = .error e := rfl
  obtain ⟨-, -, hleads, -⟩ := ensureDirectory_accepts_or_refuses (withTree .empty .full)
  obtain ⟨-, -, -, hattempt⟩ := ensureDirectory_accepts_or_refuses confined
  refine ⟨hprovided, ?_, hrefused, hattempt e hrefused .idle false (fun _ => false) awaitSignal⟩
  obtain hleads | ⟨-, -, _, htaken⟩ := hleads "/images" provided hprovided
  · exact hleads
  · cases hfree.symm.trans htaken

/-- A process that finds a file where it wants the directory for images. -/
def obstructed : Session :=
  withTree (FileTree.empty.add FileTree.root "images" (.data []) FileTree.dataPermissions) .full

/-- The file is accepted in place of the directory, and the attempt goes on with it. -/
theorem ensureDirectory_of_file :
    obstructed.ensureDirectory = .ok ("/images", obstructed) ∧
      obstructed.machine.tree.leadsToDirectory obstructed.machine.here "/images" = false ∧
      (.idle, .preparingPause) ∈
        (obstructed.checkpoint .idle false (fun _ => false) awaitSignal).1.steps := by
  have hsteps : (obstructed.checkpoint .idle false (fun _ => false) awaitSignal).1.steps = _ :=
    obstructed.steps_attempt .idle "/images" (fun _ => false) awaitSignal false
  refine ⟨rfl, rfl, ?_⟩
  rw [hsteps]
  exact .head _

end Thaw.Session
