import Mathlib.Logic.Function.Iterate
import Thaw.Proofs.Attempt.Itinerary
import Thaw.Proofs.Attempt.Regular
import Thaw.Session

namespace Thaw

set_option autoImplicit true

theorem Engine.checkpointResult_eq_ok_iff {engine : Engine} {run : Except String Ending} :
    engine.checkpointResult run = .ok () ↔ run = .ok (.exited 0) := by
  unfold checkpointResult
  split <;> simp_all

namespace Session

variable {s ready : Session} {host : Host} {dir : String} {waiting : Waiting}

theorem makePrivateDirectory_tree (h : makePrivateDirectory m dir = .ok m') :
    ∃ tree, m' = { m with tree := tree } := by
  rw [makePrivateDirectory] at h
  split at h
  case h_1 tree _ =>
    cases h
    exact ⟨tree, rfl⟩
  case h_2 =>
    cases h
    exact ⟨m.tree, rfl⟩
  case h_3 => cases h

theorem ensureDirectory_tree (h : s.ensureDirectory = .ok (dir, ready)) :
    ∃ tree, ready = { s with machine := { s.machine with tree := tree } } := by
  rw [ensureDirectory] at h
  cases hdir : s.settings.checkpointTo with
  | none =>
    rw [hdir] at h
    cases h
  | some dir =>
    rw [hdir] at h
    dsimp only at h
    split at h
    case isTrue =>
      cases h
      exact ⟨s.machine.tree, rfl⟩
    case isFalse =>
      cases hmade : makePrivateDirectory s.machine dir with
      | error e =>
        rw [hmade] at h
        cases h
      | ok machine =>
        rw [hmade] at h
        cases h
        obtain ⟨tree, rfl⟩ := makePrivateDirectory_tree hmade
        exact ⟨tree, rfl⟩

/-- The engine would do well exactly if it is there and the host lets it exit with zero. -/
theorem trial_eq_ok_iff : (s.trial host dir).1 = .ok () ↔ ∃ engine, s.currentEngine = .ok engine ∧
    (host.start s.machine engine.path (Engine.checkpointArguments dir)).1 = .ok (.exited 0) := by
  rw [trial]
  cases s.currentEngine with
  | error e => simp
  | ok engine =>
    simp only [runEngine, Engine.checkpointResult_eq_ok_iff, mapError_eq_ok_iff, Except.ok.injEq,
      exists_eq_left']

theorem machineAfter_of_not_run {state : Attempt.State} (hrun : .engineRun ∉ state.events)
    (hawaited : .awaited ∉ state.events) :
    s.machineAfter host dir waiting state =
      { s.machine with environment := state.environment } := by
  simp [machineAfter, hrun, hawaited]

theorem application_settle (s : Session) (resolved : Except EngineError Engine)
    (events : List Attempt.Event) :
    (s.settle resolved events).application =
      Application.collect^[events.count .collected] s.application := by
  induction events generalizing s with
  | nil => rfl
  | cons event events ih =>
    cases event with
    | collected => rw [settle, ih, List.count_cons_self]; rfl
    | _ => exact ih _

section

variable (s : Session) (host : Host) (dir : String) (isControlSocket : Nat → Bool)
  (waiting : Waiting) (dryRun : Bool)

def carryOut : Except CheckpointError Outcome × Attempt.State :=
  Attempt.run s.settings dryRun (s.surroundings host dir isControlSocket waiting)
    (.initial s.clock s.machine.environment (s.found host dir waiting).memory)

/-- How an attempt that ran as `r` is told, and what it makes of the session. -/
def conclude (r : Except CheckpointError Outcome × Attempt.State) : Account × Session :=
  let log := (classify (s.policy isControlSocket) s.markedLedger).log (s.policy isControlSocket)
  (⟨r.1, r.2.progress.steps, r.2.events, if r.2.events.contains .classified then log else []⟩,
    { s.settle s.currentEngine r.2.events with
      machine := s.machineAfter host dir waiting r.2
      clock := r.2.clock })

theorem attempt_eq : s.attempt host dir isControlSocket waiting dryRun =
    s.conclude host dir isControlSocket waiting
      (s.carryOut host dir isControlSocket waiting dryRun) :=
  rfl

theorem regular_carryOut :
    let r := s.carryOut host dir isControlSocket waiting dryRun
    Attempt.Regular s.settings dryRun (classify (s.policy isControlSocket) s.markedLedger)
      (∃ engine, s.currentEngine = .ok engine) ((s.trial host dir).1 = .ok ()) r.1 r.2.events
      (s.clock, s.machine.environment) (r.2.clock, r.2.environment) :=
  Attempt.regular_run s.settings dryRun (s.surroundings host dir isControlSocket waiting) s.clock
    s.machine.environment (s.found host dir waiting).memory

theorem regular_attempt :
    let (account, after) := s.attempt host dir isControlSocket waiting dryRun
    Attempt.Regular s.settings dryRun (classify (s.policy isControlSocket) s.markedLedger)
        (∃ engine, s.currentEngine = .ok engine) ((s.trial host dir).1 = .ok ())
        account.outcome account.events (s.clock, s.machine.environment)
        (after.clock, after.machine.environment) ∧
      after.application = s.application.collect ∧
      (.engineRun ∉ account.events → after.machine = s.machine) := by
  rw [attempt_eq]
  have hregular := s.regular_carryOut host dir isControlSocket waiting dryRun
  refine ⟨hregular, ?_, fun hrun => ?_⟩
  · have hcollected := List.count_eq_one_of_mem hregular.once
      (hregular.judged_first.subset List.mem_cons_self)
    refine (application_settle _ _ _).trans ?_
    rw [hcollected]
    rfl
  · have hawaited := fun h => hrun (hregular.awaited_iff.1 h).1
    obtain ⟨henvironment, -⟩ := Attempt.run_of_not_awaited _ _ _ hawaited
    exact (machineAfter_of_not_run hrun hawaited).trans
      (congrArg (fun environment => { s.machine with environment := environment }) henvironment)

theorem outcome_attempt_ne_forbiddenStep (e : ForbiddenStep) :
    (s.attempt host dir isControlSocket waiting dryRun).1.outcome ≠ .error (.forbiddenStep e) :=
  Attempt.run_ne_forbiddenStep
    (s := .initial s.clock s.machine.environment (s.found host dir waiting).memory)
    s.settings dryRun (s.surroundings host dir isControlSocket waiting) rfl e

theorem progress_carryOut :
    (s.carryOut host dir isControlSocket waiting dryRun).2.progress =
      ⟨.idle, .idle :: Attempt.itinerary s.settings dryRun
        (s.surroundings host dir isControlSocket waiting) (s.found host dir waiting).memory⟩ :=
  Attempt.progress_run s.settings dryRun (s.surroundings host dir isControlSocket waiting) s.clock
    s.machine.environment (s.found host dir waiting).memory

theorem steps_attempt :
    let path := Attempt.itinerary s.settings dryRun
      (s.surroundings host dir isControlSocket waiting) (s.found host dir waiting).memory
    (s.attempt host dir isControlSocket waiting dryRun).1.steps =
      (Phase.idle :: path).zip path := by
  rw [attempt_eq, conclude, progress_carryOut]
  rfl

end

/-- Whatever an attempt meets, it keeps to the rules. So does every attempt of a process whose directory
for images is there or can be made: it judges the descriptors as they are, collects garbage once, and
leaves the machine alone unless it runs the engine. -/
theorem checkpoint_keeps_to_rules :
    (∀ settings dryRun (w : Attempt.Surroundings) clock environment memory,
      let r := Attempt.run settings dryRun w (.initial clock environment memory)
      Attempt.Regular settings dryRun w.report (∃ engine, w.engine = .ok engine)
        (w.execution = .ok ()) r.1 r.2.events (clock, environment) (r.2.clock, r.2.environment)) ∧
    ∀ (s ready : Session) host dir dryRun isControlSocket waiting,
      s.ensureDirectory = .ok (dir, ready) →
        let (account, after) := s.checkpoint host dryRun isControlSocket waiting
        Attempt.Regular s.settings dryRun (classify (ready.policy isControlSocket) ready.markedLedger)
            (∃ engine, ready.currentEngine = .ok engine)
            (∃ engine, ready.currentEngine = .ok engine ∧
              (host.start ready.machine engine.path (Engine.checkpointArguments dir)).1 =
                .ok (.exited 0))
            account.outcome account.events (s.clock, s.machine.environment)
            (after.clock, after.machine.environment) ∧
          after.application = s.application.collect ∧
          (.engineRun ∉ account.events → after.machine = ready.machine) := by
  refine ⟨Attempt.regular_run, fun s ready host dir dryRun isControlSocket waiting h => ?_⟩
  obtain ⟨tree, rfl⟩ := ensureDirectory_tree h
  rw [checkpoint, h, ← trial_eq_ok_iff]
  exact regular_attempt { s with machine := { s.machine with tree := tree } } host dir
    isControlSocket waiting dryRun

def equipped : Session :=
  .start
    { CheckpointSettings.disabled with
      checkpointTo := some "/"
      engine := "/engine"
      ignoreFailures := true
      heapDumpOnFailure := true }
    (.start .empty "app" true)
    (.start (FileTree.empty.add FileTree.root "engine" (.data []) FileTree.openPermissions) "/" "/"
      .empty 8 1 ⟨5, 6⟩)

/-- A host on which all programs do well and leave everything as it is. -/
def compliant : Host := { Host.idle with spawn := fun m _ _ => (.ok (.exited 0), m) }

/-- The engine does well, but no signal arrives. -/
theorem checkpoint_keeps_to_rules_equipped :
    let e := SignalError.waitFailed "timeout"
    equipped.ensureDirectory = .ok ("/", equipped) ∧
      let (account, after) :=
        equipped.checkpoint compliant false (fun _ => false) fun m => (.error e, m)
      account.outcome = .error (.signal e) ∧ .heapDumped ∈ account.events ∧
        .engineRun ∈ account.events ∧ .awaited ∈ account.events ∧ after.clock = .unset ∧
        after.application.collections = 1 := by
  intro e
  refine ⟨rfl, ?_⟩
  obtain ⟨hregular, happlication, -⟩ := checkpoint_keeps_to_rules.2 equipped _ compliant _ false
    (fun _ => false) (fun m => (.error e, m)) rfl
  have hrun := hregular.engineRun_iff.2 ⟨rfl, rfl, ⟨_, rfl⟩, .inr rfl⟩
  have hawaited := hregular.awaited_iff.2 ⟨hrun, _, rfl, rfl⟩
  refine ⟨rfl, hregular.heapDumped_iff.2 ⟨rfl, rfl, rfl⟩, hrun, hawaited, ?_, ?_⟩
  · refine congrArg Prod.fst (hregular.unchanged fun state h => ?_)
    cases h
  · exact congrArg Application.collections happlication

/-- Whatever an attempt meets, the phases refuse none of its steps: it visits those that are due, which
is one path alone, and is idle again. So does every attempt of a process whose directory for images is
there or can be made, with the segments that are there after the wait. -/
theorem checkpoint_visits_due_phases :
    (∀ settings dryRun (w : Attempt.Surroundings) clock environment memory,
      let r := Attempt.run settings dryRun w (.initial clock environment memory)
      (∀ e, r.1 ≠ .error (.forbiddenStep e)) ∧ r.2.progress.current = .idle ∧
        ∃ path, (∀ other, Attempt.Due settings dryRun w memory other ↔ other = path) ∧
          r.2.progress.history = .idle :: path) ∧
    ∀ (s ready : Session) host dir dryRun isControlSocket waiting,
      s.ensureDirectory = .ok (dir, ready) →
        let account := (s.checkpoint host dryRun isControlSocket waiting).1
        (∀ e, account.outcome ≠ .error (.forbiddenStep e)) ∧
          ∃ path, (∀ other, Attempt.Due s.settings dryRun
              (ready.surroundings host dir isControlSocket waiting)
              (ready.found host dir waiting).memory other ↔ other = path) ∧
            account.steps = (Phase.idle :: path).zip path := by
  refine ⟨fun settings dryRun w clock environment memory => ?_,
    fun s ready host dir dryRun isControlSocket waiting h => ?_⟩
  · intro r
    have hprogress : r.2.progress = _ :=
      Attempt.progress_run settings dryRun w clock environment memory
    refine ⟨Attempt.run_ne_forbiddenStep settings dryRun w rfl, ?_, _,
      fun _ => Attempt.due_iff, ?_⟩
    · rw [hprogress]
    · rw [hprogress]
  · obtain ⟨tree, rfl⟩ := ensureDirectory_tree h
    let ready : Session := { s with machine := { s.machine with tree := tree } }
    rw [checkpoint, h]
    exact ⟨ready.outcome_attempt_ne_forbiddenStep host dir isControlSocket waiting dryRun, _,
      fun _ => Attempt.due_iff, ready.steps_attempt host dir isControlSocket waiting dryRun⟩

/-- A wait that ends with the announcement of a segment, which was written in the meantime. -/
def greeting : Waiting := fun m =>
  (.ok ⟨some ⟨7, by decide⟩⟩, { m with memory := ⟨[(7, 0)], [Parameters.greeting.layout], []⟩ })

theorem handed_greeting :
    Attempt.Handed compliant.reader (equipped.found compliant "/" greeting).memory
      ⟨some ⟨7, by decide⟩⟩ Parameters.greeting := by
  have hencodable : Parameters.greeting.Encodable :=
    (Parameters.encodable_iff _).2 ⟨by decide +kernel, by decide, by decide +kernel⟩
  have hdecode := Parameters.decode_layout_append hencodable []
  rw [List.append_nil] at hdecode
  exact ⟨_, 0, rfl, rfl, rfl, rfl, hdecode⟩

theorem due_greeting :
    Attempt.Due equipped.settings false
      (equipped.surroundings compliant "/" (fun _ => false) greeting)
      (equipped.found compliant "/" greeting).memory
      [.preparingPause, .classifyingDescriptors, .invokingEngine, .awaitingRestore, .resumed,
       .parametersApplied, .idle] :=
  .onward rfl (.inr rfl) (.applied rfl rfl rfl rfl handed_greeting)

theorem checkpoint_visits_due_phases_greeting :
    equipped.ensureDirectory = .ok ("/", equipped) ∧
      (equipped.checkpoint compliant false (fun _ => false) greeting).1.steps =
        [(.idle, .preparingPause), (.preparingPause, .classifyingDescriptors),
         (.classifyingDescriptors, .invokingEngine), (.invokingEngine, .awaitingRestore),
         (.awaitingRestore, .resumed), (.resumed, .parametersApplied),
         (.parametersApplied, .idle)] := by
  refine ⟨rfl, ?_⟩
  obtain ⟨-, path, hpath, hsteps⟩ := checkpoint_visits_due_phases.2 equipped _ compliant "/" false
    (fun _ => false) greeting rfl
  rw [hsteps, ← (hpath _).1 due_greeting]
  rfl

end Session

end Thaw
