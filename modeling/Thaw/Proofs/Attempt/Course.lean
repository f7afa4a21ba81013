import Thaw.Proofs.Attempt.Steps

namespace Thaw.Attempt

set_option autoImplicit true

open Step (Reaches)

/-- What comes of the engine, once the descriptors are no obstacle. -/
inductive Course where
  | skipped
  | unresolved (e : EngineError)
  | failed (e : EngineError)
  /-- The engine did well, and the wake-up was none. -/
  | unannounced (e : SignalError)
  | resumed (token : ResumeToken)

namespace Course

def of (settings : CheckpointSettings) (w : Surroundings) : Course :=
  if settings.skipEngine then skipped
  else match w.engine, w.execution, w.notice with
    | .error e, _, _ => unresolved e
    | .ok _, .error e, _ => failed e
    | .ok _, .ok (), .error e => unannounced e
    | .ok _, .ok (), .ok token => resumed token

/-- The phases from the judgement up to the token or the error. -/
def path : Course → List Phase
  | skipped => [.invokingEngine, .resumed]
  | unresolved _ | failed _ => [.invokingEngine, .reportingFailure, .idle]
  | unannounced _ => [.invokingEngine, .awaitingRestore, .reportingFailure, .idle]
  | resumed _ => [.invokingEngine, .awaitingRestore, .resumed]

def events (settings : CheckpointSettings) : Course → List Event
  | skipped | unresolved _ => []
  | failed _ => [.engineResolved, .engineRun]
  | unannounced _ => [.engineResolved, .engineRun, .awaited]
  | resumed _ =>
    [.engineResolved, .engineRun, .awaited] ++ if settings.traceStartupTime then [.startupTraced] else []

def token : Course → Except CheckpointError ResumeToken
  | skipped => .ok ⟨none⟩
  | unresolved e | failed e => .error (.engine e)
  | unannounced e => .error (.signal e)
  | resumed token => .ok token

end Course

def proceeds (settings : CheckpointSettings) (dryRun : Bool) (r : Report) : Bool :=
  !dryRun && (r.isClean || settings.ignoreFailures)

/-- What an attempt does about descriptors that block it. -/
def warnings (settings : CheckpointSettings) (dryRun : Bool) (r : Report) : List Event :=
  let ignored := if settings.ignoreFailures then [.failuresIgnored] else []
  if dryRun || r.isClean then []
  else if settings.heapDumpOnFailure then .heapDumped :: ignored else ignored

theorem judge_reaches (w : Surroundings) :
    Reaches (judge w) .idle [.preparingPause, .classifyingDescriptors] [.collected, .classified]
      (pure w.report) :=
  .advance rfl (.note (.advance rfl (.note .refl)))

theorem report_reaches (blockers : List Blocker) :
    Reaches (report blockers) .classifyingDescriptors [.reportingFailure, .idle] []
      (pure (.failed blockers)) :=
  .advance rfl (.advance rfl .refl)

theorem abort_reaches (e : CheckpointError) (h : p.mayStep .reportingFailure = true) :
    Reaches (abort e) p [.reportingFailure, .idle] [] (throw e) := by
  rintro s rfl
  have hsteps : Reaches (advance .reportingFailure >>= fun _ => advance .idle >>= fun _ => throw e)
      s.progress.current [.reportingFailure, .idle] [] (throw e : Step ResumeToken) :=
    .advance h (.advance rfl .refl)
  rw [abort, Step.exec_get_bind, if_pos h]
  exact hsteps s rfl

theorem awaitToken_reaches (settings : CheckpointSettings) (w : Surroundings) :
    Reaches (awaitToken settings w) .classifyingDescriptors (Course.of settings w).path
      ((Course.of settings w).events settings) (ofExcept (Course.of settings w).token) := by
  unfold awaitToken Course.of
  split
  case isTrue => exact .advance rfl (.advance rfl .refl)
  case isFalse =>
    -- Whatever `runEngine` throws goes through `abort`, from the phase in which it was thrown.
    cases hengine : w.engine with
    | error e =>
      have hrun : Reaches (runEngine w) .invokingEngine [] [] (throw (.engine e)) := by
        rw [runEngine, hengine]
        exact .refl
      exact .advance rfl (.bind (.catch_throw hrun (abort_reaches _ rfl)))
    | ok engine =>
      cases hexec : w.execution with
      | error e =>
        have hrun : Reaches (runEngine w) .invokingEngine [] [.engineResolved, .engineRun]
            (throw (.engine e)) := by
          simp only [runEngine, hengine, hexec]
          exact .note (.note .refl)
        exact .advance rfl (.bind (.catch_throw hrun (abort_reaches _ rfl)))
      | ok u =>
        cases hnotice : w.notice with
        | error e =>
          have hrun : Reaches (runEngine w) .invokingEngine [.awaitingRestore]
              [.engineResolved, .engineRun, .awaited] (throw (.signal e)) := by
            simp only [runEngine, hengine, hexec, hnotice]
            exact .note (.note (.advance rfl (.note .refl)))
          exact .advance rfl (.bind (.catch_throw hrun (abort_reaches _ rfl)))
        | ok token =>
          have hrun : Reaches (runEngine w) .invokingEngine [.awaitingRestore]
              [.engineResolved, .engineRun, .awaited] (pure token) := by
            simp only [runEngine, hengine, hexec, hnotice]
            exact .note (.note (.advance rfl (.note .refl)))
          refine .advance rfl (.trans (.bind (.catch_pure hrun)) ?_)
          rw [pure_bind]
          exact .note_if _ (.advance rfl .refl)

theorem body_reaches (h : proceeds settings dryRun w.report = true) :
    Reaches (body settings dryRun w) .idle
      ([.preparingPause, .classifyingDescriptors] ++ (Course.of settings w).path)
      ([.collected, .classified] ++
        (warnings settings dryRun w.report ++ (Course.of settings w).events settings))
      (ofExcept (Course.of settings w).token >>= resume w) := by
  have hgo : Reaches (awaitToken settings w >>= resume w) .classifyingDescriptors _ _ _ :=
    .bind (awaitToken_reaches settings w)
  obtain ⟨hdry, hreport⟩ : dryRun = false ∧ (w.report.isClean || settings.ignoreFailures) = true := by
    simpa [proceeds] using h
  refine .trans (.bind (judge_reaches w)) ?_
  rw [pure_bind, hdry, warnings]
  cases hclean : w.report.isClean with
  | true => exact hgo
  | false =>
    rw [hclean, Bool.false_or] at hreport
    simp only [hreport]
    cases settings.heapDumpOnFailure with
    | true => exact .note (.note hgo)
    | false => exact .note hgo

theorem body_reaches_report (h : proceeds settings dryRun w.report = false) :
    Reaches (body settings dryRun w) .idle
      ([.preparingPause, .classifyingDescriptors] ++ [.reportingFailure, .idle])
      ([.collected, .classified] ++ warnings settings dryRun w.report)
      (pure (.failed w.report.blockers)) := by
  have hreport := report_reaches w.report.blockers
  refine .trans (.bind (judge_reaches w)) ?_
  rw [pure_bind, warnings]
  cases dryRun with
  | true => exact hreport
  | false =>
    obtain ⟨hclean, hignore⟩ : w.report.isClean = false ∧ settings.ignoreFailures = false := by
      simpa [proceeds] using h
    simp only [hclean, hignore]
    cases settings.heapDumpOnFailure with
    | true => exact .note hreport
    | false => exact hreport

/-- What comes of a token: the memory that is left, the parameters if they are usable, and what is done
about those that are not. -/
structure Find where
  memory : Segment.Memory
  parameters : Option Parameters
  events : List Event

def Find.of (reader : Segment.ReaderFate) (memory : Segment.Memory) (token : ResumeToken) : Find :=
  match token.segment with
  | none => ⟨memory, none, []⟩
  | some id =>
    match Parameters.take memory reader id.value with
    | (memory, .ok p) => ⟨memory, some p, []⟩
    | (memory, .error _) => ⟨memory, none, [.parametersIgnored]⟩

namespace Find

/-- The phases in which an attempt settles with a find. -/
def path (found : Find) : List Phase :=
  match found.parameters with
  | some _ => [.parametersApplied, .idle]
  | none => [.timestampsReset, .idle]

def restored (found : Find) : RestoredState :=
  match found.parameters with
  | some p => ⟨some p.arguments, p.properties⟩
  | none => ⟨none, []⟩

/-- The state into which a find is installed, with the present for its clock if it brings none. -/
def install (found : Find) (now : Reading) (s : State) : State :=
  match found.parameters with
  | some p =>
    { s with
      environment := s.environment.applyAll p.environment
      clock := .anchored p.reading
      memory := found.memory }
  | none => { s with clock := .anchored now, memory := found.memory }

@[simp] theorem events_install (found : Find) (now : Reading) (s : State) :
    (found.install now s).events = s.events := by
  rw [install]
  split
  · rfl
  · rfl

end Find

theorem exec_readParameters (w : Surroundings) (token : ResumeToken) (s : State) :
    let found := Find.of w.reader s.memory token
    (readParameters w token).exec s =
      (.ok found.parameters, { s with memory := found.memory }.after [] found.events) := by
  rw [readParameters, Find.of]
  cases token.segment with
  | none =>
    simp only [State.after_nil]
    rfl
  | some id =>
    simp only [Step.exec_get_bind]
    obtain ⟨memory, _ | p⟩ := Parameters.take s.memory w.reader id.value
    · simp only [Step.exec_modify_bind]
      exact (show Reaches _ _ _ _ (pure none) from .note .refl) _ rfl
    · simp only [Step.exec_modify_bind, State.after_nil]
      rfl

theorem exec_resume (w : Surroundings) (hs : s.progress.current = .resumed) :
    let found := Find.of w.reader s.memory token
    (resume w token).exec s =
      (.ok (.restored found.restored), (found.install w.now s).after found.path found.events) := by
  intro found
  rw [resume, Step.exec_bind, exec_readParameters, Find.restored, Find.install, Find.path]
  cases found.parameters with
  | none =>
    have hend : Reaches (advance .timestampsReset >>= fun _ => advance .idle >>= fun _ => pure _)
        .resumed _ _ (pure (Outcome.restored ⟨none, []⟩)) := .advance rfl (.advance rfl .refl)
    simp only [Step.exec_modify_bind]
    rw [hend]
    · simp only [State.after, List.append_nil]
      rfl
    · exact hs
  | some p =>
    have hend : Reaches (advance .parametersApplied >>= fun _ => advance .idle >>= fun _ => pure _)
        .resumed _ _ (pure (Outcome.restored ⟨some p.arguments, p.properties⟩)) :=
      .advance rfl (.advance rfl .refl)
    simp only [Step.exec_modify_bind]
    rw [hend]
    · simp only [State.after, List.append_nil]
      rfl
    · exact hs

section

variable {settings : CheckpointSettings} {dryRun : Bool} {w : Surroundings} {s : State}

theorem run_of_not_proceeds (h : proceeds settings dryRun w.report = false)
    (hs : s.progress.current = .idle) :
    run settings dryRun w s = (.ok (.failed w.report.blockers),
      s.after ([.preparingPause, .classifyingDescriptors] ++ [.reportingFailure, .idle])
        ([.collected, .classified] ++ warnings settings dryRun w.report)) :=
  body_reaches_report h s hs

theorem run_of_error (h : proceeds settings dryRun w.report = true)
    (htoken : (Course.of settings w).token = .error e) (hs : s.progress.current = .idle) :
    run settings dryRun w s = (.error e,
      s.after ([.preparingPause, .classifyingDescriptors] ++ (Course.of settings w).path)
        ([.collected, .classified] ++
          (warnings settings dryRun w.report ++ (Course.of settings w).events settings))) := by
  have hrun := body_reaches h s hs
  rw [htoken] at hrun
  exact hrun

theorem getLast?_path {c : Course} {t : ResumeToken} (htoken : c.token = .ok t) :
    c.path.getLast? = some .resumed := by
  cases c with
  | skipped => rfl
  | resumed => rfl
  | unresolved => cases htoken
  | failed => cases htoken
  | unannounced => cases htoken

theorem run_of_ok (h : proceeds settings dryRun w.report = true)
    (htoken : (Course.of settings w).token = .ok token) (hs : s.progress.current = .idle) :
    let found := Find.of w.reader s.memory token
    run settings dryRun w s = (.ok (.restored found.restored),
      (found.install w.now
        (s.after ([.preparingPause, .classifyingDescriptors] ++ (Course.of settings w).path)
          ([.collected, .classified] ++
            (warnings settings dryRun w.report ++ (Course.of settings w).events settings)))).after
        found.path found.events) := by
  intro found
  have hrun := body_reaches h s hs
  rw [htoken] at hrun
  refine hrun.trans (exec_resume w ?_)
  rw [State.current_after, List.getLastD_eq_getLast?, List.getLast?_append, getLast?_path htoken]
  rfl

end

end Thaw.Attempt
