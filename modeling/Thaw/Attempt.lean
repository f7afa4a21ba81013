import Thaw.Classification
import Thaw.Engine
import Thaw.Parameters.Channel
import Thaw.Resume

namespace Thaw

/-- What the resumed process takes over. -/
structure RestoredState where
  newArguments : Option String
  newProperties : List String
  deriving DecidableEq, Repr

inductive Outcome where
  | restored (state : RestoredState)
  /-- No checkpoint was taken; a dry run always ends so. -/
  | failed (blockers : List Blocker)
  deriving DecidableEq, Repr

namespace Outcome

def isRestored : Outcome → Bool
  | restored _ => true
  | failed _ => false

def blockers : Outcome → List Blocker
  | restored _ => []
  | failed blockers => blockers

end Outcome

namespace Attempt

/-- What an attempt does to the world around it. -/
inductive Event where
  | collected
  /-- The mutators were held and the descriptors judged. -/
  | classified
  | heapDumped
  /-- The attempt went on although descriptors block it. -/
  | failuresIgnored
  | engineResolved
  | engineRun
  | awaited
  | startupTraced
  /-- A segment was announced but could not be used. -/
  | parametersIgnored
  deriving DecidableEq, Repr

/-- What the attempt meets. -/
structure Surroundings where
  report : Report
  engine : Except EngineError Engine
  /-- How the run of the engine ends. -/
  execution : Except EngineError Unit
  /-- What arrives when the process is resumed. -/
  notice : Except SignalError ResumeToken
  /-- The clocks at that time. -/
  now : Reading
  /-- What becomes of the calls that read the announced segment. -/
  reader : Segment.ReaderFate

structure State where
  progress : Progress
  events : List Event
  clock : RestoreClock
  environment : Environment
  /-- The shared memory as the process finds it when it is resumed. -/
  memory : Segment.Memory

def State.initial (clock : RestoreClock) (environment : Environment) (memory : Segment.Memory) :
    State :=
  ⟨.start, [], clock, environment, memory⟩

/-- Steps keep what they have done when one of them fails. -/
abbrev Step := ExceptT CheckpointError (StateM State)

def advance (target : Phase) : Step Unit := do
  match (← get).progress.advance target with
  | .ok progress => modify fun s => { s with progress := progress }
  | .error e => throw (.forbiddenStep e)

def note (event : Event) : Step Unit := modify fun s => { s with events := s.events ++ [event] }

def report (blockers : List Blocker) : Step Outcome := do
  advance .reportingFailure
  advance .idle
  return .failed blockers

/-- Ends with an error, through the failure phase where the phases allow it. -/
def abort (e : CheckpointError) : Step ResumeToken := do
  if (← get).progress.current.mayStep .reportingFailure then
    advance .reportingFailure
    advance .idle
  throw e

/-- Runs the engine and waits for the wake-up, which is awaited only after a good run. -/
def runEngine (w : Surroundings) : Step ResumeToken := do
  match w.engine with
  | .error e => throw (.engine e)
  | .ok _ =>
    note .engineResolved
    note .engineRun
    match w.execution with
    | .error e => throw (.engine e)
    | .ok () =>
      advance .awaitingRestore
      note .awaited
      match w.notice with
      | .error e => throw (.signal e)
      | .ok token => return token

/-- The token with which the process goes on; without an engine it goes on at once and empty. -/
def awaitToken (settings : CheckpointSettings) (w : Surroundings) : Step ResumeToken := do
  advance .invokingEngine
  if settings.skipEngine then
    advance .resumed
    return ⟨none⟩
  else
    let token ← tryCatch (runEngine w) abort
    if settings.traceStartupTime then note .startupTraced
    advance .resumed
    return token

/-- The parameters of the announced segment; unusable ones are as good as none. -/
def readParameters (w : Surroundings) (token : ResumeToken) : Step (Option Parameters) := do
  match token.segment with
  | none => return none
  | some id =>
    let (memory, result) := Parameters.take (← get).memory w.reader id.value
    modify fun s => { s with memory := memory }
    match result with
    | .ok parameters => return some parameters
    | .error _ =>
      note .parametersIgnored
      return none

/-- Installs what was handed over, or anchors the clock to the present. -/
def resume (w : Surroundings) (token : ResumeToken) : Step Outcome := do
  match ← readParameters w token with
  | some p =>
    modify fun s => { s with
      environment := s.environment.applyAll p.environment
      clock := .anchored p.reading }
    advance .parametersApplied
    advance .idle
    return .restored ⟨some p.arguments, p.properties⟩
  | none =>
    modify fun s => { s with clock := .anchored w.now }
    advance .timestampsReset
    advance .idle
    return .restored ⟨none, []⟩

/-- Judges the descriptors while the application is held. -/
def judge (w : Surroundings) : Step Report := do
  advance .preparingPause
  note .collected
  advance .classifyingDescriptors
  note .classified
  return w.report

/-- The attempt from its first phase on. -/
def body (settings : CheckpointSettings) (dryRun : Bool) (w : Surroundings) : Step Outcome := do
  let r ← judge w
  if dryRun then return ← report r.blockers
  if !r.isClean then
    if settings.heapDumpOnFailure then note .heapDumped
    if !settings.ignoreFailures then return ← report r.blockers
    note .failuresIgnored
  let token ← awaitToken settings w
  resume w token

def run (settings : CheckpointSettings) (dryRun : Bool) (w : Surroundings) (s : State) :
    Except CheckpointError Outcome × State :=
  (body settings dryRun w).run.run s

end Attempt

end Thaw
