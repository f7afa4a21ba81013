namespace Thaw

inductive Phase where
  /-- No attempt is in flight. -/
  | idle
  /-- Garbage is collected and the mutators are brought to a halt. -/
  | preparingPause
  /-- The descriptors are listed and judged. -/
  | classifyingDescriptors
  /-- The attempt ends without a checkpoint. -/
  | reportingFailure
  | invokingEngine
  /-- The engine has finished; nothing runs until the resumed image is signalled. -/
  | awaitingRestore
  | resumed
  /-- What the restoring side handed over is installed. -/
  | parametersApplied
  /-- Nothing usable was handed over; the clock is anchored to the present. -/
  | timestampsReset
  deriving DecidableEq, Repr

namespace Phase

def all : List Phase :=
  [idle, preparingPause, classifyingDescriptors, reportingFailure, invokingEngine, awaitingRestore,
   resumed, parametersApplied, timestampsReset]

def name : Phase → String
  | idle => "Idle"
  | preparingPause => "PreparingPause"
  | classifyingDescriptors => "ClassifyingFds"
  | reportingFailure => "ReportingFailure"
  | invokingEngine => "InvokingEngine"
  | awaitingRestore => "WaitingForRestoreSignal"
  | resumed => "Resumed"
  | parametersApplied => "ParametersApplied"
  | timestampsReset => "TimestampsReset"

/-- The phases that may follow directly. -/
def successors : Phase → List Phase
  | idle => [preparingPause]
  | preparingPause => [classifyingDescriptors]
  | classifyingDescriptors => [invokingEngine, reportingFailure]
  | reportingFailure => [idle]
  | invokingEngine => [awaitingRestore, reportingFailure, resumed]
  | awaitingRestore => [resumed, reportingFailure]
  | resumed => [parametersApplied, timestampsReset]
  | parametersApplied => [idle]
  | timestampsReset => [idle]

def mayStep (source target : Phase) : Bool := source.successors.contains target

end Phase

/-- A step that the phases do not allow. -/
structure ForbiddenStep where
  source : Phase
  target : Phase
  deriving DecidableEq, Repr

def ForbiddenStep.message (e : ForbiddenStep) : String :=
  s!"Cannot transition checkpoint attempt from {e.source.name} to {e.target.name}"

/-- Where an attempt stands and every phase it has visited, oldest first. -/
structure Progress where
  current : Phase
  history : List Phase
  deriving DecidableEq, Repr

namespace Progress

def start : Progress := ⟨.idle, [.idle]⟩

def advance (p : Progress) (target : Phase) : Except ForbiddenStep Progress :=
  if p.current.mayStep target then .ok ⟨target, p.history ++ [target]⟩
  else .error ⟨p.current, target⟩

/-- A rejected request changes nothing. -/
def request (p : Progress) (target : Phase) : Progress :=
  match p.advance target with
  | .ok next => next
  | .error _ => p

def isBusy (p : Progress) : Bool := p.current ≠ .idle

/-- The steps taken, oldest first. -/
def steps (p : Progress) : List (Phase × Phase) := p.history.zip p.history.tail

end Progress

end Thaw
