import Thaw.Application
import Thaw.Attempt
import Thaw.Machine.Host

namespace Thaw

structure Session where
  settings : CheckpointSettings
  /-- Whether the process as a whole takes checkpoints by this session. -/
  isInstalled : Bool
  registry : Registry
  /-- The descriptors that were open when checkpoints were armed, once they are recorded. -/
  inherited : Option (List Int)
  /-- The engine, once it is resolved. -/
  engine : Option Engine
  clock : RestoreClock
  application : Application
  machine : Machine

namespace Session

def start (settings : CheckpointSettings) (application : Application) (machine : Machine) : Session where
  settings := settings
  isInstalled := false
  registry := .empty settings.isEnabled
  inherited := none
  engine := none
  clock := .unset
  application := application
  machine := machine

/-- The limit on open files in a process that was given no other. -/
def openFileLimit : Nat := 0x100000

def ledger (s : Session) : Ledger := s.machine.ledger (Machine.descriptorLimit openFileLimit) true

/-- Records the open descriptors as inherited. Only the first record counts, and without checkpoints
there is none. -/
def recordInherited (s : Session) : Session :=
  if s.settings.isEnabled && s.inherited.isNone then
    { s with inherited := some (s.ledger.openDescriptors.map Int.ofNat) }
  else s

def inheritedDescriptors (s : Session) : List Int := s.inherited.getD []

/-- Vouches for a descriptor with the identity of its file; `none` for a closed one. -/
def registerDescriptor? (s : Session) (fd : Int) : Option Session :=
  if fd < 0 then none
  else (s.machine.status? fd.toNat).map fun status =>
    { s with registry := s.registry.register ⟨fd, status.identity⟩ }

def notOpenMessage : String := "EBADF: Bad file number"

def install (s : Session) : Session := { s with isInstalled := true }

/-- Vouches for a resource in the name of the process, which needs an installed session. -/
def registerInstalled (s : Session) (r : Resource) : Session :=
  if s.isInstalled then { s with registry := s.registry.register r } else s

def deregisterInstalled (s : Session) (r : Resource) : Session :=
  if s.isInstalled then { s with registry := s.registry.deregister r } else s

/-- Makes a directory for its owner alone. That something of the name is already there is no failure. -/
def makePrivateDirectory (m : Machine) (dir : String) : Except SettingsError Machine :=
  match m.tree.makeDirectory m.here dir 0o700 m.access with
  | .ok tree => .ok { m with tree := tree }
  | .error (.system .alreadyExists) => .ok m
  | .error cause => .error (.directoryUnusable dir cause.message)

/-- Makes the directory for images unless it is there. -/
def ensureDirectory (s : Session) : Except CheckpointError (String × Session) := do
  let some dir := s.settings.checkpointTo | throw .notConfigured
  if s.machine.tree.leadsToDirectory s.machine.here dir s.machine.access then return (dir, s)
  let machine ← (makePrivateDirectory s.machine dir).mapError .directory
  return (dir, { s with machine := machine })

/-- Checks that the directory for images is there or can be made, and leaves no new one behind. -/
def checkDirectory (m : Machine) (dir : String) : Except SettingsError Machine := do
  match m.tree.find m.here dir true m.access with
  | .ok e => if m.tree.isDirectory e then return m else throw (.notADirectory dir)
  | .error _ =>
    let made ← makePrivateDirectory m dir
    match made.tree.removeDirectory made.here dir made.access with
    | .ok tree => return { made with tree := tree }
    | .error _ => return made

def resolveEngine (m : Machine) (settings : CheckpointSettings) : Except EngineError Engine :=
  Engine.resolve (m.tree.isThere m.here m.access) (settings.engineDir.getD m.installDir) settings.engine

/-- The engine as it was resolved first. -/
def currentEngine (s : Session) : Except EngineError Engine :=
  match s.engine with
  | some engine => .ok engine
  | none => resolveEngine s.machine s.settings

def rememberEngine (s : Session) : Except CheckpointError (Engine × Session) := do
  let engine ← s.currentEngine.mapError .engine
  return (engine, { s with engine := some engine })

def runEngine (host : Host) (m : Machine) (engine : Engine) (dir : String) :
    Except EngineError Unit × Machine :=
  let (result, m) := host.start m engine.path (Engine.checkpointArguments dir)
  (engine.checkpointResult (result.mapError Refusal.message), m)

/-- Checks the settings ahead of the first attempt. What was made on the way stays, even when a later
check fails. -/
def prepare (s : Session) : Except CheckpointError Unit × Session :=
  match s.settings.checkpointTo with
  | none => (.ok (), s)
  | some dir =>
    match checkDirectory s.machine dir with
    | .error e => (.error (.directory e), s)
    | .ok machine =>
      let s := { s with machine := machine }
      match s.rememberEngine with
      | .error e => (.error e, s)
      | .ok (_, s) => (.ok (), s)

/-- How a process learns that it was resumed. -/
abbrev Waiting := Machine → Except SignalError ResumeToken × Machine

def awaitSignal : Waiting := fun m => m.await m.pid

/-- The ledger with the marks that the application and the registry ask for. -/
def markedLedger (s : Session) : Ledger :=
  let view := s.machine.view
  let settings := s.application.settings
  (((s.ledger.markClassPath view settings.bootClassPath).markClassPath view settings.classPath
    ).markExtensionDirs view settings.extensionDirs).markPersistent s.registry.entries

def policy (s : Session) (isControlSocket : Nat → Bool) : Policy :=
  ⟨s.inheritedDescriptors, isControlSocket, s.machine.sockets, s.settings.printResources⟩

/-- An attempt with all that it did. -/
structure Account where
  outcome : Except CheckpointError Outcome
  steps : List (Phase × Phase)
  events : List Attempt.Event
  log : List LogLine

def Account.refused (e : CheckpointError) : Account := ⟨.error e, [], [], []⟩

/-- Lets what an attempt did take effect on what the process remembers. -/
def settle (s : Session) (engine : Except EngineError Engine) : List Attempt.Event → Session
  | [] => s
  | event :: events =>
    let s := match event with
      | .collected => { s with application := s.application.collect }
      | .classified => { s with registry := s.registry.take.2 }
      | .engineResolved => { s with engine := engine.toOption }
      | _ => s
    s.settle engine events

section

variable (s : Session) (host : Host) (dir : String) (isControlSocket : Nat → Bool)
  (waiting : Waiting)

/-- How a run of the engine would end, and the machine that it would leave. -/
def trial : Except EngineError Unit × Machine :=
  match s.currentEngine with
  | .ok engine => runEngine host s.machine engine dir
  | .error e => (.error e, s.machine)

/-- The machine on which the process goes on: the one that the wait leaves, and without an engine, where
there is none to wait for, the one it is on. -/
def found : Machine :=
  if s.settings.skipEngine then s.machine else (waiting (s.trial host dir).2).2

/-- What an attempt in the directory `dir` meets. The engine and the wait come last on the machine, so
what they would do is worked out beforehand and counts only if the attempt comes to them. -/
def surroundings : Attempt.Surroundings where
  report := classify (s.policy isControlSocket) s.markedLedger
  engine := s.currentEngine
  execution := (s.trial host dir).1
  notice := (waiting (s.trial host dir).2).1
  now := (s.found host dir waiting).now
  reader := host.reader

/-- The machine that an attempt leaves. What it did to the shared memory, it did after the wait. -/
def machineAfter (state : Attempt.State) : Machine :=
  let m :=
    if state.events.contains .awaited then
      { s.found host dir waiting with memory := state.memory }
    else if state.events.contains .engineRun then (s.trial host dir).2
    else s.machine
  { m with environment := state.environment }

def attempt (dryRun : Bool) : Account × Session :=
  let w := s.surroundings host dir isControlSocket waiting
  let (outcome, state) := Attempt.run s.settings dryRun w
    (.initial s.clock s.machine.environment (s.found host dir waiting).memory)
  let log := if state.events.contains .classified then w.report.log (s.policy isControlSocket) else []
  (⟨outcome, state.progress.steps, state.events, log⟩,
    { s.settle w.engine state.events with
      machine := s.machineAfter host dir waiting state
      clock := state.clock })

end

/-- One attempt, for which the directory for images is made if it is missing. -/
def checkpoint (s : Session) (host : Host) (dryRun : Bool) (isControlSocket : Nat → Bool)
    (waiting : Waiting) : Account × Session :=
  match s.ensureDirectory with
  | .error e => (.refused e, s)
  | .ok (dir, s) => s.attempt host dir isControlSocket waiting dryRun

/-- Hands parameters over and lets the engine bring back the image in `dir` in place of the process.
The machine is the one on which the engine is started, and which is left where it could not be. -/
def restore (host : Host) (m : Machine) (engine : Engine) (dir : String) (properties : List String)
    (arguments : String) : Machine × Except EngineError (Ending × Machine) :=
  let prepared :=
    Restore.prepare host.writes m.memory host.room m.pid m.environment properties arguments m.now
  let m := { m with memory := prepared.memory, environment := prepared.environment }
  (m, (host.exec m engine.path (Engine.restoreArguments dir)).mapError fun cause =>
    .execFailed engine.path cause.message)

end Session

end Thaw
