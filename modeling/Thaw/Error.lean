import Thaw.Phase

namespace Thaw

/-- A setting that does not hold, or a checkpoint directory that cannot be used. -/
inductive SettingsError where
  | missingField (field context : String)
  | invalidValue (field value reason : String)
  | notADirectory (path : String)
  | directoryUnusable (path reason : String)
  deriving DecidableEq, Repr

def SettingsError.message : SettingsError → String
  | .missingField field context => s!"Missing required field: {field} in {context}"
  | .invalidValue field value reason => s!"Invalid field value: {field} = {value} - {reason}"
  | .notADirectory path => s!"Checkpoint directory is not a directory: {path}"
  | .directoryUnusable path reason => s!"Cannot create checkpoint directory {path}: {reason}"

/-- The hand-over of restore parameters through a shared memory segment failed. -/
inductive ChannelError where
  | openFailed (name reason : String)
  | writeFailed (reason : String)
  | truncatedWrite (expected written : Nat)
  | readFailed (reason : String)
  | corrupt (reason : String)
  deriving DecidableEq, Repr

def ChannelError.message : ChannelError → String
  | .openFailed name reason => s!"Failed to open shared memory segment {name}: {reason}"
  | .writeFailed reason => s!"Shared memory write failed: {reason}"
  | .truncatedWrite expected written =>
    s!"Shared memory write truncated: wrote {written} of {expected} bytes"
  | .readFailed reason => s!"Shared memory read failed: {reason}"
  | .corrupt reason => s!"Restore parameters are corrupt: {reason}"

/-- The engine could not be found or started, or did not finish well. -/
inductive EngineError where
  | binaryNotFound (path : String)
  | invalidEngine (reason : String)
  | spawnFailed (reason : String)
  | exitStatus (code : Int)
  | abnormalTermination (reason : String)
  | execFailed (path cause : String)
  deriving DecidableEq, Repr

def EngineError.message : EngineError → String
  | .binaryNotFound path => s!"CR engine binary not found at {path}"
  | .invalidEngine reason => s!"Invalid CR engine name: {reason}"
  | .spawnFailed reason => s!"Failed to spawn CR engine: {reason}"
  | .exitStatus code => s!"CR engine exited with status {code}"
  | .abnormalTermination reason => s!"CR engine terminated abnormally: {reason}"
  | .execFailed path cause => s!"Cannot execute \"{path} restore\": {cause}"

/-- The restore signal could not be awaited or sent, or was not what it should be. -/
inductive SignalError where
  | maskFailed (reason : String)
  | waitFailed (reason : String)
  | notQueued (code : Int)
  | invalidPayload (payload : Int)
  | notifyFailed (pid : Int) (reason : String)
  deriving DecidableEq, Repr

def SignalError.message : SignalError → String
  | .maskFailed reason => s!"Failed to install restore signal mask: {reason}"
  | .waitFailed reason => s!"Waiting for restore signal failed: {reason}"
  | .notQueued code => s!"Invalid info for restore provided: not queued (code {code})"
  | .invalidPayload payload => s!"Invalid info for restore provided: queued code {payload}"
  | .notifyFailed pid reason => s!"Failed to queue restore signal to pid {pid}: {reason}"

/-- What ends a checkpoint attempt without an outcome. -/
inductive CheckpointError where
  | notConfigured
  | directory (cause : SettingsError)
  | engine (cause : EngineError)
  | signal (cause : SignalError)
  | forbiddenStep (cause : ForbiddenStep)
  deriving DecidableEq, Repr

def CheckpointError.message : CheckpointError → String
  | .notConfigured => "Checkpoint is not configured (no checkpoint directory)"
  | .directory cause => s!"Checkpoint directory error: {cause.message}"
  | .engine cause => s!"Engine invocation failed: {cause.message}"
  | .signal cause => s!"Restore signal protocol violation: {cause.message}"
  | .forbiddenStep cause => s!"Invalid state transition: {cause.message}"

/-- Any failure of the library. -/
inductive Failure where
  | settings (cause : SettingsError)
  | settingsNotFound (path : String)
  | settingsUnreadable (reason : String)
  | checkpoint (cause : CheckpointError)
  | engine (cause : EngineError)
  | channel (cause : ChannelError)
  | io (context cause : String)
  deriving DecidableEq, Repr

def Failure.message : Failure → String
  | .settings cause => s!"Configuration error: {cause.message}"
  | .settingsNotFound path => s!"Configuration file not found: {path}"
  | .settingsUnreadable reason => s!"Configuration parse error: {reason}"
  | .checkpoint cause => s!"Checkpoint error: {cause.message}"
  | .engine cause => s!"Engine error: {cause.message}"
  | .channel cause => s!"Parameter channel error: {cause.message}"
  | .io context cause => s!"IO error: {context} - {cause}"

end Thaw
