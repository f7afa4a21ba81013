import Thaw.Error
import Thaw.Properties

namespace Thaw

/-- The name of the engine unless the settings say otherwise. -/
def defaultEngine : String := "criuengine"

/-- Settings of the checkpoint itself that hold. -/
structure CheckpointSettings where
  /-- Where images are written. Without it there are no checkpoints. -/
  checkpointTo : Option String
  /-- Where the image to restore lies. -/
  restoreFrom : Option String
  /-- The engine: an absolute path, or a name under `engineDir`. -/
  engine : String
  engineDir : Option String
  /-- Whether a checkpoint is taken even when descriptors block it. -/
  ignoreFailures : Bool
  heapDumpOnFailure : Bool
  /-- Whether every decision on a descriptor is logged where it is seen. -/
  printResources : Bool
  /-- Whether descriptors are judged and the engine left alone. -/
  skipEngine : Bool
  traceStartupTime : Bool
  deriving DecidableEq, Repr

namespace CheckpointSettings

def disabled : CheckpointSettings where
  checkpointTo := none
  restoreFrom := none
  engine := defaultEngine
  engineDir := none
  ignoreFailures := false
  heapDumpOnFailure := false
  printResources := false
  skipEngine := false
  traceStartupTime := false

def isEnabled (s : CheckpointSettings) : Bool := s.checkpointTo.isSome

end CheckpointSettings

/-- What an application without a runtime of its own reports about itself. -/
structure RuntimeSettings where
  classPath : String
  bootClassPath : String
  extensionDirs : String
  properties : List Property
  deriving DecidableEq, Repr

def RuntimeSettings.empty : RuntimeSettings := ⟨"", "", "", []⟩

structure Settings where
  checkpoint : CheckpointSettings
  runtime : RuntimeSettings
  deriving DecidableEq, Repr

namespace Settings

/-- Settings as written down: the sections are well formed, and nothing else is known of them. A
section that is left out counts as one without fields. -/
structure Draft where
  checkpoint : Option CheckpointSettings
  runtime : Option RuntimeSettings
  deriving DecidableEq, Repr

/-- A text with each NUL shown as a backslash and a zero. -/
def showNul (text : String) : String :=
  String.ofList (text.toList.flatMap fun c => if c = '\x00' then ['\\', '0'] else [c])

def hasNul (text : String) : Bool := text.toList.contains '\x00'

/-- A directory may be left out but not left empty. -/
def checkDirectory (field : String) : Option String → Except SettingsError Unit
  | some "" => .error (.invalidValue field "" "Directory cannot be empty")
  | _ => .ok ()

def checkEngine (engine : String) : Except SettingsError Unit :=
  if engine.isEmpty then .error (.missingField "engine" "checkpoint section")
  else if hasNul engine then
    .error (.invalidValue "engine" (showNul engine) "Engine path cannot contain NUL")
  else .ok ()

def isAbsolute (path : String) : Bool := path.toList.head? == some '/'

def checkEngineDir : Option String → Except SettingsError Unit
  | none => .ok ()
  | some dir =>
    if isAbsolute dir then .ok ()
    else .error (.invalidValue "engine_dir" dir "Engine directory must be an absolute path")

def isPropertyName (key : String) : Bool :=
  !key.isEmpty && !key.toList.contains '=' && !hasNul key

def checkPropertyName (p : Property) : Except SettingsError Unit :=
  if isPropertyName p.key then .ok ()
  else .error (.invalidValue "properties" p.key
    "Property names must be non-empty and contain no '=' or NUL")

def checkPropertyValue (p : Property) : Except SettingsError Unit :=
  if hasNul p.value then
    .error (.invalidValue "properties" (showNul p.value) "Property values cannot contain NUL")
  else .ok ()

def checkCheckpoint (s : CheckpointSettings) : Except SettingsError Unit := do
  checkDirectory "checkpoint_to" s.checkpointTo
  checkDirectory "restore_from" s.restoreFrom
  checkEngine s.engine
  checkEngineDir s.engineDir

/-- Every name is checked before any value. -/
def checkRuntime (s : RuntimeSettings) : Except SettingsError Unit := do
  s.properties.forM checkPropertyName
  s.properties.forM checkPropertyValue

/-- The settings of a draft, or the first rule that it violates. -/
def ofDraft (draft : Draft) : Except SettingsError Settings := do
  let checkpoint := draft.checkpoint.getD .disabled
  let runtime := draft.runtime.getD .empty
  checkCheckpoint checkpoint
  checkRuntime runtime
  return ⟨checkpoint, runtime⟩

end Settings

end Thaw
