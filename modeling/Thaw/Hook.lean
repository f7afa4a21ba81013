import Thaw.Machine.Basic
import Thaw.Restore

namespace Thaw.Hook

/-- The variable that names the step. -/
def actionName : String := "CRTOOLS_SCRIPT_ACTION"

def imageDirName : String := "CRTOOLS_IMAGE_DIR"

def processName : String := "CRTOOLS_INIT_PID"

/-- The file in the directory of the image that records its path. -/
def pathFile : String := "cppath"

inductive HookError where
  | missingVariable (name : String)
  | invalidValue (name value : String)
  | imageDir (path cause : String)
  | signal (cause : SignalError)
  deriving DecidableEq, Repr

def HookError.message : HookError → String
  | .missingVariable name => s!"Cannot find {name} env"
  | .invalidValue name value => s!"Invalid value '{value}' in {name}"
  | .imageDir path cause => s!"Cannot record image dir {path}: {cause}"
  | .signal cause => cause.message

/-- A variable with a text; other values count as missing. -/
def text? (env : Environment) (name : String) : Option String :=
  (env.getText? name).bind fun value => (Text.Utf8.decode value).toOption

def require (env : Environment) (name : String) : Except HookError String :=
  match text? env name with
  | some value => .ok value
  | none => .error (.missingVariable name)

/-- Records the real path of the directory of the image in that directory. -/
def recordImage (m : Machine) (dir : String) : Except Refusal Machine := do
  let real ← m.tree.canonical m.here dir m.access
  let tree ← m.tree.writeFile m.here (Engine.under real pathFile) (Bytes.ofString real) m.access
  return { m with tree := tree }

/-- Wakes the restored process and announces the exported segment to it. -/
def wake (m : Machine) (env : Environment) : Except HookError Machine := do
  let process ← require env processName
  let some pid := Text.Numeral.int32? 10 (Text.trim process.toList)
    | throw (.invalidValue processName process)
  let announced := text? env Restore.exportName
  let some payload := resumePayload? announced
    | throw (.invalidValue Restore.exportName (announced.getD ""))
  (m.notify pid payload).mapError .signal

def run (m : Machine) (env : Environment) : Except HookError Machine := do
  match ← require env actionName with
  | "post-dump" =>
    let dir ← require env imageDirName
    (recordImage m dir).mapError fun cause => .imageDir dir cause.message
  | "post-resume" => wake m env
  | _ => return m

end Thaw.Hook
