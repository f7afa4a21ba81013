import Thaw.Error
import Thaw.Settings

namespace Thaw

/-- An engine by the path of its program. -/
structure Engine where
  path : String
  deriving DecidableEq, Repr

/-- How a program that was started came to its end. -/
inductive Ending where
  | exited (code : Nat)
  | killed (signal : Nat)
  deriving DecidableEq, Repr

namespace Engine

def under (dir name : String) : String :=
  if dir.isEmpty then name
  else if dir.toList.getLast? == some '/' then dir ++ name
  else dir ++ "/" ++ name

/-- An absolute engine is taken as it is. Any other name is looked up under `installDir`, where it has
to exist. -/
def resolve (isThere : String → Bool) (installDir name : String) : Except EngineError Engine :=
  if name.isEmpty then .error (.invalidEngine "Engine name cannot be empty")
  else if Settings.isAbsolute name then .ok ⟨name⟩
  else
    let path := under installDir name
    if isThere path then .ok ⟨path⟩ else .error (.binaryNotFound path)

def checkpointArguments (dir : String) : List String := ["checkpoint", dir]

def restoreArguments (dir : String) : List String := ["restore", dir]

/-- Only an engine that exits with zero has written an image. -/
def checkpointResult (engine : Engine) (run : Except String Ending) : Except EngineError Unit :=
  match run with
  | .error cause => .error (.spawnFailed s!"Failed to execute {engine.path}: {cause}")
  | .ok (.exited 0) => .ok ()
  | .ok (.exited code) => .error (.exitStatus code)
  | .ok (.killed signal) => .error (.abnormalTermination s!"killed by signal {signal}")

end Engine

end Thaw
