import Thaw.Engine
import Thaw.Parameters.Channel

namespace Thaw.Restore

/-- The variable that names the segment. -/
def exportName : String := "CREST_NEW_ARGS_ID"

/-- What the restoring process leaves behind just before the engine takes its place. -/
structure Prepared where
  memory : Segment.Memory
  environment : Environment
  deriving DecidableEq, Repr

/-- The engine is started even when the hand-over fails. -/
def prepare (policy : Segment.WritePolicy) (memory : Segment.Memory) (room : Bool) (pid : Int32)
    (env : Environment) (properties : List String) (arguments : String) (now : Reading) : Prepared :=
  match (Parameters.capture env properties arguments now).handOver policy memory room pid with
  | (memory, .ok ()) => ⟨memory, env.setText exportName (toString pid.toInt)⟩
  | (memory, .error _) => ⟨memory, env⟩

end Thaw.Restore
