import Thaw.Machine.Basic
import Thaw.Settings.Document

namespace Thaw.Settings

/-- Reads and checks the settings in the file behind a path. -/
def load (m : Machine) (path : String) : Except Failure Settings :=
  if !m.tree.isThere m.here m.access path then .error (.settingsNotFound path)
  else
    match m.tree.readText m.here path m.access with
    | .error cause => .error (.io "reading config file" cause.message)
    | .ok text => parse text

end Thaw.Settings
