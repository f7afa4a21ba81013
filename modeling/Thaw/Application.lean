import Thaw.Settings

namespace Thaw

structure Application where
  settings : RuntimeSettings
  commandLine : String
  /-- Whether it can write out its heap. -/
  dumpsHeap : Bool
  /-- Garbage collections so far. -/
  collections : Nat
  deriving DecidableEq, Repr

namespace Application

def start (settings : RuntimeSettings) (commandLine : String) (dumpsHeap : Bool) : Application :=
  ⟨settings, commandLine, dumpsHeap, 0⟩

def collect (a : Application) : Application := { a with collections := a.collections + 1 }

/-- The properties as another process receives them. -/
def systemProperties (a : Application) : List String := a.settings.properties.map (·.text)

end Application

end Thaw
