import Thaw.Hook

namespace Thaw

/-- What lies outside a process: the programs that it starts, of which nothing is known but what they
leave, and what becomes of its calls on shared memory. -/
structure Host where
  /-- Runs a program with arguments in a process of its own up to its end. -/
  spawn : Machine → String → List String → Except Errno Ending × Machine
  /-- Runs a program with arguments in place of the process up to its end. -/
  replace : Machine → String → List String → Except Errno (Ending × Machine)
  /-- Whether there is room for the descriptor of a new segment. -/
  room : Bool
  writes : Segment.WritePolicy
  reader : Segment.ReaderFate

namespace Host

/-- A host that starts no program and refuses nothing else. -/
def idle : Host where
  spawn m _ _ := (.error .noEntry, m)
  replace _ _ _ := .error .noEntry
  room := true
  writes := .unlimited
  reader := .granted

/-- No text of a request for a program may hold a NUL. -/
def checkTexts (path : String) (arguments : List String) : Except Refusal Unit :=
  if (path :: arguments).any Settings.hasNul then .error .nulInArgument else .ok ()

def start (host : Host) (m : Machine) (path : String) (arguments : List String) :
    Except Refusal Ending × Machine :=
  match checkTexts path arguments with
  | .error cause => (.error cause, m)
  | .ok () =>
    let (result, m) := host.spawn m path arguments
    (result.mapError .system, m)

/-- Lets a program take the place of the process. -/
def exec (host : Host) (m : Machine) (path : String) (arguments : List String) :
    Except Refusal (Ending × Machine) := do
  checkTexts path arguments
  (host.replace m path arguments).mapError .system

end Host

end Thaw
