import Thaw.Text.Octets
import Thaw.Text.Split

namespace Thaw

/-- The variables of a process with their values, each name once. -/
structure Environment where
  bindings : List (Bytes × Bytes)
  deriving DecidableEq, Repr

namespace Environment

def empty : Environment := ⟨[]⟩

def get? (env : Environment) (name : Bytes) : Option Bytes := env.bindings.lookup name

def erase (env : Environment) (name : Bytes) : Environment :=
  ⟨env.bindings.filter fun v => v.1 != name⟩

/-- Gives `name` a value; a variable that is already there keeps its place. -/
def set (env : Environment) (name value : Bytes) : Environment :=
  if env.bindings.any fun v => v.1 == name then
    ⟨env.bindings.map fun v => if v.1 == name then (name, value) else v⟩
  else ⟨env.bindings ++ [(name, value)]⟩

/-- The sign `=` between a name and its value. -/
def equals : UInt8 := 61

/-- One `NAME=VALUE` entry for each variable. -/
def entries (env : Environment) : List Bytes :=
  env.bindings.map fun (name, value) => name ++ equals :: value

/-- Carries out one entry: `NAME=VALUE` sets a variable and a bare `NAME` removes it; an entry without
a name changes nothing. -/
def apply (env : Environment) (entry : Bytes) : Environment :=
  match Text.cut? (· == equals) entry with
  | some ([], _) => env
  | some (name, value) => env.set name value
  | none => if entry.isEmpty then env else env.erase entry

def applyAll (env : Environment) (entries : List Bytes) : Environment := entries.foldl apply env

/-- Reading and writing by text, for names and values that are texts. -/
def getText? (env : Environment) (name : String) : Option Bytes := env.get? (Bytes.ofString name)

def setText (env : Environment) (name value : String) : Environment :=
  env.set (Bytes.ofString name) (Bytes.ofString value)

end Environment

end Thaw
