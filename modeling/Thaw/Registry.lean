import Thaw.File.Identity

namespace Thaw

/-- A descriptor with the identity of the file that its owner vouches for. -/
structure Resource where
  fd : Int
  identity : FileIdentity
  deriving DecidableEq, Repr

/-- The descriptors that their owners bring back after a restore, in ascending order and one entry for
each. A registry that is not enabled records nothing. -/
structure Registry where
  isEnabled : Bool
  entries : List Resource
  deriving DecidableEq, Repr

namespace Registry

def empty (isEnabled : Bool) : Registry := ⟨isEnabled, []⟩

inductive Position where
  /-- At the entry of the descriptor. -/
  | found (index : Nat)
  /-- No entry has the descriptor; one would have its place here. -/
  | missing (index : Nat)
  deriving DecidableEq, Repr

/-- Searches the entries from `low` up to `high`, which are in ascending order. -/
def seek (entries : List Resource) (fd : Int) (low high : Nat) (inside : high ≤ entries.length) :
    Position :=
  if h : low < high then
    let middle := low + (high - low) / 2
    have : middle < entries.length := by omega
    if entries[middle].fd = fd then .found middle
    else if entries[middle].fd < fd then seek entries fd (middle + 1) high inside
    else seek entries fd low middle (by omega)
  else .missing low
termination_by high - low

def position (reg : Registry) (fd : Int) : Position :=
  seek reg.entries fd 0 reg.entries.length (Nat.le_refl _)

/-- Puts a resource at its place, instead of one with the same descriptor. Negative numbers are no
descriptors and are ignored. -/
def register (reg : Registry) (r : Resource) : Registry :=
  if reg.isEnabled && 0 ≤ r.fd then
    match reg.position r.fd with
    | .found index => { reg with entries := reg.entries.set index r }
    | .missing index => { reg with entries := reg.entries.insertIdx index r }
  else reg

/-- Removes an entry only where descriptor and identity both agree. -/
def deregister (reg : Registry) (r : Resource) : Registry :=
  if reg.isEnabled then { reg with entries := reg.entries.erase r } else reg

def get? (reg : Registry) (fd : Int) : Option Resource :=
  match reg.position fd with
  | .found index => reg.entries[index]?
  | .missing _ => none

def take (reg : Registry) : List Resource × Registry := (reg.entries, { reg with entries := [] })

def size (reg : Registry) : Nat := reg.entries.length

end Registry

end Thaw
