import Thaw.Ledger.Slot
import Thaw.Ledger.SillyName
import Thaw.Registry

namespace Thaw

/-- Slot `fd` of the ledger describes the descriptor `fd`; there are no slots behind the last open
one. -/
structure Ledger where
  slots : List Slot
  deriving DecidableEq, Repr

namespace Ledger

/-- One more than the largest descriptor. -/
def extent (records : List Slot) : Nat := records.foldl (fun n r => max n (r.fd + 1)) 0

/-- Each descriptor up to the largest one, closed if it is not listed; of several records of one
descriptor the first counts. -/
def arrange (records : List Slot) : Ledger :=
  ⟨(List.range (extent records)).map fun fd =>
    (records.find? fun r => r.fd == fd).getD (.closed fd)⟩

def isUnrestorable (s : Slot) : Bool :=
  s.isRoot && (s.status.any (fun status => status.links == 0) || s.target.any isGone)

def markUnrestorable (l : Ledger) : Ledger :=
  ⟨l.slots.map fun s => if isUnrestorable s then s.mark .onlyCannotRestore else s⟩

/-- The ledger of prepared records, without a search for aliases. -/
def ofRecords (records : List Slot) : Ledger := (arrange records).markUnrestorable

/-- Folds each root slot onto the first of the earlier `roots` with its identity and its open file. -/
def foldAliases (sameOpenFile : Nat → Nat → Bool) (roots : List Slot) : List Slot → List Slot
  | [] => []
  | s :: rest =>
    if s.isRoot then
      match roots.find? fun r => s.identity? == r.identity? && sameOpenFile s.fd r.fd with
      | some r => { s with state := .aliasOf r.fd } :: foldAliases sameOpenFile roots rest
      | none => s :: foldAliases sameOpenFile (roots ++ [s]) rest
    else s :: foldAliases sameOpenFile roots rest

def detectAliases (sameOpenFile : Nat → Nat → Bool) (l : Ledger) : Ledger :=
  ⟨foldAliases sameOpenFile [] l.slots⟩

def build (sameOpenFile : Nat → Nat → Bool) (records : List Slot) : Ledger :=
  ((arrange records).detectAliases sameOpenFile).markUnrestorable

def size (l : Ledger) : Nat := l.slots.length

/-- Any number may be asked for; a negative one has no slot. -/
def get? (l : Ledger) (fd : Int) : Option Slot := if 0 ≤ fd then l.slots[fd.toNat]? else none

/-- Descriptors behind the last slot are closed. -/
def state (l : Ledger) (fd : Int) : Slot.State :=
  match l.get? fd with
  | some s => s.state
  | none => .closed

def openSlots (l : Ledger) : List Slot := l.slots.filter fun s => !s.isClosed

def openDescriptors (l : Ledger) : List Nat := l.openSlots.map (·.fd)

end Ledger

end Thaw
