import Thaw.File.Identity
import Thaw.File.Kind

namespace Thaw

/-- Marks on a descriptor. -/
structure Marks where
  /-- Held by the archive cache of the runtime. -/
  zipCache : Bool
  /-- The file cannot be made again from its path. -/
  cannotRestore : Bool
  /-- The file is on the class path or lies in an extension directory. -/
  classPath : Bool
  /-- Its owner brings it back. -/
  isPersistent : Bool
  deriving DecidableEq, Repr

namespace Marks

def none : Marks := ⟨false, false, false, false⟩

def onlyZipCache : Marks := { none with zipCache := true }

def onlyCannotRestore : Marks := { none with cannotRestore := true }

def onlyClassPath : Marks := { none with classPath := true }

def onlyPersistent : Marks := { none with isPersistent := true }

def union (a b : Marks) : Marks :=
  ⟨a.zipCache || b.zipCache, a.cannotRestore || b.cannotRestore, a.classPath || b.classPath,
   a.isPersistent || b.isPersistent⟩

/-- Whether `a` has every mark of `b`. -/
def includes (a b : Marks) : Bool :=
  (!b.zipCache || a.zipCache) && (!b.cannotRestore || a.cannotRestore) &&
    (!b.classPath || a.classPath) && (!b.isPersistent || a.isPersistent)

end Marks

/-- What is known of an open file. -/
structure FileStatus where
  identity : FileIdentity
  kind : FileKind
  links : Nat
  device : DeviceNumber
  deriving DecidableEq, Repr

inductive Slot.State where
  | closed
  /-- The first descriptor of its open file. -/
  | root
  /-- Shares the open file of the descriptor `fd`. -/
  | aliasOf (fd : Nat)
  deriving DecidableEq, Repr

structure Slot where
  fd : Nat
  state : Slot.State
  marks : Marks
  status : Option FileStatus
  /-- What the descriptor is linked to, such as a path or `pipe:[7]`. -/
  target : Option String
  deriving DecidableEq, Repr

namespace Slot

def closed (fd : Nat) : Slot := ⟨fd, .closed, .none, none, none⟩

/-- A descriptor that is open and not yet compared with others. -/
def opened (fd : Nat) (status : FileStatus) (target : Option String) : Slot :=
  ⟨fd, .root, .none, some status, target⟩

def isRoot (s : Slot) : Bool := s.state == .root

def isClosed (s : Slot) : Bool := s.state == .closed

def identity? (s : Slot) : Option FileIdentity := s.status.map (·.identity)

def mark (s : Slot) (marks : Marks) : Slot := { s with marks := s.marks.union marks }

end Slot

end Thaw
