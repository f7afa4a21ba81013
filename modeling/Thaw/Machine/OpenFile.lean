import Thaw.Ledger.Slot
import Thaw.Socket.Table
import Thaw.StatusFlags

namespace Thaw

/-- What an open file is open on. The numbers of pipes, sockets and memory files are their own. -/
inductive OpenObject where
  /-- A file by the entry through which it was opened. -/
  | file (entry : Nat)
  | pipe (number : Nat)
  | socket (number : Nat)
  /-- A facility without a file, such as `eventfd`. All of these share one identity. -/
  | facility (name : String)
  /-- A file in memory, which has no name in any directory. -/
  | memory (name : String) (number : Nat)
  deriving DecidableEq, Repr

structure OpenFile where
  object : OpenObject
  flags : StatusFlags
  /-- Whether it only names its file; its flags cannot be set. -/
  isPathOnly : Bool
  deriving DecidableEq, Repr

namespace OpenObject

/-- The devices of objects that lie in no directory. -/
def pipeDevice : UInt64 := 13

def socketDevice : UInt64 := 8

def facilityDevice : UInt64 := 14

def memoryDevice : UInt64 := 1

/-- Inode numbers of these objects begin here; they are none of the numbers of files in
directories. -/
def firstInode : Nat := 70001

def inode (number : Nat) : UInt64 := .ofNat (firstInode + number)

/-- The inode number that all facilities share. -/
def facilityInode : UInt64 := 69000

/-- The status and the link of an object that is no file in a directory. -/
def unnamed? : OpenObject → Option (FileStatus × String)
  | file _ => none
  | pipe number => some (plain ⟨pipeDevice, inode number⟩ .fifo 1, s!"pipe:[{inode number}]")
  | socket number => some (plain ⟨socketDevice, inode number⟩ .socket 1, s!"socket:[{inode number}]")
  | facility name => some (plain ⟨facilityDevice, facilityInode⟩ .unknown 1, s!"anon_inode:[{name}]")
  | memory name number =>
    some (plain ⟨memoryDevice, inode number⟩ .regular 0, s!"/memfd:{name} (deleted)")
where
  plain (identity : FileIdentity) (kind : FileKind) (links : Nat) : FileStatus :=
    ⟨identity, kind, links, ⟨0⟩⟩

end OpenObject

end Thaw
