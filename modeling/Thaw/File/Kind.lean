namespace Thaw

inductive FileKind where
  | socket
  | symlink
  | regular
  | block
  | directory
  | character
  | fifo
  | unknown
  deriving DecidableEq, Repr

namespace FileKind

def all : List FileKind :=
  [socket, symlink, regular, block, directory, character, fifo, unknown]

def name : FileKind → String
  | socket => "socket"
  | symlink => "symlink"
  | regular => "regular"
  | block => "block"
  | directory => "directory"
  | character => "character"
  | fifo => "fifo"
  | unknown => "unknown"

/-- The type bits are the four bits above the lowest twelve. -/
def ofMode (mode : UInt32) : FileKind :=
  match mode.toNat / 0x1000 % 0x10 with
  | 0o14 => socket
  | 0o12 => symlink
  | 0o10 => regular
  | 0o06 => block
  | 0o04 => directory
  | 0o02 => character
  | 0o01 => fifo
  | _ => unknown

end FileKind

/-- The number of a device file: major and minor are interleaved in one word. -/
structure DeviceNumber where
  word : UInt64
  deriving DecidableEq, Repr

namespace DeviceNumber

/-- Bits 8 to 19 are the low and bits 44 to 63 the high part of the major number. -/
def major (d : DeviceNumber) : Nat :=
  d.word.toNat / 0x100000000000 * 0x1000 + d.word.toNat / 0x100 % 0x1000

/-- Bits 0 to 7 are the low and bits 20 to 43 the high part of the minor number. -/
def minor (d : DeviceNumber) : Nat :=
  d.word.toNat / 0x100000 % 0x1000000 * 0x100 + d.word.toNat % 0x100

def make (major minor : Nat) : DeviceNumber :=
  ⟨.ofNat (major / 0x1000 * 0x100000000000 + minor / 0x100 * 0x100000 + major % 0x1000 * 0x100 +
    minor % 0x100)⟩

/-- The memory devices `random` and `urandom`, which every system has. -/
def isRandom (d : DeviceNumber) : Bool :=
  d.major = 1 && (d.minor = 8 || d.minor = 9)

end DeviceNumber

end Thaw
