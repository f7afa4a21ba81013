import Thaw.Errno
import Thaw.Error
import Thaw.Segment.Id
import Thaw.Text.Octets

namespace Thaw.Segment

/-- An open object with a position of its own. -/
structure Handle where
  object : Nat
  offset : Nat
  writable : Bool
  deriving DecidableEq, Repr

/-- Names lead to objects by their place in `objects`; handles are known by their place in `handles`,
and a closed one leaves its place empty. An object whose name is removed is left to the handles that
are open on it. -/
structure Memory where
  names : List (Int32 × Nat)
  objects : List Bytes
  handles : List (Option Handle)
  deriving DecidableEq, Repr

inductive WriteFate where
  /-- At most `limit` bytes are written. -/
  | wrote (limit : Nat)
  | failed (errno : Errno)
  deriving DecidableEq, Repr

/-- The fate of each write by its offset and length. The writes of one hand-over start at different
offsets, so these functions cover every sequence of fates. -/
abbrev WritePolicy := (offset length : Nat) → WriteFate

namespace WritePolicy

def unlimited : WritePolicy := fun _ length => .wrote length

/-- Files may not grow beyond `size`: a write that starts there fails, one that reaches beyond is cut. -/
def sizeLimit (size : Nat) : WritePolicy := fun offset length =>
  if size ≤ offset then .failed .fileTooLarge else .wrote (min length (size - offset))

end WritePolicy

/-- What becomes of the calls of a reader: each is carried out, or refused for a cause. -/
structure ReaderFate where
  opening : Option Errno
  unlinking : Option Errno
  reading : Option Errno
  deriving DecidableEq, Repr

def ReaderFate.granted : ReaderFate := ⟨none, none, none⟩

namespace Memory

def empty : Memory := ⟨[], [], []⟩

def lookup? (m : Memory) (id : Int32) : Option Nat := m.names.lookup id

def dropName (m : Memory) (id : Int32) : Memory :=
  { m with names := m.names.filter fun n => n.1 != id }

def content (m : Memory) (object : Nat) : Bytes := m.objects[object]?.getD []

def handle? (m : Memory) (h : Nat) : Option Handle := m.handles[h]?.join

def addHandle (m : Memory) (handle : Handle) : Memory × Nat :=
  ({ m with handles := m.handles ++ [some handle] }, m.handles.length)

def openError (id : Int32) (call : String) (errno : Errno) : ChannelError :=
  .openFailed (nameOf id) s!"{call} failed: {errno.message}"

/-- Opens segment `id` empty for reading and writing. A live object of the name is cut to nothing and
shared; otherwise there is a new object. Without `room` for another descriptor nothing happens. -/
def create (m : Memory) (room : Bool) (id : Int32) : Except ChannelError (Memory × Nat) :=
  if !room then .error (openError id "shm_open" .tooManyOpenFiles)
  else match m.lookup? id with
    | some object =>
      .ok ({ m with objects := m.objects.set object [] }.addHandle ⟨object, 0, true⟩)
    | none =>
      let object := m.objects.length
      .ok ({ m with names := (id, object) :: m.names, objects := m.objects ++ [[]] }.addHandle
        ⟨object, 0, true⟩)

/-- Opens segment `id` for reading and removes its name, so that nobody else can open it. Where the
name cannot be removed it stays, and the segment is open all the same. -/
def openAndUnlink (m : Memory) (fate : ReaderFate) (id : Int32) :
    Except ChannelError (Memory × Nat) :=
  match fate.opening with
  | some errno => .error (openError id "shm_open" errno)
  | none =>
    match m.lookup? id with
    | none => .error (openError id "shm_open" .noEntry)
    | some object =>
      let left := if fate.unlinking.isNone then m.dropName id else m
      .ok (left.addHandle ⟨object, 0, false⟩)

def unlink (m : Memory) (id : Int32) : Except ChannelError Memory :=
  match m.lookup? id with
  | some _ => .ok (m.dropName id)
  | none => .error (openError id "shm_unlink" .noEntry)

def close (m : Memory) (h : Nat) : Memory × Bool :=
  ({ m with handles := m.handles.set h none }, (m.handle? h).isSome)

/-- `old` with `new` written at `offset`; what lies between is filled with zeros. -/
def overwrite (old : Bytes) (offset : Nat) (new : Bytes) : Bytes :=
  old.take offset ++ List.replicate (offset - old.length) 0 ++ new ++ old.drop (offset + new.length)

/-- Stores bytes at the position of a handle and moves it behind them. -/
def store (m : Memory) (h : Nat) (handle : Handle) (bytes : Bytes) : Memory :=
  { m with
    objects :=
      m.objects.set handle.object (overwrite (m.content handle.object) handle.offset bytes)
    handles := m.handles.set h (some { handle with offset := handle.offset + bytes.length }) }

def writeError (errno : Errno) : ChannelError := .writeFailed errno.message

/-- Writes all the bytes in one call; a short write fails, though what it wrote stays. -/
def write (policy : WritePolicy) (m : Memory) (h : Nat) (bytes : Bytes) :
    Memory × Except ChannelError Unit :=
  if bytes.isEmpty then (m, .ok ())
  else match m.handle? h with
    | none => (m, .error (writeError .badDescriptor))
    | some handle =>
      if !handle.writable then (m, .error (writeError .badDescriptor))
      else match policy handle.offset bytes.length with
        | .failed errno => (m, .error (writeError errno))
        | .wrote limit =>
          let part := bytes.take limit
          (m.store h handle part,
            if part.length = bytes.length then .ok ()
            else .error (.truncatedWrite bytes.length part.length))

def readAll (m : Memory) (h : Nat) : Memory × Except ChannelError Bytes :=
  match m.handle? h with
  | none => (m, .error (.readFailed Errno.badDescriptor.message))
  | some handle =>
    let bytes := (m.content handle.object).drop handle.offset
    let moved := { handle with offset := handle.offset + bytes.length }
    ({ m with handles := m.handles.set h (some moved) }, .ok bytes)

end Memory

end Thaw.Segment
