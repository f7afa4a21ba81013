import Thaw.Errno
import Thaw.File.Identity
import Thaw.File.Kind
import Thaw.Ledger.Slot
import Thaw.Text.Octets
import Thaw.Text.Split

namespace Thaw

inductive FileContent where
  | directory
  | data (bytes : Bytes)
  | symlink (target : String)
  | fifo
  | device (number : DeviceNumber)
  deriving DecidableEq, Repr

/-- A file apart from its names. -/
structure FileNode where
  /-- The device on which the file lies. -/
  device : UInt64
  content : FileContent
  permissions : Nat
  deriving DecidableEq, Repr

/-- A name of a file in a directory. It goes on to describe the open files that were opened by it
when it is no longer live. -/
structure FileEntry where
  /-- The entry of the directory. -/
  parent : Nat
  name : String
  node : Nat
  isLive : Bool
  deriving DecidableEq, Repr

/-- What a process may do with directories, which are known by their entries. -/
structure Access where
  /-- To look up names in the directory. -/
  maySearch : Nat → Bool
  /-- To give entries to the directory and to take them away. -/
  mayChange : Nat → Bool

/-- A privileged process may do everything. -/
def Access.full : Access := ⟨fun _ => true, fun _ => true⟩

/-- Nodes and entries are known by their places; the entry `0` is the root and its own parent. -/
structure FileTree where
  nodes : List FileNode
  entries : List FileEntry
  deriving DecidableEq, Repr

namespace FileContent

def kind : FileContent → FileKind
  | directory => .directory
  | data _ => .regular
  | symlink _ => .symlink
  | fifo => .fifo
  | device _ => .character

end FileContent

namespace FileTree

def diskDevice : UInt64 := 64769

/-- The permissions of directories and programs unless told otherwise. -/
def openPermissions : Nat := 0o755

/-- The permissions of other files unless told otherwise. -/
def dataPermissions : Nat := 0o644

def empty : FileTree :=
  ⟨[⟨diskDevice, .directory, openPermissions⟩], [⟨0, "", 0, true⟩]⟩

def root : Nat := 0

def entry? (t : FileTree) (e : Nat) : Option FileEntry := t.entries[e]?

def node? (t : FileTree) (e : Nat) : Option FileNode :=
  (t.entry? e).bind fun entry => t.nodes[entry.node]?

def content? (t : FileTree) (e : Nat) : Option FileContent := (t.node? e).map (·.content)

def isDirectory (t : FileTree) (e : Nat) : Bool := t.content? e == some .directory

def symlink? (t : FileTree) (e : Nat) : Option String :=
  match t.content? e with
  | some (.symlink target) => some target
  | _ => none

def parent (t : FileTree) (e : Nat) : Nat := ((t.entry? e).map (·.parent)).getD root

def children (t : FileTree) (dir : Nat) : List Nat :=
  (List.range t.entries.length).filter fun e =>
    e != root && (t.entry? e).any fun entry => entry.isLive && entry.parent == dir

def child? (t : FileTree) (dir : Nat) (name : String) : Option Nat :=
  (t.children dir).find? fun e => (t.entry? e).any fun entry => entry.name == name

/-- The names on a path; neighbouring slashes count as one. -/
def names (path : String) : List String :=
  (Text.split (· == '/') path.toList |>.filter fun name => !name.isEmpty).map String.ofList

/-- The names on a path that has to lead to a directory when it ends in a slash. -/
def strictNames (path : String) : List String :=
  if path.toList.getLast? == some '/' then names path ++ ["."] else names path

/-- Where the way along a path begins. -/
def origin (here : Nat) (path : String) : Nat :=
  if path.toList.head? == some '/' then root else here

/-- Where a path leads. -/
inductive Place where
  | entry (e : Nat)
  /-- The directory is there and has no such name. -/
  | absent (dir : Nat) (name : String)
  deriving DecidableEq, Repr

/-- Where the way along names ends. -/
inductive Stretch where
  | done (place : Place)
  /-- At a symbolic link in `dir`, with names left. -/
  | link (dir : Nat) (target : String) (rest : List String)
  deriving DecidableEq, Repr

/-- Goes along names up to their end or to the first symbolic link on the way. A link at the end
counts only if it is to be followed. -/
def descend (t : FileTree) (access : Access) (follow : Bool) (here : Nat) :
    List String → Except Errno Stretch
  | [] => .ok (.done (.entry here))
  | name :: rest =>
    if !t.isDirectory here then .error .notDirectory
    else if !access.maySearch here then .error .permissionDenied
    else if name = "." then t.descend access follow here rest
    else if name = ".." then t.descend access follow (t.parent here) rest
    else match t.child? here name with
      | none => if rest.isEmpty then .ok (.done (.absent here name)) else .error .noEntry
      | some e =>
        match t.symlink? e with
        | none => t.descend access follow e rest
        | some target =>
          if rest.isEmpty && !follow then .ok (.done (.entry e)) else .ok (.link here target rest)

/-- Goes along names and follows at most `links` symbolic links. -/
def walk (t : FileTree) (access : Access) (follow : Bool) :
    (links : Nat) → (here : Nat) → List String → Except Errno Place
  | links, here, names =>
    match t.descend access follow here names with
    | .error e => .error e
    | .ok (.done place) => .ok place
    | .ok (.link dir target rest) =>
      match links with
      | 0 => .error .symlinkLoop
      | links + 1 => t.walk access follow links (origin dir target) (strictNames target ++ rest)

/-- The number of symbolic links that one path may lead through. -/
def maxLinks : Nat := 40

/-- Where the names of a path lead, from the directory `here` unless the path is absolute. -/
def locate (t : FileTree) (here : Nat) (follow : Bool) (names : String → List String)
    (path : String) (access : Access := .full) : Except Refusal Place :=
  if path.toList.contains '\x00' then .error .nulInPath
  else if path.isEmpty then .error (.system .noEntry)
  else (t.walk access follow maxLinks (origin here path) (names path)).mapError .system

def find (t : FileTree) (here : Nat) (path : String) (follow : Bool) (access : Access := .full) :
    Except Refusal Nat := do
  match ← t.locate here follow strictNames path access with
  | .entry e => return e
  | .absent _ _ => throw (.system .noEntry)

/-- The names from the root down to an entry, of which there are at most `depth`. -/
def trail (t : FileTree) : (depth : Nat) → Nat → List String
  | 0, _ => []
  | depth + 1, e =>
    if e = root then []
    else t.trail depth (t.parent e) ++ [((t.entry? e).map (·.name)).getD ""]

/-- The absolute path of an entry, free of symbolic links. -/
def path (t : FileTree) (e : Nat) : String := "/" ++ "/".intercalate (t.trail t.entries.length e)

/-- How the system shows an entry by which a file is open. -/
def link (t : FileTree) (e : Nat) : String :=
  if (t.entry? e).any (·.isLive) then t.path e else t.path e ++ " (deleted)"

/-- The inode numbers of the disk begin here, far beyond those of other devices. -/
def firstInode : Nat := 1000003

/-- The inode number of a node on its device. Devices other than the disk count their files from one, so
that the same numbers occur on each of them. -/
def inode (t : FileTree) (device : UInt64) (node : Nat) : UInt64 :=
  if device = diskDevice then .ofNat (firstInode + node)
  else .ofNat ((t.nodes.take node).countP (fun n => n.device == device) + 1)

/-- The number of live names of a node. -/
def links (t : FileTree) (node : Nat) : Nat :=
  (t.entries.filter fun entry => entry.isLive && entry.node == node).length

def status? (t : FileTree) (e : Nat) : Option FileStatus := do
  let entry ← t.entry? e
  let node ← t.nodes[entry.node]?
  let number : DeviceNumber :=
    match node.content with
    | .device number => number
    | _ => ⟨0⟩
  return ⟨⟨node.device, t.inode node.device entry.node⟩, node.content.kind, t.links entry.node,
    number⟩

end FileTree

end Thaw
