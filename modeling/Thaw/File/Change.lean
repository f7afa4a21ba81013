import Thaw.File.Tree
import Thaw.Ledger.Marking

namespace Thaw.FileTree

def setNode (t : FileTree) (e : Nat) (f : FileNode → FileNode) : FileTree :=
  match t.entry? e with
  | some entry => { t with nodes := t.nodes.modify entry.node f }
  | none => t

/-- Takes a name away; the file stays with its other names and where it is open. -/
def dropEntry (t : FileTree) (e : Nat) : FileTree :=
  { t with entries := t.entries.modify e fun entry => { entry with isLive := false } }

def addEntry (t : FileTree) (dir : Nat) (name : String) (node : Nat) : FileTree :=
  { t with entries := t.entries ++ [⟨dir, name, node, true⟩] }

/-- Adds a new file on the device of its directory. -/
def add (t : FileTree) (dir : Nat) (name : String) (content : FileContent) (permissions : Nat) :
    FileTree :=
  let device := ((t.node? dir).map (·.device)).getD diskDevice
  let node : FileNode := ⟨device, content, permissions⟩
  addEntry { t with nodes := t.nodes ++ [node] } dir name t.nodes.length

/-- Adds a file under a name that is still free; a symbolic link at the end is not followed. -/
def make (t : FileTree) (here : Nat) (path : String) (content : FileContent) (permissions : Nat)
    (access : Access := .full) : Except Refusal FileTree := do
  match ← t.locate here false names path access with
  | .entry _ => throw (.system .alreadyExists)
  | .absent dir name =>
    if !access.mayChange dir then throw (.system .permissionDenied)
    return t.add dir name content permissions

def makeDirectory (t : FileTree) (here : Nat) (path : String) (permissions : Nat)
    (access : Access := .full) : Except Refusal FileTree :=
  t.make here path .directory permissions access

def makeDirectories (t : FileTree) (path : String) : FileTree :=
  (List.range (names path).length).foldl
    (fun t i =>
      let above := "/" ++ "/".intercalate ((names path).take (i + 1))
      (t.makeDirectory root above openPermissions).toOption.getD t)
    t

def removeDirectory (t : FileTree) (here : Nat) (path : String) (access : Access := .full) :
    Except Refusal FileTree := do
  match ← t.locate here false names path access with
  | .entry e =>
    if !access.mayChange (t.parent e) then throw (.system .permissionDenied)
    else if !t.isDirectory e then throw (.system .notDirectory)
    else if e = root || !(t.children e).isEmpty then throw (.system .notEmpty)
    else return t.dropEntry e
  | .absent _ _ => throw (.system .noEntry)

/-- The bytes of the file behind a path; files that store nothing give away nothing. -/
def contents (t : FileTree) (here : Nat) (path : String) (access : Access := .full) :
    Except Refusal Bytes := do
  match t.content? (← t.find here path true access) with
  | some .directory => throw (.system .isDirectory)
  | some (.data bytes) => return bytes
  | _ => return []

/-- The text of the file behind a path. -/
def readText (t : FileTree) (here : Nat) (path : String) (access : Access := .full) :
    Except Refusal String := do
  match Text.Utf8.decode (← t.contents here path access) with
  | .ok text => return text
  | .error _ => throw .notText

/-- Stores bytes in the file behind a path, which is made if it is missing. Files that store nothing
swallow them. -/
def writeFile (t : FileTree) (here : Nat) (path : String) (bytes : Bytes) (access : Access := .full) :
    Except Refusal FileTree := do
  match ← t.locate here true strictNames path access with
  | .absent dir name =>
    if !access.mayChange dir then throw (.system .permissionDenied)
    return t.add dir name (.data bytes) dataPermissions
  | .entry e =>
    match t.content? e with
    | some .directory => throw (.system .isDirectory)
    | some (.data _) =>
      return t.setNode e fun node => { node with content := .data bytes }
    | _ => return t

/-- The absolute path, free of symbolic links, of the file behind a path. -/
def canonical (t : FileTree) (here : Nat) (path : String) (access : Access := .full) :
    Except Refusal String := do
  return t.path (← t.find here path true access)

def isThere (t : FileTree) (here : Nat) (access : Access) (path : String) : Bool :=
  (t.find here path true access).isOk

def leadsToDirectory (t : FileTree) (here : Nat) (path : String) (access : Access := .full) : Bool :=
  match t.find here path true access with
  | .ok e => t.isDirectory e
  | .error _ => false

/-- What marking sees of the tree. A directory lists the files on its own device; one in which another
device is mounted goes by a file that nothing has open. -/
def view (t : FileTree) (here : Nat) (access : Access) : FileView where
  identity? path := do
    let status ← t.status? (← (t.find here path true access).toOption)
    return status.identity
  entries? path := do
    let dir ← (t.find here path true access).toOption
    guard (t.isDirectory dir)
    let node ← t.node? dir
    return ((t.children dir).filterMap fun e => (t.status? e).map (·.identity)).filter
      fun identity => identity.device == node.device

/-- The live entries that hold something else than they did before, or were not there. -/
def changes (before after : FileTree) : List (String × FileContent) :=
  (List.range after.entries.length).filterMap fun e =>
    if (after.entry? e).any (·.isLive) && after.content? e != before.content? e then
      (after.content? e).map fun content => (after.path e, content)
    else none

def mount (t : FileTree) (path : String) (device : UInt64) : FileTree :=
  match t.find root path true with
  | .ok dir => t.setNode dir fun node => { node with device := device }
  | .error _ => t

/-- A tree with the directories and devices that every system has. -/
def standard : FileTree :=
  let t := ["/dev", "/sys", "/tmp", "/usr/bin"].foldl makeDirectories empty
  let t := (t.mount "/dev" deviceDevice).mount "/sys" systemDevice
  let t := ["/dev/pts", "/sys/fs"].foldl makeDirectories t
  devices.foldl (fun t (path, number) =>
    (t.make root path (.device number) 0o666).toOption.getD t) (t.mount "/dev/pts" terminalDevice)
where
  /-- The device on which device files lie. -/
  deviceDevice : UInt64 := 5
  /-- The device on which the system shows itself. -/
  systemDevice : UInt64 := 22
  /-- The device on which terminals lie. -/
  terminalDevice : UInt64 := 25
  /-- The memory devices and the one that opens terminals. -/
  devices : List (String × DeviceNumber) :=
    [("/dev/null", .make 1 3), ("/dev/zero", .make 1 5), ("/dev/random", .make 1 8),
      ("/dev/urandom", .make 1 9), ("/dev/pts/ptmx", .make 5 2)]

end Thaw.FileTree
