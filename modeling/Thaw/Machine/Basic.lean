import Thaw.Clock
import Thaw.Environment
import Thaw.File.Change
import Thaw.Ledger.Marking
import Thaw.Machine.OpenFile
import Thaw.Resume
import Thaw.Segment.Memory

namespace Thaw

structure Machine where
  tree : FileTree
  /-- What the process may do with the directories of the tree. -/
  access : Access
  /-- The working directory. -/
  here : Nat
  /-- The directory in which the program itself is installed. -/
  installDir : String
  openFiles : List OpenFile
  /-- Descriptors with the places of their open files. -/
  descriptors : List (Nat × Nat)
  /-- Whether the system tells if two descriptors share an open file. -/
  comparesOpenFiles : Bool
  sockets : Socket.Tables
  memory : Segment.Memory
  environment : Environment
  /-- The process itself, and the one that started it. -/
  pid : Int32
  starter : Int32
  /-- The restore signals that wait for each process that can be signalled, oldest first. -/
  mailboxes : List (Int32 × List Delivery)
  now : Reading

namespace Machine

def openFile? (m : Machine) (fd : Nat) : Option OpenFile :=
  (m.descriptors.lookup fd).bind fun file => m.openFiles[file]?

/-- Lets a descriptor refer to an open file, in place of what it referred to. -/
def assign (m : Machine) (fd file : Nat) : Machine :=
  { m with descriptors := (fd, file) :: m.descriptors.filter fun d => d.1 != fd }

def addOpenFile (m : Machine) (fd : Nat) (file : OpenFile) : Machine :=
  assign { m with openFiles := m.openFiles ++ [file] } fd m.openFiles.length

/-- A number that no object has yet. -/
def freshNumber (m : Machine) : Nat := m.openFiles.length

def openSocket (m : Machine) (fd : Nat) : Machine :=
  m.addOpenFile fd ⟨.socket m.freshNumber, 2, false⟩

/-- A machine on which a privileged process has nothing open but the standard streams. -/
def start (tree : FileTree) (here installDir : String) (environment : Environment)
    (pid starter : Int32) (now : Reading) : Machine :=
  let m : Machine := {
    tree := tree
    access := .full
    here := (tree.find FileTree.root here true).toOption.getD FileTree.root
    installDir := installDir
    openFiles := []
    descriptors := []
    comparesOpenFiles := true
    sockets := []
    memory := .empty
    environment := environment
    pid := pid
    starter := starter
    mailboxes := [(pid, []), (starter, [])]
    now := now }
  ((m.openSocket 0).openSocket 1).openSocket 2

/-- The status and the link of an open file. -/
def describe? (m : Machine) (file : OpenFile) : Option (FileStatus × String) :=
  match file.object with
  | .file e => (m.tree.status? e).map fun status => (status, m.tree.link e)
  | object => object.unnamed?

def status? (m : Machine) (fd : Nat) : Option FileStatus :=
  ((m.openFile? fd).bind m.describe?).map (·.1)

def link? (m : Machine) (fd : Nat) : Option String :=
  ((m.openFile? fd).bind m.describe?).map (·.2)

def slot? (m : Machine) (fd : Nat) : Option Slot :=
  ((m.openFile? fd).bind m.describe?).map fun (status, link) => .opened fd status (some link)

def statusTable (m : Machine) : StatusTable := ⟨m.descriptors, m.openFiles.map (·.flags)⟩

/-- The flags that a request can change: appending and not waiting. -/
def settableFlags : StatusFlags := 0x400 ||| StatusFlags.nonBlocking

def setFate (m : Machine) (fd : Nat) : SetFate :=
  if (m.openFile? fd).any (·.isPathOnly) then .refused else .taken settableFlags

/-- Whether two descriptors share an open file: as the system tells, or by toggling a flag where it
does not tell. The toggle is taken back, so the machine stays as it was. -/
def sameOpenFile (m : Machine) (fd other : Nat) : Bool :=
  match m.descriptors.lookup fd, m.descriptors.lookup other with
  | some a, some b =>
    if m.comparesOpenFiles then a == b
    else (m.statusTable.sharesByToggle (m.setFate fd) (m.setFate fd) fd other).1
  | _, _ => false

def maxDescriptorLimit : Int := 0x7FFFFFFF

/-- The limit up to which descriptors are looked for, from the limit on open files. -/
def descriptorLimit (openFileLimit : Nat) : Int := min openFileLimit maxDescriptorLimit

/-- How many descriptors are tried one by one where the system does not list them. -/
def probeLimit : Int := 0x100000

/-- The ledger of the open descriptors below `limit`. -/
def ledger (m : Machine) (limit : Int) (canList : Bool) : Ledger :=
  let bound := if canList then limit else min limit probeLimit
  let fds := (m.descriptors.map (·.1)).filter fun (fd : Nat) => (fd : Int) < bound
  .build m.sameOpenFile (fds.filterMap m.slot?)

def view (m : Machine) : FileView := m.tree.view m.here m.access

def post (m : Machine) (pid : Int32) (delivery : Delivery) : Machine :=
  { m with mailboxes := m.mailboxes.map fun (owner, waiting) =>
      if owner = pid then (owner, waiting ++ [delivery]) else (owner, waiting) }

/-- Sends the restore signal with a number to a process. -/
def notify (m : Machine) (pid payload : Int32) : Except SignalError Machine :=
  if (m.mailboxes.lookup pid).isSome then .ok (m.post pid (.queued payload))
  else .error (.notifyFailed pid.toInt Errno.noProcess.message)

/-- Takes the oldest restore signal that waits for a process. Nothing arrives where nothing waits. -/
def await (m : Machine) (pid : Int32) : Except SignalError ResumeToken × Machine :=
  match m.mailboxes.lookup pid with
  | some (delivery :: waiting) =>
    (delivery.token, { m with mailboxes := m.mailboxes.map fun (owner, others) =>
      if owner = pid then (owner, waiting) else (owner, others) })
  | _ => (.error (.waitFailed "nothing has been sent"), m)

end Machine

end Thaw
