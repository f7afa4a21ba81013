import Thaw.Ledger.Marking
import Thaw.Socket.Table

namespace Thaw

/-- Kinds of blocking descriptors. -/
inductive BlockerKind where
  | socket
  /-- Regular files, links, directories and device files. -/
  | fileLike
  | pipe
  | generic
  deriving DecidableEq, Repr

namespace BlockerKind

def ofFile : FileKind → BlockerKind
  | .socket => socket
  | .symlink | .regular | .block | .directory | .character => fileLike
  | .fifo => pipe
  | .unknown => generic

def name : BlockerKind → String
  | socket => "socket"
  | fileLike => "file"
  | pipe => "pipe"
  | generic => "generic"

end BlockerKind

/-- A descriptor that blocks the checkpoint. -/
structure Blocker where
  fd : Int
  kind : BlockerKind
  /-- The link of the descriptor, or the addresses of a socket. -/
  message : String
  deriving DecidableEq, Repr

def Blocker.text (b : Blocker) : String := s!"fd {b.fd} ({b.kind.name}): {b.message}"

inductive Verdict where
  /-- Open before checkpoints were armed. -/
  | inherited
  | randomDevice
  | classPath
  | persistent
  /-- The connection over which the checkpoint was asked for. -/
  | controlSocket
  /-- Shares the open file of the descriptor `root`. -/
  | duplicate (root : Nat)
  | blocked (kind : BlockerKind)
  deriving DecidableEq, Repr

namespace Verdict

def isOk : Verdict → Bool
  | blocked _ => false
  | _ => true

def reason : Verdict → String
  | inherited => "OK: inherited from process env"
  | randomDevice => "OK: always available, random or urandom"
  | classPath => "OK: in classpath"
  | persistent => "OK: assured persistent"
  | controlSocket => "OK: control socket"
  | duplicate _ => "OK: duplicate"
  | blocked _ => "BAD: opened by application"

end Verdict

/-- The verdict on one descriptor. -/
structure Decision where
  fd : Nat
  kind : FileKind
  verdict : Verdict
  details : String
  deriving DecidableEq, Repr

def Decision.blocker? (d : Decision) : Option Blocker :=
  match d.verdict with
  | .blocked kind => some ⟨d.fd, kind, d.details⟩
  | _ => none

/-- What the judgement depends on besides the ledger. -/
structure Policy where
  inherited : List Int
  isControlSocket : Nat → Bool
  sockets : Socket.Tables
  printResources : Bool

namespace Policy

def judge (p : Policy) (s : Slot) (status : FileStatus) : Verdict :=
  match s.state with
  | .aliasOf root => .duplicate root
  | _ =>
    if p.inherited.contains (s.fd : Int) then .inherited
    else if status.kind = .character ∧ status.device.isRandom then .randomDevice
    else if s.marks.classPath ∧ ¬ s.marks.cannotRestore then .classPath
    else if s.marks.isPersistent then .persistent
    else if status.kind = .socket ∧ p.isControlSocket s.fd then .controlSocket
    else .blocked (.ofFile status.kind)

/-- Only a blocking socket is looked up in the tables; all else is described by its link. -/
def details (p : Policy) (verdict : Verdict) (target : String) : String :=
  match verdict with
  | .blocked .socket => p.sockets.details target
  | _ => target

/-- No decision is taken on a slot of which nothing is known. -/
def decide? (p : Policy) (s : Slot) : Option Decision :=
  s.status.map fun status =>
    let verdict := p.judge s status
    ⟨s.fd, status.kind, verdict, p.details verdict (s.target.getD "")⟩

end Policy

/-- Whether a log line is shown by default. -/
inductive LogLevel where
  | info
  | debug
  deriving DecidableEq, Repr

def LogLevel.name : LogLevel → String
  | .info => "INFO"
  | .debug => "DEBUG"

structure LogLine where
  level : LogLevel
  fd : Nat
  kind : FileKind
  details : String
  reason : String
  deriving DecidableEq, Repr

/-- The decisions of one pass, in ascending order of descriptors, and the descriptors that block. -/
structure Report where
  decisions : List Decision
  blockers : List Blocker
  deriving DecidableEq, Repr

namespace Report

def isClean (r : Report) : Bool := r.blockers.isEmpty

def log (p : Policy) (r : Report) : List LogLine :=
  let level : LogLevel := if p.printResources then .info else .debug
  r.decisions.map fun d => ⟨level, d.fd, d.kind, d.details, d.verdict.reason⟩

end Report

/-- Judges every open descriptor. -/
def classify (p : Policy) (l : Ledger) : Report :=
  let decisions := l.openSlots.filterMap p.decide?
  ⟨decisions, decisions.filterMap (·.blocker?)⟩

end Thaw
