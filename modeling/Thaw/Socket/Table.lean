import Thaw.Socket.Address
import Thaw.Text.Blank
import Thaw.Text.Numeral
import Thaw.Text.Octets

namespace Thaw.Socket

structure Entry where
  protocol : String
  localAddress : Address
  localPort : UInt16
  remoteAddress : Address
  remotePort : UInt16
  inode : UInt64
  deriving DecidableEq, Repr

def Entry.describe (e : Entry) : String :=
  s!"{e.protocol} localAddr {e.localAddress.text} localPort {e.localPort} " ++
    s!"remoteAddr {e.remoteAddress.text} remotePort {e.remotePort}"

inductive Family where
  | v4
  | v6
  deriving DecidableEq, Repr

/-- Four bytes as eight digits of one word print them: the lowest byte comes first. -/
def wordBytes? (digits : List Char) : Option Bytes := do
  guard (digits.length = 8)
  let word ← Text.Numeral.uint32? 16 digits
  return Bytes.ofNat 4 word.toNat

/-- Consecutive parts of eight characters; the last one may be shorter. -/
def eights : (count : Nat) → List Char → List (List Char)
  | 0, _ => []
  | count + 1, cs => cs.take 8 :: eights count (cs.drop 8)

def group (high low : UInt8) : UInt16 := high.toUInt16 <<< 8 ||| low.toUInt16

def address? (family : Family) (digits : List Char) : Option Address :=
  match family with
  | .v4 => do
    let [a, b, c, d] ← wordBytes? digits | none
    return .v4 a b c d
  | .v6 => do
    guard (digits.length = 32)
    let bytes := (← (eights 4 digits).mapM wordBytes?).flatten
    let [a, b, c, d, e, f, g, h, i, j, k, l, m, n, o, p] := bytes | none
    return .v6 #v[group a b, group c d, group e f, group g h, group i j, group k l, group m n, group o p]

/-- An address and a port, which the first colon separates. -/
def endpoint? (family : Family) (field : List Char) : Option (Address × UInt16) := do
  let (host, port) ← Text.cut? (· == ':') field
  let port ← Text.Numeral.uint16? 16 port
  let address ← address? family host
  return (address, port)

/-- A row has at least ten fields: the second and third are the ends of the connection, the tenth is
the inode. -/
def row? (protocol : String) (family : Family) (line : List Char) : Option Entry :=
  match Text.words line with
  | _ :: localEnd :: remoteEnd :: _ :: _ :: _ :: _ :: _ :: _ :: inode :: _ => do
    let (localAddress, localPort) ← endpoint? family localEnd
    let (remoteAddress, remotePort) ← endpoint? family remoteEnd
    let inode ← Text.Numeral.uint64? 10 inode
    return ⟨protocol, localAddress, localPort, remoteAddress, remotePort, inode⟩
  | _ => none

/-- The rows behind the heading; lines that are no rows are skipped. -/
def parseTable (protocol : String) (family : Family) (content : String) : List Entry :=
  ((Text.split (· == '\n') content.toList).drop 1).filterMap (row? protocol family)

/-- The number in a link of the form `socket:[n]`. -/
def inode? (target : String) : Option UInt64 :=
  let stem := "socket:[".toList
  let cs := target.toList
  if stem.isPrefixOf cs && cs.getLast? == some ']' then
    Text.Numeral.uint64? 10 ((cs.drop stem.length).dropLast)
  else none

abbrev Tables := List Entry

def Tables.find? (tables : Tables) (inode : UInt64) : Option Entry :=
  List.find? (fun e => e.inode == inode) tables

/-- What is known about the socket behind a link; the link itself where nothing is. -/
def Tables.details (tables : Tables) (target : String) : String :=
  match (inode? target).bind tables.find? with
  | some e => e.describe
  | none => target

end Thaw.Socket
