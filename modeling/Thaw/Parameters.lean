import Thaw.Clock
import Thaw.Environment
import Thaw.Error

namespace Thaw

/-- What the restoring process hands to the resumed one. -/
structure Parameters where
  reading : Reading
  properties : List String
  /-- Entries as in `Environment.entries`, without their terminators. -/
  environment : List Bytes
  arguments : String
  deriving DecidableEq, Repr

namespace Parameters

/-- Parameters with the environment of the process that hands them over. -/
def capture (env : Environment) (properties : List String) (arguments : String)
    (reading : Reading) : Parameters :=
  ⟨reading, properties, env.entries, arguments⟩

def terminate (piece : Bytes) : Bytes := piece ++ [0]

def environmentSize (p : Parameters) : Nat := (p.environment.flatMap terminate).length

def headerSize : Nat := 24

/-- The largest count that the header holds. -/
def maxCount : Nat := 0x7FFFFFFF

inductive EncodeError where
  | nul
  | properties (count : Nat)
  | environment (size : Nat)
  deriving DecidableEq, Repr

def EncodeError.message : EncodeError → String
  | .nul => "parameter strings cannot contain NUL"
  | .properties count => s!"{count} properties do not fit the header"
  | .environment size => s!"environment of {size} bytes does not fit the header"

def EncodeError.toChannel (e : EncodeError) : ChannelError := .writeFailed e.message

/-- The texts in the order in which they follow the header. -/
def pieces (p : Parameters) : List Bytes :=
  p.properties.map Bytes.ofString ++ p.environment ++ [Bytes.ofString p.arguments]

def checkTexts (p : Parameters) : Except EncodeError Unit :=
  if p.pieces.any fun piece => piece.contains 0 then .error .nul else .ok ()

def header (p : Parameters) : Except EncodeError Bytes :=
  if maxCount < p.properties.length then .error (.properties p.properties.length)
  else if maxCount < p.environmentSize then .error (.environment p.environmentSize)
  else .ok (Bytes.ofInt64 p.reading.millis ++ Bytes.ofInt64 p.reading.nanos ++
    Bytes.ofNat 4 p.properties.length ++ Bytes.ofNat 4 p.environmentSize)

/-- A header of two times and two counts, the properties, the environment block and the command line.
Every text ends in a NUL. -/
def encode (p : Parameters) : Except EncodeError Bytes := do
  p.checkTexts
  let header ← p.header
  return header ++ (p.properties.map Bytes.ofString).flatMap terminate ++
    p.environment.flatMap terminate ++ terminate (Bytes.ofString p.arguments)

inductive DecodeError where
  | shortHeader (length : Nat)
  | negativeCount (count : Int)
  | negativeSize (size : Int)
  | propertyOverrun (index : Nat)
  | propertyNotText (index : Nat) (fault : Text.Utf8.Fault)
  | environmentOverrun (size left : Nat)
  | environmentEntry
  | argumentsOverrun
  | argumentsNotText (fault : Text.Utf8.Fault)
  deriving DecidableEq, Repr

def DecodeError.message : DecodeError → String
  | .shortHeader length => s!"{length} bytes is shorter than the {headerSize} byte header"
  | .negativeCount count => s!"negative property count {count}"
  | .negativeSize size => s!"negative environment size {size}"
  | .propertyOverrun index => s!"property {index} overruns the segment"
  | .propertyNotText index fault => s!"property {index} is not UTF-8: {fault.message}"
  | .environmentOverrun size left =>
    s!"environment block of {size} bytes exceeds the {left} bytes left"
  | .environmentEntry => "environment entry exceeds the declared block"
  | .argumentsOverrun => "argument string is not terminated"
  | .argumentsNotText fault => s!"arguments are not UTF-8: {fault.message}"

def DecodeError.toChannel (e : DecodeError) : ChannelError := .corrupt e.message

/-- Splits off a text, dropping its terminator. -/
def cutTerminated? (bytes : Bytes) : Option (Bytes × Bytes) := Text.cut? (· == 0) bytes

/-- Reads `count` properties, the first of which has the number `index`. -/
def decodeProperties (index : Nat) : (count : Nat) → Bytes →
    Except DecodeError (List String × Bytes)
  | 0, bytes => .ok ([], bytes)
  | count + 1, bytes =>
    match cutTerminated? bytes with
    | none => .error (.propertyOverrun index)
    | some (piece, rest) =>
      match Text.Utf8.decode piece with
      | .error fault => .error (.propertyNotText index fault)
      | .ok property =>
        match decodeProperties (index + 1) count rest with
        | .error e => .error e
        | .ok (properties, rest) => .ok (property :: properties, rest)

/-- The entries of an environment block, which their terminators fill exactly. -/
def decodeEnvironment (block : Bytes) : Except DecodeError (List Bytes) :=
  match Text.split (· == 0) block |>.reverse with
  | [] :: entries => .ok entries.reverse
  | _ => .error .environmentEntry

/-- A count as the header holds it, where it is not negative. -/
def count? (i : Int32) : Option Nat := if i.toInt < 0 then none else some i.toInt.toNat

def decode (bytes : Bytes) : Except DecodeError Parameters := do
  if bytes.length < headerSize then throw (.shortHeader bytes.length)
  let field (offset length : Nat) : Bytes := (bytes.drop offset).take length
  let reading : Reading := ⟨(field 0 8).toInt64, (field 8 8).toInt64⟩
  let propertyCount := (field 16 4).toInt32
  let blockSize := (field 20 4).toInt32
  let some count := count? propertyCount | throw (.negativeCount propertyCount.toInt)
  let some size := count? blockSize | throw (.negativeSize blockSize.toInt)
  let (properties, rest) ← decodeProperties 0 count (bytes.drop headerSize)
  if rest.length < size then throw (.environmentOverrun size rest.length)
  let environment ← decodeEnvironment (rest.take size)
  let some (last, _) := cutTerminated? (rest.drop size) | throw .argumentsOverrun
  match Text.Utf8.decode last with
  | .error fault => throw (.argumentsNotText fault)
  | .ok arguments => return ⟨reading, properties, environment, arguments⟩

end Parameters

end Thaw
