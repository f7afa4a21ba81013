import Thaw.Parameters
import Thaw.Segment.Memory

namespace Thaw.Parameters

open Segment

/-- Writes pieces one call each and stops at the first that fails. -/
def writePieces (policy : WritePolicy) (m : Memory) (h : Nat) :
    List Bytes → Memory × Except ChannelError Unit
  | [] => (m, .ok ())
  | piece :: pieces =>
    match m.write policy h piece with
    | (m, .ok ()) => writePieces policy m h pieces
    | (m, .error e) => (m, .error e)

/-- Writes the encoding of parameters, first the header and then each text with its terminator.
Nothing is written of parameters without an encoding. -/
def writeTo (policy : WritePolicy) (p : Parameters) (m : Memory) (h : Nat) :
    Memory × Except ChannelError Unit :=
  match p.checkTexts >>= fun _ => p.header with
  | .error e => (m, .error e.toChannel)
  | .ok header => writePieces policy m h (header :: p.pieces.map terminate)

/-- Reads what a handle has left and decodes it. -/
def readFrom (m : Memory) (h : Nat) : Memory × Except ChannelError Parameters :=
  match m.readAll h with
  | (m, .error e) => (m, .error e)
  | (m, .ok bytes) => (m, (decode bytes).mapError DecodeError.toChannel)

/-- Writes parameters into a fresh segment. One that stays incomplete loses its name again. -/
def handOver (policy : WritePolicy) (m : Memory) (room : Bool) (id : Int32) (p : Parameters) :
    Memory × Except ChannelError Unit :=
  match m.create room id with
  | .error e => (m, .error e)
  | .ok (m, h) =>
    match p.writeTo policy m h with
    | (m, .ok ()) => ((m.close h).1, .ok ())
    | (m, .error e) =>
      let m := match m.unlink id with
        | .ok m => m
        | .error _ => m
      ((m.close h).1, .error e)

/-- Takes the parameters out of segment `id`; its name is gone even when they are corrupt,
unless the system refuses to remove it. -/
def take (m : Memory) (fate : ReaderFate) (id : Int32) : Memory × Except ChannelError Parameters :=
  match m.openAndUnlink fate id with
  | .error e => (m, .error e)
  | .ok (m, h) =>
    match fate.reading with
    | some errno => ((m.close h).1, .error (.readFailed errno.message))
    | none =>
      let (m, result) := readFrom m h
      ((m.close h).1, result)

end Thaw.Parameters
