namespace Thaw.Socket

inductive Address where
  | v4 (a b c d : UInt8)
  /-- Eight groups, the most significant first. -/
  | v6 (groups : Vector UInt16 8)
  deriving DecidableEq, Repr

namespace Address

def dotted (octets : List UInt8) : String := ".".intercalate (octets.map toString)

def hex (group : UInt16) : String := String.ofList (Nat.toDigits 16 group.toNat)

def joined (groups : List UInt16) : String := ":".intercalate (groups.map hex)

/-- Length of the run of zeros at the head. -/
def zeros (groups : List UInt16) : Nat := (groups.takeWhile (· == 0)).length

/-- Where the first longest run of zeros starts and how long it is. -/
def longestZeros (groups : List UInt16) : Nat × Nat :=
  (List.range groups.length).foldl
    (fun best start =>
      let length := zeros (groups.drop start)
      if best.2 < length then (start, length) else best)
    (0, 0)

/-- The first longest run of at least two zero groups is left out. -/
def compressed (groups : List UInt16) : String :=
  let (start, length) := longestZeros groups
  if 1 < length then
    joined (groups.take start) ++ "::" ++ joined (groups.drop (start + length))
  else joined groups

/-- The two octets of a group, the high one first. -/
def octets (group : UInt16) : List UInt8 := [(group >>> 8).toUInt8, group.toUInt8]

/-- An address of six groups keeps its dotted form when it stands for one of the fourth version. -/
def text : Address → String
  | .v4 a b c d => dotted [a, b, c, d]
  | .v6 groups =>
    match groups.toList with
    | [0, 0, 0, 0, 0, 0xFFFF, high, low] => "::ffff:" ++ dotted (octets high ++ octets low)
    | groups => compressed groups

end Address

end Thaw.Socket
