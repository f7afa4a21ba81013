namespace Thaw

abbrev Bytes := List UInt8

namespace Bytes

/-- The UTF-8 encoding of a text. -/
def ofString (s : String) : Bytes := s.toUTF8.data.toList

/-- The lowest `count` base-256 digits of a number, the least significant first. -/
def ofNat : (count : Nat) → Nat → Bytes
  | 0, _ => []
  | count + 1, n => UInt8.ofNat n :: ofNat count (n / 256)

/-- The number whose base-256 digits these are, the least significant first. -/
def toNat : Bytes → Nat
  | [] => 0
  | b :: bs => b.toNat + 256 * toNat bs

def ofInt32 (i : Int32) : Bytes := ofNat 4 i.toUInt32.toNat

def ofInt64 (i : Int64) : Bytes := ofNat 8 i.toUInt64.toNat

def toInt32 (bs : Bytes) : Int32 := (UInt32.ofNat bs.toNat).toInt32

def toInt64 (bs : Bytes) : Int64 := (UInt64.ofNat bs.toNat).toInt64

end Bytes

namespace Text.Utf8

/-- The first place where bytes are not UTF-8. -/
inductive Fault where
  /-- The `length` bytes from `index` on begin no character. -/
  | invalid (length index : Nat)
  /-- The bytes end inside the character that begins at `index`. -/
  | incomplete (index : Nat)
  deriving DecidableEq, Repr

def Fault.message : Fault → String
  | .invalid length index => s!"invalid utf-8 sequence of {length} bytes from index {index}"
  | .incomplete index => s!"incomplete utf-8 byte sequence from index {index}"

/-- The bytes allowed after a leading byte, as ranges; `none` for a byte that leads nothing. -/
def followers? (lead : UInt8) : Option (List (UInt8 × UInt8)) :=
  let any := (0x80, 0xBF)
  if lead < 0x80 then some []
  else if 0xC2 ≤ lead ∧ lead ≤ 0xDF then some [any]
  else if lead = 0xE0 then some [(0xA0, 0xBF), any]
  else if lead = 0xED then some [(0x80, 0x9F), any]
  else if 0xE1 ≤ lead ∧ lead ≤ 0xEF then some [any, any]
  else if lead = 0xF0 then some [(0x90, 0xBF), any, any]
  else if 0xF1 ≤ lead ∧ lead ≤ 0xF3 then some [any, any, any]
  else if lead = 0xF4 then some [(0x80, 0x8F), any, any]
  else none

/-- Scans from `index` on, inside the character that begins at `start` while `expected` bytes of it
are missing. -/
def faultFrom (start index : Nat) (expected : List (UInt8 × UInt8)) : Bytes → Option Fault
  | [] => if expected.isEmpty then none else some (.incomplete start)
  | b :: bs =>
    match expected with
    | [] =>
      match followers? b with
      | none => some (.invalid 1 index)
      | some expected => faultFrom index (index + 1) expected bs
    | (low, high) :: expected =>
      if low ≤ b ∧ b ≤ high then faultFrom start (index + 1) expected bs
      else some (.invalid (index - start) start)

/-- The text of the bytes, or their first fault. -/
def decode (bs : Bytes) : Except Fault String :=
  match String.fromUTF8? ⟨bs.toArray⟩ with
  | some text => .ok text
  | none => .error ((faultFrom 0 0 [] bs).getD (.incomplete 0))

end Text.Utf8

end Thaw
