namespace Thaw.Text.Numeral

/-- The value of a digit of the base; letters count in either case. -/
def digit? (base : Nat) (c : Char) : Option Nat :=
  let value :=
    if '0' ≤ c ∧ c ≤ '9' then c.toNat - 48
    else if 'a' ≤ c ∧ c ≤ 'f' then c.toNat - 87
    else if 'A' ≤ c ∧ c ≤ 'F' then c.toNat - 55
    else base
  if value < base then some value else none

/-- The value of one or more digits, the most significant first. -/
def digits? (base : Nat) : List Char → Option Nat
  | [] => none
  | cs => cs.foldlM (fun n c => (digit? base c).map (n * base + ·)) 0

def natural? (base : Nat) : List Char → Option Nat
  | '+' :: cs => digits? base cs
  | cs => digits? base cs

def integer? (base : Nat) : List Char → Option Int
  | '-' :: cs => (digits? base cs).map fun n => -(n : Int)
  | cs => (natural? base cs).map Int.ofNat

def uint16? (base : Nat) (cs : List Char) : Option UInt16 := do
  let n ← natural? base cs
  if n < 0x10000 then some (.ofNat n) else none

def uint32? (base : Nat) (cs : List Char) : Option UInt32 := do
  let n ← natural? base cs
  if n < 0x100000000 then some (.ofNat n) else none

def uint64? (base : Nat) (cs : List Char) : Option UInt64 := do
  let n ← natural? base cs
  if n < 0x10000000000000000 then some (.ofNat n) else none

def int32? (base : Nat) (cs : List Char) : Option Int32 := do
  let i ← integer? base cs
  if -0x80000000 ≤ i ∧ i < 0x80000000 then some (.ofInt i) else none

end Thaw.Text.Numeral
