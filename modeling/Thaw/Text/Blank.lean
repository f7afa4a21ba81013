import Thaw.Text.Split

namespace Thaw.Text

/-- The code points with the Unicode property White_Space, as ranges with both ends. -/
def blankRanges : List (Nat × Nat) :=
  [(0x9, 0xD), (0x20, 0x20), (0x85, 0x85), (0xA0, 0xA0), (0x1680, 0x1680), (0x2000, 0x200A),
   (0x2028, 0x2029), (0x202F, 0x202F), (0x205F, 0x205F), (0x3000, 0x3000)]

def isBlank (c : Char) : Bool :=
  blankRanges.any fun (low, high) => low ≤ c.toNat && c.toNat ≤ high

/-- The maximal runs of characters that are not blank. -/
def words (cs : List Char) : List (List Char) :=
  (split isBlank cs).filter fun word => !word.isEmpty

def trim (cs : List Char) : List Char :=
  ((cs.dropWhile isBlank).reverse.dropWhile isBlank).reverse

end Thaw.Text
