import Thaw.Text.Numeral
import Thaw.Text.Split

namespace Thaw.Ledger

/-- What such a name begins with. -/
def sillyStem : List Char := ".nfs".toList

/-- A file number of sixteen and a counter of eight hexadecimal digits follow. -/
def sillyDigits : Nat := 24

def baseName (path : List Char) : List Char := (Text.split (· == '/') path).getLastD []

def isSillyName (path : String) : Bool :=
  let base := baseName path.toList
  let digits := (base.drop sillyStem.length).take sillyDigits
  sillyStem.isPrefixOf base && digits.length = sillyDigits &&
    digits.all fun c => (Text.Numeral.digit? 16 c).isSome

/-- What the system adds to the link of a file that was removed. -/
def deletedMark : List Char := "(deleted)".toList

/-- Whether the link of a descriptor tells that its file is gone. -/
def isGone (target : String) : Bool :=
  Text.occurs deletedMark target.toList || isSillyName target

end Thaw.Ledger
