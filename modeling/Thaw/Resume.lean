import Thaw.Error
import Thaw.Segment.Id
import Thaw.Text.Blank
import Thaw.Text.Numeral

namespace Thaw

/-- A signal as it arrives: how it was sent, and the number it carries. -/
structure Delivery where
  code : Int32
  payload : Int32
  deriving DecidableEq, Repr

/-- What the restoring side hands over with the wake-up. -/
structure ResumeToken where
  segment : Option Segment.Id
  deriving DecidableEq

namespace Delivery

/-- The code of signals that were queued with a number. -/
def queuedCode : Int32 := -1

/-- The code of signals that were sent without a number. -/
def sentCode : Int32 := 0

def queued (payload : Int32) : Delivery := ⟨queuedCode, payload⟩

def sent : Delivery := ⟨sentCode, 0⟩

/-- Only a queued signal with a number that is not negative announces a restore. -/
def token (d : Delivery) : Except SignalError ResumeToken :=
  if d.code ≠ queuedCode then .error (.notQueued d.code.toInt)
  else if d.payload.toInt < 0 then .error (.invalidPayload d.payload.toInt)
  else .ok ⟨Segment.Id.ofInt32? d.payload⟩

end Delivery

/-- The number that the hook puts on the signal: the exported segment, or zero where none is
exported. `none` for an export that is no number. -/
def resumePayload? : Option String → Option Int32
  | none => some 0
  | some text => Text.Numeral.int32? 10 (Text.trim text.toList)

end Thaw
