namespace Thaw

/-- One reading of the wall clock, in milliseconds, and of the monotonic counter, in nanoseconds. -/
structure Reading where
  millis : Int64
  nanos : Int64
  deriving DecidableEq, Repr

/-- The anchors of the last restore. An anchor of zero counts as never set. -/
structure RestoreClock where
  startTime : Int64
  startCounter : Int64
  deriving DecidableEq, Repr

/-- What a process answers when it is asked how long ago it was restored. -/
inductive Uptime where
  /-- It was not restored. -/
  | unknown
  | known (nanos : Int64)
  /-- The time is no 64-bit integer, and the process panics. -/
  | overflow
  deriving DecidableEq, Repr

def Uptime.ofInt (nanos : Int) : Uptime :=
  if Int64.minValue.toInt ≤ nanos ∧ nanos ≤ Int64.maxValue.toInt then .known (.ofInt nanos)
  else .overflow

namespace RestoreClock

def unset : RestoreClock := ⟨0, 0⟩

/-- Anchors the clock to readings taken by whoever started the restore. -/
def anchored (r : Reading) : RestoreClock := ⟨r.millis, r.nanos⟩

/-- Wall-clock milliseconds at the last restore. -/
def restoreTime? (c : RestoreClock) : Option Int64 :=
  if c.startTime = 0 then none else some c.startTime

/-- The time from one reading of the counter to another, as an integer of any size. -/
def elapsed (anchor now : Int64) : Int := now.toInt - anchor.toInt

/-- The time from the last restore to the counter reading `now`. -/
def uptime (c : RestoreClock) (now : Int64) : Uptime :=
  if c.startCounter = 0 then .unknown else .ofInt (elapsed c.startCounter now)

end RestoreClock

end Thaw
