namespace Thaw

abbrev StatusFlags := BitVec 32

/-- Calls on the open file return at once where they would have to wait. -/
def StatusFlags.nonBlocking : StatusFlags := 0x800

/-- What becomes of a request to set flags. -/
inductive SetFate where
  | refused
  /-- Only the bits of `settable` change; without any the request is ignored. -/
  | taken (settable : StatusFlags)
  deriving DecidableEq, Repr

/-- Descriptors with the open files they refer to, and the flags of each open file. -/
structure StatusTable where
  descriptors : List (Nat × Nat)
  flags : List StatusFlags
  deriving DecidableEq, Repr

namespace StatusTable

def openFile? (t : StatusTable) (fd : Nat) : Option Nat := t.descriptors.lookup fd

def flags? (t : StatusTable) (fd : Nat) : Option StatusFlags :=
  (t.openFile? fd).bind fun file => t.flags[file]?

/-- The bits of `new` where they are settable and those of `old` elsewhere. -/
def blend (settable old new : StatusFlags) : StatusFlags := (old &&& ~~~settable) ||| (new &&& settable)

/-- Sets the flags of the open file behind a descriptor; `none` where the request fails. -/
def setFlags? (t : StatusTable) (fate : SetFate) (fd : Nat) (new : StatusFlags) :
    Option StatusTable :=
  match fate, t.openFile? fd with
  | .taken settable, some file =>
    some { t with flags := t.flags.modify file fun old => blend settable old new }
  | _, _ => none

/-- Changes a flag through `fd`, looks for the change through `other`, and takes it back. The two
fates are those of the change and of taking it back. A change that does not show through `fd` itself
tells nothing, and the descriptors count as distinct. -/
def sharesByToggle (change back : SetFate) (t : StatusTable) (fd other : Nat) : Bool × StatusTable :=
  match t.flags? fd, t.flags? other with
  | some before, some seen =>
    if before ≠ seen then (false, t)
    else
      let toggled := before ^^^ StatusFlags.nonBlocking
      match t.setFlags? change fd toggled with
      | none => (false, t)
      | some changed =>
        (changed.flags? fd == some toggled && changed.flags? other == some toggled,
          (changed.setFlags? back fd before).getD changed)
  | _, _ => (false, t)

end StatusTable

end Thaw
