namespace Thaw

structure FileIdentity where
  device : UInt64
  inode : UInt64
  deriving DecidableEq, Repr

namespace FileIdentity

def text (id : FileIdentity) : String := s!"{id.device}:{id.inode}"

/-- Identities are ordered by device, then by inode. -/
def order (a b : FileIdentity) : Ordering :=
  (compare a.device b.device).then (compare a.inode b.inode)

end FileIdentity

end Thaw
