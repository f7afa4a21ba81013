import Thaw.Ledger.Basic

namespace Thaw

/-- What marking sees of the file system: the file behind a path, and the entries of a directory as
they are, links not followed. -/
structure FileView where
  identity? : String → Option FileIdentity
  entries? : String → Option (List FileIdentity)

namespace Ledger

def markWhere (p : Slot → Bool) (marks : Marks) (l : Ledger) : Ledger :=
  ⟨l.slots.map fun s => if p s then s.mark marks else s⟩

def mark (l : Ledger) (fd : Int) (marks : Marks) : Ledger :=
  l.markWhere (fun s => s.fd == fd && !s.isClosed) marks

/-- Marks the roots that are the file `path` leads to; a path that leads nowhere marks nothing. -/
def markClassPathEntry (view : FileView) (l : Ledger) (path : String) : Ledger :=
  match view.identity? path with
  | none => l
  | some identity => l.markWhere (fun s => s.isRoot && s.identity? == some identity) .onlyClassPath

/-- The parts of a list of paths that colons separate, empty ones left out. -/
def pathList (paths : String) : List String :=
  (Text.split (· == ':') paths.toList |>.filter fun path => !path.isEmpty).map String.ofList

def markClassPath (view : FileView) (l : Ledger) (paths : String) : Ledger :=
  (pathList paths).foldl (markClassPathEntry view) l

/-- Marks the roots whose inode number is that of an entry of the directory, on whatever device. -/
def markMembers (view : FileView) (l : Ledger) (dir : String) : Ledger :=
  match view.entries? dir with
  | none => l
  | some members =>
    l.markWhere
      (fun s => s.isRoot && s.identity?.any fun id => members.any fun m => m.inode == id.inode)
      .onlyClassPath

def markExtensionDirs (view : FileView) (l : Ledger) (dirs : String) : Ledger :=
  (pathList dirs).foldl (markMembers view) l

/-- Marks the roots that match a resource. The resources come in ascending order, so that the first
one behind the last slot ends the search; negative numbers are no descriptors. -/
def markPersistent (l : Ledger) : List Resource → Ledger
  | [] => l
  | r :: rest =>
    if r.fd < 0 then l.markPersistent rest
    else if (l.size : Int) ≤ r.fd then l
    else
      (l.markWhere (fun s => s.fd == r.fd && s.isRoot && s.identity? == some r.identity)
        .onlyPersistent).markPersistent rest

end Ledger

end Thaw
