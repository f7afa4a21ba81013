import Std.Time.DateTime.Timestamp
import Thaw.Command.Run

open Thaw

namespace Thaw.Shell

/-- The variables that commands read. -/
def knownVariables : List String :=
  [Hook.actionName, Hook.imageDirName, Hook.processName, Restore.exportName]

def environment : IO Environment :=
  knownVariables.foldlM (fun env name => do
    return ((← IO.getEnv name).map (env.setText name)).getD env) .empty

/-- Adds what lies at a path to a tree, with the directories above it. -/
def look (tree : FileTree) (path : String) : IO FileTree := do
  let place := (← IO.currentDir) / path
  if ← place.isDir then return tree.makeDirectories place.toString
  let above := (place.parent.map (·.toString)).getD "/"
  let tree := tree.makeDirectories above
  if ← place.pathExists then
    let bytes := (← IO.FS.readBinFile place).toList
    return (tree.writeFile FileTree.root place.toString bytes).toOption.getD tree
  else return tree

/-- The paths in settings that commands follow. -/
def settingsPaths (s : Settings) : List String :=
  let c := s.checkpoint
  c.checkpointTo.toList ++ c.restoreFrom.toList ++ [Engine.under (c.engineDir.getD "") c.engine]

def clocks : IO Reading := do
  let wall := (← Std.Time.Timestamp.now).toMillisecondsSinceUnixEpoch.val
  return ⟨.ofInt wall, .ofNat (← IO.monoNanosNow)⟩

/-- Writes back a file or a directory that a command has made or changed. -/
def writeBack : String × FileContent → IO Unit
  | (path, .data bytes) => IO.FS.writeBinFile path ⟨bytes.toArray⟩
  | (path, .directory) => IO.FS.createDirAll path
  | _ => return

def machine (request? : Option Command.Request) : IO Machine := do
  let env ← environment
  let here := (← IO.currentDir).toString
  let installDir := ((← IO.appPath).parent.map (·.toString)).getD here
  let now ← clocks
  let start (tree : FileTree) : Machine := .start tree here installDir env 1 1 now
  let file? := request?.bind (·.settingsFile?)
  let named := file?.toList ++ (Hook.text? env Hook.imageDirName).toList
  let tree ← named.foldlM look (FileTree.standard.makeDirectories here)
  let settings? := file?.bind fun file => (Settings.load (start tree) file).toOption
  return start (← ((settings?.map settingsPaths).getD []).foldlM look tree)

end Thaw.Shell

/-- Only files are read and written: no engine is started, and no signal is sent. -/
def main (arguments : List String) : IO UInt32 := do
  let m ← Shell.machine (Command.Request.ofArguments arguments).toOption
  let finish := Command.run .idle m arguments
  (m.tree.changes finish.machine.tree).forM Shell.writeBack
  IO.print finish.output
  IO.eprint finish.errors
  match finish.ending with
  | .exited code => return .ofNat code
  | .killed signal => return .ofNat (128 + signal)
