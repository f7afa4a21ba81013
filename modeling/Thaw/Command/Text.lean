import Thaw.Attempt
import Thaw.Command.Request
import Thaw.Settings
import Thaw.Text.Json

namespace Thaw

def BlockerKind.tag : BlockerKind → String
  | socket => "Socket"
  | fileLike => "FileLike"
  | pipe => "Pipe"
  | generic => "Generic"

def Blocker.toJson (b : Blocker) : Text.Json :=
  .record [("fd", .number b.fd), ("kind", .text b.kind.tag), ("message", .text b.message)]

def Outcome.toJson : Outcome → Text.Json
  | restored state =>
    .record [("outcome", .text "restored"),
      ("new_args", (state.newArguments.map Text.Json.text).getD .null),
      ("new_properties", .list (state.newProperties.map .text))]
  | failed blockers =>
    .record [("outcome", .text "failed"), ("failures", .list (blockers.map (·.toJson)))]

namespace Command

/-- Lines, each with its end. -/
def lines (ls : List String) : String := String.join (ls.map (· ++ "\n"))

/-- An entry of a list. -/
def entry (text : String) : String := "  - " ++ text

def truth (b : Bool) : String := if b then "true" else "false"

def optional (text : Option String) : String := text.getD "(not set)"

def settingsText (s : Settings) : String :=
  let c := s.checkpoint
  let r := s.runtime
  lines ([
    "✓ Configuration is valid",
    "",
    "Checkpoint Settings:",
    s!"  Checkpoint To:      {optional c.checkpointTo}",
    s!"  Restore From:       {optional c.restoreFrom}",
    s!"  Engine:             {c.engine}",
    s!"  Engine Directory:   {optional c.engineDir}",
    s!"  Ignore Failures:    {truth c.ignoreFailures}",
    s!"  Skip Engine:        {truth c.skipEngine}",
    "",
    "Runtime:",
    s!"  Class Path:         {r.classPath}",
    s!"  Properties ({r.properties.length}):"] ++ r.properties.map fun p => entry p.text)

def faultText (e : Failure) : String := lines ["✗ Configuration validation failed:", "  " ++ e.message]

/-- What is shown of an outcome, and what goes to the channel for errors. -/
def outcomeText (dryRun : Bool) : Outcome → String × String
  | .restored state =>
    (lines ("✓ Restored from checkpoint" ::
      (state.newArguments.map fun arguments => s!"  New Arguments:  {arguments}").toList ++
      state.newProperties.map entry), "")
  | .failed [] => (lines ["✓ No unrestorable resources"], "")
  | .failed blockers =>
    let count := blockers.length
    let list := lines (blockers.map fun b => entry b.text)
    if dryRun then (lines [s!"Unrestorable resources ({count}):"] ++ list, "")
    else (list, lines [s!"✗ Checkpoint failed with {count} unrestorable resources:"])

def outcomeJson (outcome : Outcome) : String := outcome.toJson.render 0 ++ "\n"

def startupText (time : Int) (message : String) : String := lines [s!"STARTUPTIME {time} {message}"]

def versionText : String := lines ["thaw 0.1.0"]

def usageText : String :=
  lines ("Usage: thaw [-v] COMMAND" :: "" :: "Commands:" :: (Verb.all.map fun v => "  " ++ v.name))

end Command

end Thaw
