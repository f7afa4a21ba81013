import Thaw.Command.Text
import Thaw.Session
import Thaw.Settings.File

namespace Thaw.Command

/-- How the program ends, what it shows, and the machine that it leaves. -/
structure Finish where
  ending : Ending
  output : String
  errors : String
  machine : Machine

namespace Finish

def shown (m : Machine) (output : String) : Finish := ⟨.exited 0, output, "", m⟩

/-- An end with a complaint and without any other output. -/
def refused (m : Machine) (code : Nat) (errors : String) : Finish := ⟨.exited code, "", errors, m⟩

/-- An end for a cause that no command foresees. -/
def failed (m : Machine) (cause : String) : Finish := refused m 1 s!"Error: {cause}\n"

def stopped (m : Machine) : Stop → Finish
  | .help => shown m usageText
  | .version => shown m versionText
  | .misuse => refused m 2 usageText

end Finish

def validate (m : Machine) (file : String) : Finish :=
  match Settings.load m file with
  | .ok settings => .shown m (settingsText settings)
  | .error e => .refused m 1 (faultText e)

/-- Only a dry run succeeds without a checkpoint. -/
def exitCode (dryRun : Bool) (outcome : Outcome) : Nat :=
  if dryRun || outcome.isRestored then 0 else 1

/-- Takes a checkpoint of the process itself, whose own descriptors are all inherited. -/
def checkpoint (host : Host) (m : Machine) (file : String) (dryRun asJson : Bool) : Finish :=
  match Settings.load m file with
  | .error e => .failed m e.message
  | .ok settings =>
    let application := Application.start settings.runtime "" true
    let s := (Session.start settings.checkpoint application m).recordInherited
    match s.prepare with
    | (.error e, s) => .failed s.machine e.message
    | (.ok (), s) =>
      let (account, s) := s.install.checkpoint host dryRun (fun _ => false) Session.awaitSignal
      match account.outcome with
      | .error e => .failed s.machine e.message
      | .ok outcome =>
        let (output, errors) :=
          if asJson then (outcomeJson outcome, "") else outcomeText dryRun outcome
        ⟨.exited (exitCode dryRun outcome), output, errors, s.machine⟩

/-- Lets the engine take the place of the process, so that its end is the end of the program. -/
def restore (host : Host) (m : Machine) (file : String) (arguments : List String) : Finish :=
  match Settings.load m file with
  | .error e => .failed m e.message
  | .ok settings =>
    match settings.checkpoint.restoreFrom with
    | none => .failed m (SettingsError.missingField "restore_from" "checkpoint section").message
    | some dir =>
      match Session.resolveEngine m settings.checkpoint with
      | .error e => .failed m e.message
      | .ok engine =>
        let application := Application.start settings.runtime (" ".intercalate arguments) true
        match Session.restore host m engine dir application.systemProperties
          application.commandLine with
        | (m, .error e) => .failed m e.message
        | (_, .ok (ending, m)) => ⟨ending, "", "", m⟩

def hook (m : Machine) : Finish :=
  match Hook.run m m.environment with
  | .ok m => .shown m ""
  | .error e => .refused m 1 (lines [s!"{Verb.hook.name}: {e.message}"])

def startupTime (m : Machine) (inMillis : Bool) (message : String) : Finish :=
  .shown m (startupText (if inMillis then m.now.millis.toInt else m.now.nanos.toInt) message)

def Request.run (host : Host) (m : Machine) : Request → Finish
  | .validate file => Command.validate m file
  | .checkpoint file dryRun asJson => Command.checkpoint host m file dryRun asJson
  | .restore file arguments => Command.restore host m file arguments
  | .hook => Command.hook m
  | .startupTime inMillis message => Command.startupTime m inMillis message

/-- Does what the arguments of the program ask for. -/
def run (host : Host) (m : Machine) (arguments : List String) : Finish :=
  match Request.ofArguments arguments with
  | .ok request => request.run host m
  | .error stop => .stopped m stop

end Thaw.Command
