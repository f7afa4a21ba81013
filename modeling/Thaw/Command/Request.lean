import Thaw.Command.Grammar

namespace Thaw.Command

inductive Request where
  /-- Check the settings in a file and show them. -/
  | validate (settings : String)
  /-- Take a checkpoint of the process itself. -/
  | checkpoint (settings : String) (dryRun asJson : Bool)
  /-- Bring back the last image with new arguments. -/
  | restore (settings : String) (arguments : List String)
  /-- Act as the hook of the engine. -/
  | hook
  /-- Show the time, by the wall in milliseconds or by the counter in nanoseconds. -/
  | startupTime (inMillis : Bool) (message : String)
  deriving DecidableEq, Repr

inductive Verb where
  | validate
  | checkpoint
  | restore
  | hook
  | startupTime
  deriving DecidableEq, Repr

namespace Verb

def all : List Verb := [validate, checkpoint, restore, hook, startupTime]

def name : Verb → String
  | validate => "validate"
  | checkpoint => "checkpoint"
  | restore => "restore"
  | hook => "action-script"
  | startupTime => "startup-time"

def named? (name : String) : Option Verb := all.find? fun v => v.name == name

/-- The switches that every command accepts. -/
def commonSwitches : List Switch := [.verbose, .help]

def grammar : Verb → Grammar
  | validate => ⟨commonSwitches, 1, false⟩
  | checkpoint => ⟨commonSwitches ++ [.settings, .dryRun, .json], 0, false⟩
  | restore => ⟨commonSwitches ++ [.settings], 0, true⟩
  | hook => ⟨commonSwitches, 0, false⟩
  | startupTime => ⟨commonSwitches ++ [.millis, .nanos], 1, false⟩

/-- The file of settings unless another is named. -/
def defaultSettings : String := "crest.yaml"

/-- The message with the time unless another is given. -/
def defaultMessage : String := "prestart"

def request (v : Verb) (given : Given) : Except Stop Request :=
  let settings := (given.value? .settings).getD defaultSettings
  match v with
  | validate =>
    match given.words with
    | [file] => .ok (.validate file)
    | _ => .error .misuse
  | checkpoint => .ok (.checkpoint settings (given.has .dryRun) (given.has .json))
  | restore => .ok (.restore settings given.tail)
  | hook => .ok .hook
  | startupTime =>
    if given.has .millis && given.has .nanos then .error .misuse
    else .ok (.startupTime (given.has .millis) (given.words.headD defaultMessage))

end Verb

namespace Request

/-- What is accepted in front of the command. -/
def outerGrammar : Grammar := ⟨Verb.commonSwitches ++ [.version], 0, false⟩

/-- The word that asks for help on the command which follows it. -/
def helpWord : String := "help"

def helpOn : List String → Stop
  | [] => .help
  | [word] => if word = helpWord || (Verb.named? word).isSome then .help else .misuse
  | _ => .misuse

/-- Reads switches up to the word that names the command, which reads the rest. -/
def read (given : Given) : List String → Except Stop Request
  | [] => .error .misuse
  | argument :: rest =>
    match Argument.ofText argument with
    | .mark => .error .misuse
    | .word =>
      if argument = helpWord then .error (helpOn rest)
      else
        match Verb.named? argument with
        | none => .error .misuse
        | some v => v.grammar.read .nothing rest >>= v.request
    | form =>
      match outerGrammar.readSwitches given form with
      | .ok (given, _) => read given rest
      | .error stop => .error stop

def ofArguments (arguments : List String) : Except Stop Request := read .nothing arguments

/-- The file of settings that a request reads. -/
def settingsFile? : Request → Option String
  | validate file => some file
  | checkpoint file _ _ => some file
  | restore file _ => some file
  | hook | startupTime _ _ => none

end Request

end Thaw.Command
