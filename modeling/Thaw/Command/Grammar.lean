import Thaw.Text.Split

namespace Thaw.Command

inductive Switch where
  | verbose
  | help
  | version
  | settings
  | dryRun
  | json
  | millis
  | nanos
  deriving DecidableEq, Repr

namespace Switch

def name : Switch → String
  | verbose => "verbose"
  | help => "help"
  | version => "version"
  | settings => "config"
  | dryRun => "dry-run"
  | json => "json"
  | millis => "millis"
  | nanos => "nanos"

def letter? : Switch → Option Char
  | verbose => some 'v'
  | help => some 'h'
  | version => some 'V'
  | settings => some 'c'
  | millis => some 'm'
  | nanos => some 'n'
  | dryRun | json => none

def takesValue : Switch → Bool
  | settings => true
  | _ => false

end Switch

/-- Why a command line asks for nothing to be done. -/
inductive Stop where
  | help
  | version
  | misuse
  deriving DecidableEq, Repr

/-- What a command line gives. -/
structure Given where
  /-- Each switch with its value, which is empty for switches without one. -/
  switches : List (Switch × String)
  words : List String
  /-- What follows the mark, where that is kept apart. -/
  tail : List String
  deriving DecidableEq, Repr

namespace Given

def nothing : Given := ⟨[], [], []⟩

def value? (g : Given) (s : Switch) : Option String := g.switches.lookup s

def has (g : Given) (s : Switch) : Bool := (g.value? s).isSome

/-- Adds a switch, which may be given once. Help and version are told at once, whatever follows. -/
def add (g : Given) (s : Switch) (value : String) : Except Stop Given :=
  match s with
  | .help => .error .help
  | .version => .error .version
  | _ =>
    if g.has s then .error .misuse else .ok { g with switches := g.switches ++ [(s, value)] }

end Given

/-- An argument by its form. -/
inductive Argument where
  /-- The mark `--`. -/
  | mark
  /-- A switch by its name, with what stands behind an equals sign. -/
  | named (name : String) (value : Option String)
  /-- Switches by their letters. -/
  | lettered (letters : List Char)
  /-- Anything else; a single dash is a word as well. -/
  | word
  deriving DecidableEq, Repr

def Argument.ofText (text : String) : Argument :=
  match text.toList with
  | ['-', '-'] => .mark
  | '-' :: '-' :: rest =>
    match Text.cut? (· == '=') rest with
    | some (name, value) => .named (String.ofList name) (some (String.ofList value))
    | none => .named (String.ofList rest) none
  | '-' :: letter :: letters => .lettered (letter :: letters)
  | _ => .word

/-- What a command accepts. -/
structure Grammar where
  switches : List Switch
  /-- The largest number of words. -/
  words : Nat
  /-- Whether what follows the mark is kept apart from the words. -/
  hasTail : Bool

namespace Grammar

/-- Reads switches by their letters. One with a value takes what is left, an equals sign dropped; where
nothing is left, the value is still to come. -/
def readLetters (g : Grammar) (given : Given) : List Char → Except Stop (Given × Option Switch)
  | [] => .ok (given, none)
  | letter :: letters =>
    match g.switches.find? fun s => s.letter? == some letter with
    | none => .error .misuse
    | some s =>
      if s.takesValue then
        match letters with
        | [] => .ok (given, some s)
        | '=' :: value => (given.add s (String.ofList value)).map (·, none)
        | value => (given.add s (String.ofList value)).map (·, none)
      else
        match given.add s "" with
        | .ok given => readLetters g given letters
        | .error stop => .error stop

/-- Reads a switch by its name, and tells it if its value is still to come. -/
def readNamed (g : Grammar) (given : Given) (name : String) (value : Option String) :
    Except Stop (Given × Option Switch) :=
  match g.switches.find? fun s => s.name == name with
  | none => .error .misuse
  | some s =>
    match s.takesValue, value with
    | true, none => .ok (given, some s)
    | true, some value => (given.add s value).map (·, none)
    | false, none => (given.add s "").map (·, none)
    | false, some _ => .error .misuse

def readSwitches (g : Grammar) (given : Given) : Argument → Except Stop (Given × Option Switch)
  | .named name value => g.readNamed given name value
  | .lettered letters => g.readLetters given letters
  | .mark | .word => .ok (given, none)

def addWord (g : Grammar) (given : Given) (word : String) : Except Stop Given :=
  if given.words.length < g.words then .ok { given with words := given.words ++ [word] }
  else .error .misuse

/-- Takes what follows the mark. -/
def readTail (g : Grammar) (given : Given) (arguments : List String) : Except Stop Given :=
  if g.hasTail then .ok { given with tail := arguments } else arguments.foldlM g.addWord given

/-- Reads arguments up to the end. A value that is still to come has to be a word. -/
def read (g : Grammar) (given : Given) : List String → Except Stop Given
  | [] => .ok given
  | argument :: rest =>
    match Argument.ofText argument with
    | .mark => g.readTail given rest
    | .word =>
      match g.addWord given argument with
      | .ok given => g.read given rest
      | .error stop => .error stop
    | form =>
      match g.readSwitches given form with
      | .error stop => .error stop
      | .ok (given, none) => g.read given rest
      | .ok (given, some s) =>
        match rest with
        | [] => .error .misuse
        | value :: rest =>
          if Argument.ofText value = .word then
            match given.add s value with
            | .ok given => g.read given rest
            | .error stop => .error stop
          else .error .misuse

end Grammar

end Thaw.Command
