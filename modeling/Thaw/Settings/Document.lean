import Thaw.Settings
import Thaw.Yaml.Node.Reader

namespace Thaw.Settings

open Yaml

/-- The tags of the standard types that a scalar may be asked to have. -/
def nullTag : List Char := "tag:yaml.org,2002:null".toList

def boolTag : List Char := "tag:yaml.org,2002:bool".toList

/-- The spellings of nothing, besides the empty one. -/
def isNull (text : List Char) : Bool :=
  ["~", "null", "Null", "NULL"].contains (String.ofList text)

def bool? (text : List Char) : Option Bool :=
  match String.ofList text with
  | "true" | "True" | "TRUE" => some true
  | "false" | "False" | "FALSE" => some false
  | _ => none

/-- A text is any scalar as it is written. -/
def readText (d : Document) (n : Node) : Except Fault String :=
  match d.resolve n with
  | .scalar _ _ text => .ok (String.ofList text)
  | _ => .error .wrongType

/-- Whether a node says that nothing is there. A scalar that is tagged as nothing has to spell it. -/
def isAbsent (d : Document) (n : Node) : Except Fault Bool :=
  match d.resolve n with
  | .scalar .plain none text => .ok (text.isEmpty || isNull text)
  | .scalar .plain (some tag) text =>
    if tag != nullTag then .ok false
    else if isNull text then .ok true
    else .error .wrongType
  | _ => .ok false

def readOption {α : Type} (read : Document → Node → Except Fault α) (d : Document) (n : Node) :
    Except Fault (Option α) := do
  if ← isAbsent d n then return none else return some (← read d n)

/-- A truth value is plain, or a literal block that is tagged as one. -/
def readBool (d : Document) (n : Node) : Except Fault Bool :=
  let value := match d.resolve n with
    | .scalar .plain _ text => bool? text
    | .scalar .literal (some tag) text => if tag == boolTag then bool? text else none
    | _ => none
  match value with
  | some value => .ok value
  | none => .error .wrongType

/-- The pairs of a mapping with their keys as texts. Where nothing is written there are none. -/
def readPairs (d : Document) (n : Node) : Except Fault (List (String × Node)) :=
  match d.resolve n with
  | .mapping pairs => pairs.mapM fun (key, value) => do return (← readText d key, value)
  | .scalar .plain _ [] => .ok []
  | _ => .error .wrongType

abbrev Fields := List (String × Node)

def readFields (known : List String) (d : Document) (n : Node) : Except Fault Fields := do
  let fields := (← readPairs d n).filter fun field => known.contains field.1
  if (fields.map (·.1)).eraseDups.length < fields.length then throw .repeatedField
  return fields

/-- The value of a field, or a default where the field is left out. -/
def field {α : Type} (d : Document) (fields : Fields) (name : String)
    (read : Document → Node → Except Fault α) (default : α) : Except Fault α :=
  match fields.lookup name with
  | some n => read d n
  | none => .ok default

def checkpointFields : List String :=
  ["checkpoint_to", "restore_from", "engine", "engine_dir", "ignore_failures", "heap_dump_on_failure",
   "print_resources", "skip_engine", "trace_startup_time"]

def readCheckpoint (d : Document) (n : Node) : Except Fault CheckpointSettings := do
  let fields ← readFields checkpointFields d n
  let path (name : String) : Except Fault (Option String) :=
    field d fields name (readOption readText) none
  let switch (name : String) : Except Fault Bool := field d fields name readBool false
  return {
    checkpointTo := ← path "checkpoint_to"
    restoreFrom := ← path "restore_from"
    engine := ← field d fields "engine" readText defaultEngine
    engineDir := ← path "engine_dir"
    ignoreFailures := ← switch "ignore_failures"
    heapDumpOnFailure := ← switch "heap_dump_on_failure"
    printResources := ← switch "print_resources"
    skipEngine := ← switch "skip_engine"
    traceStartupTime := ← switch "trace_startup_time" }

def readProperties (d : Document) (n : Node) : Except Fault (List Property) := do
  let pairs ← readPairs d n
  return Property.collect (← pairs.mapM fun (key, value) => do return ⟨key, ← readText d value⟩)

def runtimeFields : List String := ["classpath", "boot_classpath", "extension_dirs", "properties"]

def readRuntime (d : Document) (n : Node) : Except Fault RuntimeSettings := do
  let fields ← readFields runtimeFields d n
  let text (name : String) : Except Fault String := field d fields name readText ""
  return {
    classPath := ← text "classpath"
    bootClassPath := ← text "boot_classpath"
    extensionDirs := ← text "extension_dirs"
    properties := ← field d fields "properties" readProperties [] }

def readDraft (d : Document) : Except Fault Draft := do
  let fields ← readFields ["checkpoint", "runtime"] d d.root
  return {
    checkpoint := ← field d fields "checkpoint" (readOption readCheckpoint) none
    runtime := ← field d fields "runtime" (readOption readRuntime) none }

/-- The settings that a text writes down; without a document there are none. -/
def parseDraft (text : String) : Except Fault Draft := do
  match ← Document.read? text with
  | some d => readDraft d
  | none => return ⟨none, none⟩

def parse (text : String) : Except Failure Settings :=
  match parseDraft text with
  | .error fault => .error (.settingsUnreadable s!"YAML parse error: {fault.message}")
  | .ok draft => (ofDraft draft).mapError .settings

end Thaw.Settings
