import Thaw.Yaml.Token.Scalar

namespace Thaw.Yaml

/-- The tag of a node as written: a handle that stands for a longer text, and what follows it. -/
structure WrittenTag where
  handle : List Char
  suffix : List Char
  deriving DecidableEq, Repr

inductive Token where
  | versionDirective (major minor : Nat)
  | tagDirective (handle replacement : List Char)
  | documentStart
  | documentEnd
  | blockSequenceStart
  | blockMappingStart
  | blockEnd
  | flowSequenceStart
  | flowSequenceEnd
  | flowMappingStart
  | flowMappingEnd
  | blockEntry
  | flowEntry
  | key
  | value
  | alias (name : List Char)
  | anchor (name : List Char)
  | tag (tag : WrittenTag)
  | scalar (style : ScalarStyle) (text : List Char)
  deriving DecidableEq, Repr

end Thaw.Yaml
