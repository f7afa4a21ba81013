namespace Thaw.Yaml

inductive Fault where
  | forbiddenCharacter
  | strayCharacter
  | tabInIndentation
  | unfinishedKey
  | entryNotAllowed
  | keyNotAllowed
  | valueNotAllowed
  | unfinishedScalar
  | documentMarkInScalar
  | unknownEscape
  | badCodePoint
  | colonInScalar
  | badBlockHeader
  | badName
  | badTag
  | badDirective
  | repeatedDirective
  | unsupportedVersion
  | undefinedHandle
  | missingDocumentStart
  | missingContent
  | missingEntry
  | missingKey
  | unclosedCollection
  | unknownAnchor
  | severalDocuments
  /-- A value of another shape than the field that it stands for. -/
  | wrongType
  | repeatedField
  deriving DecidableEq, Repr

def Fault.message : Fault → String
  | forbiddenCharacter => "control characters are not allowed"
  | strayCharacter => "found character that cannot start any token"
  | tabInIndentation => "found a tab character where an indentation space is expected"
  | unfinishedKey => "could not find expected colon"
  | entryNotAllowed => "block sequence entries are not allowed in this context"
  | keyNotAllowed => "mapping keys are not allowed in this context"
  | valueNotAllowed => "mapping values are not allowed in this context"
  | unfinishedScalar => "found unexpected end of stream"
  | documentMarkInScalar => "found unexpected document indicator"
  | unknownEscape => "found unknown escape character"
  | badCodePoint => "found invalid character escape code"
  | colonInScalar => "found unexpected colon"
  | badBlockHeader => "did not find expected comment or line break"
  | badName => "did not find expected alphabetic or numeric character"
  | badTag => "did not find expected tag"
  | badDirective => "found unknown or incomplete directive"
  | repeatedDirective => "found duplicate directive"
  | unsupportedVersion => "found incompatible document version"
  | undefinedHandle => "found undefined tag handle"
  | missingDocumentStart => "did not find expected start of a document"
  | missingContent => "did not find expected node content"
  | missingEntry => "did not find expected indicator of an entry"
  | missingKey => "did not find expected key"
  | unclosedCollection => "did not find expected comma or closing bracket"
  | unknownAnchor => "unknown anchor"
  | severalDocuments => "deserializing from more than one document is not supported"
  | wrongType => "invalid type"
  | repeatedField => "duplicate field"

end Thaw.Yaml
