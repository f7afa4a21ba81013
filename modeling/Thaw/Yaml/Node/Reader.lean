import Thaw.Yaml.Node.Basic
import Thaw.Yaml.Token.Lexer

namespace Thaw.Yaml

/-- What reading keeps track of. -/
structure NodeReader where
  tokens : List Token
  /-- Handles of tags with the texts for which they stand. -/
  handles : List (List Char × List Char)
  /-- Names of anchors with the anchors for which they stand last. -/
  names : List (List Char × Nat)
  anchored : List Anchored
  /-- The number of anchored nodes that have begun. -/
  begun : Nat

abbrev Read := StateT NodeReader (Except Fault)

namespace Read

def peek : Read (Option Token) := return (← get).tokens.head?

def isNext (tokens : List Token) : Read Bool := return (← peek).any tokens.contains

def drop : Read Unit := modify fun r => { r with tokens := r.tokens.tail }

/-- What may stand in front of a node. -/
structure Marking where
  anchor : Option (List Char)
  tag : Option WrittenTag

/-- An anchor and a tag in either order, each of them optional. -/
def marking : Read Marking := do
  match ← peek with
  | some (.anchor name) =>
    drop
    match ← peek with
    | some (.tag tag) =>
      drop
      return ⟨some name, some tag⟩
    | _ => return ⟨some name, none⟩
  | some (.tag tag) =>
    drop
    match ← peek with
    | some (.anchor name) =>
      drop
      return ⟨some name, some tag⟩
    | _ => return ⟨none, some tag⟩
  | _ => return ⟨none, none⟩

def fullTag (tag : WrittenTag) : Read (List Char) := do
  if tag.handle.isEmpty then return tag.suffix
  match (← get).handles.lookup tag.handle with
  | some replacement => return replacement ++ tag.suffix
  | none => throw .undefinedHandle

/-- Gives an anchor to a node that begins here. A new anchor is numbered by the names that are known,
also where its own name is among them. -/
def beginAnchored (name : List Char) : Read (Nat × Nat) := do
  let r ← get
  let anchor := r.names.length
  let others := r.names.filter fun known => known.1 != name
  set { r with names := (name, anchor) :: others, begun := r.begun + 1 }
  return (anchor, r.begun)

def endAnchored (place : Nat × Nat) (node : Node) : Read Unit :=
  modify fun r => { r with anchored := ⟨place.1, place.2, node⟩ :: r.anchored }

def aliasOf (name : List Char) : Read Node := do
  match (← get).names.lookup name with
  | some anchor => return .alias anchor
  | none => throw .unknownAnchor

/-- The tag that counts as none. -/
def plainTag : List Char := ['!']

/-- Tokens before which the key or the value of a block mapping is left out. -/
def blockPairEnds : List Token := [.key, .value, .blockEnd]

mutual

def node : (fuel : Nat) → (inBlock isIndentless : Bool) → Read Node
  | 0, _, _ => throw .missingContent
  | fuel + 1, inBlock, isIndentless => do
    if let some (.alias name) ← peek then
      drop
      return ← aliasOf name
    let marking ← marking
    let tag ← marking.tag.mapM fullTag
    match marking.anchor with
    | none => content fuel inBlock isIndentless tag false
    | some name =>
      let place ← beginAnchored name
      let node ← content fuel inBlock isIndentless tag true
      endAnchored place node
      return node

/-- A node behind its anchor and tag, with which it may be left out. -/
def content : (fuel : Nat) → (inBlock isIndentless : Bool) → (tag : Option (List Char)) →
    (isAnchored : Bool) → Read Node
  | 0, _, _, _, _ => throw .missingContent
  | fuel + 1, inBlock, isIndentless, tag, isAnchored => do
    match ← peek, inBlock, isIndentless with
    | some .blockEntry, _, true => return .sequence (← indentlessItems fuel)
    | some (.scalar style text), _, _ =>
      drop
      return .scalar style (if tag == some plainTag then none else tag) text
    | some .flowSequenceStart, _, _ =>
      drop
      return .sequence (← flowItems fuel true)
    | some .flowMappingStart, _, _ =>
      drop
      return .mapping (← flowPairs fuel true)
    | some .blockSequenceStart, true, _ =>
      drop
      return .sequence (← blockItems fuel)
    | some .blockMappingStart, true, _ =>
      drop
      return .mapping (← blockPairs fuel)
    | _, _, _ =>
      if isAnchored || tag.isSome then return .scalar .plain tag [] else throw .missingContent

/-- A node in a block, or none before one of the tokens `ends`. -/
def blockNode : (fuel : Nat) → (isIndentless : Bool) → (ends : List Token) → Read Node
  | 0, _, _ => throw .missingContent
  | fuel + 1, isIndentless, ends => do
    if ← isNext ends then return .empty else node fuel true isIndentless

/-- A node in a flow collection, or none before one of the tokens `ends`. -/
def flowNode : (fuel : Nat) → (ends : List Token) → Read Node
  | 0, _ => throw .missingContent
  | fuel + 1, ends => do
    if ← isNext ends then return .empty else node fuel false false

def blockItems : (fuel : Nat) → Read (List Node)
  | 0 => throw .missingEntry
  | fuel + 1 => do
    match ← peek with
    | some .blockEntry =>
      drop
      let item ← blockNode fuel false [.blockEntry, .blockEnd]
      return item :: (← blockItems fuel)
    | some .blockEnd =>
      drop
      return []
    | _ => throw .missingEntry

/-- The items of a sequence that is indented no more than the mapping around it. -/
def indentlessItems : (fuel : Nat) → Read (List Node)
  | 0 => throw .missingEntry
  | fuel + 1 => do
    match ← peek with
    | some .blockEntry =>
      drop
      let item ← blockNode fuel false [.blockEntry, .key, .value, .blockEnd]
      return item :: (← indentlessItems fuel)
    | _ => return []

def blockPairs : (fuel : Nat) → Read (List (Node × Node))
  | 0 => throw .missingKey
  | fuel + 1 => do
    match ← peek with
    | some .key =>
      drop
      let key ← blockNode fuel true blockPairEnds
      let value ← blockValue fuel
      return (key, value) :: (← blockPairs fuel)
    | some .blockEnd =>
      drop
      return []
    | _ => throw .missingKey

def blockValue : (fuel : Nat) → Read Node
  | 0 => throw .missingContent
  | fuel + 1 => do
    match ← peek with
    | some .value =>
      drop
      blockNode fuel true blockPairEnds
    | _ => return .empty

def flowItems : (fuel : Nat) → (isFirst : Bool) → Read (List Node)
  | 0, _ => throw .unclosedCollection
  | fuel + 1, isFirst => do
    if !(← isNext [.flowSequenceEnd]) && !isFirst then
      if !(← isNext [.flowEntry]) then throw .unclosedCollection
      drop
    match ← peek with
    | some .flowSequenceEnd =>
      drop
      return []
    | some .key =>
      drop
      let pair ← flowItemPair fuel
      return .mapping [pair] :: (← flowItems fuel false)
    | _ =>
      let item ← node fuel false false
      return item :: (← flowItems fuel false)

/-- A pair that stands for a mapping of its own in a flow sequence. Where its key is left out, the
token behind the place of the key is dropped with it. -/
def flowItemPair : (fuel : Nat) → Read (Node × Node)
  | 0 => throw .missingContent
  | fuel + 1 => do
    let ends := [.flowEntry, .flowSequenceEnd]
    let isLeftOut ← isNext (.value :: ends)
    if isLeftOut then drop
    let key ← if isLeftOut then pure .empty else node fuel false false
    if ← isNext [.value] then
      drop
      return (key, ← flowNode fuel ends)
    else return (key, .empty)

def flowPairs : (fuel : Nat) → (isFirst : Bool) → Read (List (Node × Node))
  | 0, _ => throw .unclosedCollection
  | fuel + 1, isFirst => do
    if !(← isNext [.flowMappingEnd]) && !isFirst then
      if !(← isNext [.flowEntry]) then throw .unclosedCollection
      drop
    let ends := [.flowEntry, .flowMappingEnd]
    match ← peek with
    | some .flowMappingEnd =>
      drop
      return []
    | some .key =>
      drop
      let key ← flowNode fuel (.value :: ends)
      if ← isNext [.value] then
        drop
        let value ← flowNode fuel ends
        return (key, value) :: (← flowPairs fuel false)
      else return (key, .empty) :: (← flowPairs fuel false)
    | _ =>
      let key ← node fuel false false
      return (key, .empty) :: (← flowPairs fuel false)

end

def standardHandles : List (List Char × List Char) :=
  [(['!'], ['!']), (['!', '!'], "tag:yaml.org,2002:".toList)]

/-- Reads directives: at most one of a version, and at most one for each handle. -/
def directives : (fuel : Nat) → (hasVersion : Bool) → Read Unit
  | 0, _ => throw .badDirective
  | fuel + 1, hasVersion => do
    match ← peek with
    | some (.versionDirective major minor) =>
      drop
      if hasVersion then throw .repeatedDirective
      if major ≠ 1 || (minor ≠ 1 && minor ≠ 2) then throw .unsupportedVersion
      directives fuel true
    | some (.tagDirective handle replacement) =>
      drop
      let r ← get
      if r.handles.any fun known => known.1 == handle then throw .repeatedDirective
      set { r with handles := (handle, replacement) :: r.handles }
      directives fuel hasVersion
    | _ => return

/-- Whether a document begins with the next token only after a mark. -/
def needsMark : Option Token → Bool
  | some (.versionDirective _ _) | some (.tagDirective _ _) | some .documentStart => true
  | _ => false

/-- Whether a document has no root before the next token. -/
def endsDocument (token : Option Token) : Bool :=
  token.isNone || token == some .documentEnd || needsMark token

def document (fuel : Nat) : Read Node := do
  if needsMark (← peek) then
    directives fuel false
    if !(← isNext [.documentStart]) then throw .missingDocumentStart
    drop
    modify fun r => { r with handles := r.handles ++ standardHandles }
    if endsDocument (← peek) then return .empty else node fuel true false
  else
    modify fun r => { r with handles := standardHandles }
    node fuel true false

def dropEnds : List Token → List Token
  | .documentEnd :: tokens => dropEnds tokens
  | tokens => tokens

end Read

/-- The document of a text, if there is one. There may be no second one. -/
def Document.read? (text : String) : Except Fault (Option Document) := do
  let tokens ← Token.scan text
  if tokens.isEmpty then return none
  let fuel := 2 * tokens.length + 4
  let (root, r) ← (Read.document fuel).run ⟨tokens, [], [], [], 0⟩
  if !(Read.dropEnds r.tokens).isEmpty then throw .severalDocuments
  return some ⟨root, r.anchored⟩

end Thaw.Yaml
