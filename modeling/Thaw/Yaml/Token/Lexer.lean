import Thaw.Yaml.Token.Mark

namespace Thaw.Yaml

/-- A place at which a simple key may have begun. -/
structure KeyStart where
  /-- The number of tokens before it. -/
  position : Nat
  /-- Whether nothing but a key can stand here. -/
  isRequired : Bool
  index : Nat
  line : Nat
  column : Nat
  deriving DecidableEq, Repr

structure Lexer where
  cursor : Cursor
  /-- The tokens so far, the last one first. -/
  tokens : List Token
  /-- The column of the innermost block, or `-1` outside of all blocks. -/
  indent : Int
  outerIndents : List Int
  /-- Whether a simple key may begin here. -/
  allowsKey : Bool
  key : Option KeyStart
  /-- What `key` was in the collections around the innermost one. -/
  outerKeys : List (Option KeyStart)
  deriving DecidableEq, Repr

namespace Lexer

def start (text : List Char) : Lexer := ⟨.start text, [], -1, [], true, none, []⟩

def inFlow (l : Lexer) : Bool := !l.outerKeys.isEmpty

def emit (l : Lexer) (token : Token) : Lexer := { l with tokens := token :: l.tokens }

/-- Puts a token behind the first `position` ones. -/
def emitAt (l : Lexer) (position : Nat) (token : Token) : Lexer :=
  let later := l.tokens.take (l.tokens.length - position)
  let earlier := l.tokens.drop (l.tokens.length - position)
  { l with tokens := later ++ token :: earlier }

def moveTo (l : Lexer) (c : Cursor) : Lexer := { l with cursor := c }

def allowKey (l : Lexer) (allows : Bool) : Lexer := { l with allowsKey := allows }

/-- Ends the blocks that are indented by more than `column`. -/
def endBlocks (column : Int) (l : Lexer) : Lexer :=
  let (ended, left) := close l.indent l.outerIndents
  { l with
    tokens := List.replicate ended .blockEnd ++ l.tokens
    indent := left.headD (-1)
    outerIndents := left.tail }
where
  /-- The number of blocks that end, and the columns of those that are left. -/
  close (indent : Int) : List Int → Nat × List Int
    | [] => (0, [indent])
    | outer :: others =>
      if column < indent then
        let (ended, left) := close outer others
        (ended + 1, left)
      else (0, indent :: outer :: others)

/-- Ends blocks unless a flow collection is open. -/
def unindent (column : Int) (l : Lexer) : Lexer := if l.inFlow then l else l.endBlocks column

/-- Begins a block at a column behind that of the innermost one. -/
def beginBlock (l : Lexer) (column : Nat) (position : Nat) (token : Token) : Lexer :=
  if l.inFlow || (column : Int) ≤ l.indent then l
  else
    emitAt { l with indent := column, outerIndents := l.indent :: l.outerIndents } position token

/-- Begins a block here. -/
def beginBlockHere (l : Lexer) (token : Token) : Lexer :=
  l.beginBlock l.cursor.column l.tokens.length token

/-- Gives up the key that may have begun. -/
def dropKey (l : Lexer) : Except Fault Lexer :=
  if l.key.any (·.isRequired) then .error .unfinishedKey else .ok { l with key := none }

/-- Notes that a key may begin here. -/
def noteKey (l : Lexer) : Except Fault Lexer :=
  if !l.allowsKey then .ok l
  else do
    let l ← l.dropKey
    let c := l.cursor
    let isRequired := !l.inFlow && l.indent = (c.column : Int)
    return { l with key := some ⟨l.tokens.length, isRequired, c.index, c.line, c.column⟩ }

/-- The most characters of a simple key. -/
def maxKeyLength : Nat := 1024

/-- A simple key lies on one line and is not too long. -/
def isStale (c : Cursor) (key : KeyStart) : Bool :=
  key.line < c.line || key.index + maxKeyLength < c.index

/-- A key that may have begun, unless it is stale; a required key must not be. -/
def refresh (c : Cursor) : Option KeyStart → Except Fault (Option KeyStart)
  | none => .ok none
  | some key =>
    if !isStale c key then .ok (some key)
    else if key.isRequired then .error .unfinishedKey
    else .ok none

def dropStaleKeys (l : Lexer) : Except Fault Lexer := do
  let outerKeys ← l.outerKeys.mapM (refresh l.cursor)
  let key ← refresh l.cursor l.key
  return { l with key := key, outerKeys := outerKeys }

/-- Goes to the next token. A tab may not stand where a simple key may begin in a block. -/
def skipBlanks : (fuel : Nat) → Lexer → Lexer
  | 0, l => l
  | fuel + 1, l =>
    let c := l.cursor
    let c := if c.index = 0 && c.isAt '\ufeff' then c.forward 1 else c
    let c := c.skip fun char => char = ' ' || (char = '\t' && (l.inFlow || !l.allowsKey))
    let c := if c.isAt '#' then c.skipLine else c
    if c.head?.any isBreak then
      skipBlanks fuel { l with cursor := c.nextLine, allowsKey := l.allowsKey || !l.inFlow }
    else l.moveTo c

/-- Reads indicators of `width` characters as a token. -/
def indicator (l : Lexer) (width : Nat) (token : Token) : Lexer :=
  (l.emit token).moveTo (l.cursor.forward width)

def documentMark (l : Lexer) (token : Token) : Except Fault Lexer := do
  let l ← (l.unindent (-1)).dropKey
  return (l.allowKey false).indicator 3 token

def directive (l : Lexer) : Except Fault Lexer := do
  let l ← (l.unindent (-1)).dropKey
  let (token, c) ← scanDirective l.cursor
  return ((l.allowKey false).emit token).moveTo c

def beginFlow (l : Lexer) (token : Token) : Except Fault Lexer := do
  let l ← l.noteKey
  return { l with key := none, outerKeys := l.key :: l.outerKeys, allowsKey := true }.indicator 1 token

def endFlow (l : Lexer) (token : Token) : Except Fault Lexer := do
  let l ← l.dropKey
  let l := { l with key := l.outerKeys.head?.join, outerKeys := l.outerKeys.tail }
  return (l.allowKey false).indicator 1 token

def flowEntry (l : Lexer) : Except Fault Lexer := do
  let l ← l.dropKey
  return (l.allowKey true).indicator 1 .flowEntry

def blockEntry (l : Lexer) : Except Fault Lexer := do
  if !l.inFlow && !l.allowsKey then throw .entryNotAllowed
  let l ← (l.beginBlockHere .blockSequenceStart).dropKey
  return (l.allowKey true).indicator 1 .blockEntry

def explicitKey (l : Lexer) : Except Fault Lexer := do
  if !l.inFlow && !l.allowsKey then throw .keyNotAllowed
  let l ← (l.beginBlockHere .blockMappingStart).dropKey
  return (l.allowKey (!l.inFlow)).indicator 1 .key

/-- The indicator of a value makes a key of what may have been one. -/
def value (l : Lexer) : Except Fault Lexer :=
  match l.key with
  | some key =>
    let l := (l.emitAt key.position .key).beginBlock key.column key.position .blockMappingStart
    .ok ({ l with key := none, allowsKey := false }.indicator 1 .value)
  | none => do
    if !l.inFlow && !l.allowsKey then throw .valueNotAllowed
    let l := l.beginBlockHere .blockMappingStart
    return (l.allowKey (!l.inFlow)).indicator 1 .value

def name (l : Lexer) (token : List Char → Token) : Except Fault Lexer := do
  let l ← l.noteKey
  let (name, c) ← scanName (l.cursor.forward 1)
  return ((l.allowKey false).emit (token name)).moveTo c

def tag (l : Lexer) : Except Fault Lexer := do
  let l ← l.noteKey
  let (tag, c) ← scanTag l.inFlow l.cursor
  return ((l.allowKey false).emit (.tag tag)).moveTo c

def blockScalar (l : Lexer) (style : ScalarStyle) : Except Fault Lexer := do
  let l ← l.dropKey
  let (text, c) ← Scalar.block (style = .literal) l.indent (l.cursor.forward 1)
  return ((l.allowKey true).emit (.scalar style text)).moveTo c

def quotedScalar (l : Lexer) (style : ScalarStyle) : Except Fault Lexer := do
  let l ← l.noteKey
  let c := l.cursor.forward 1
  let (text, c) ← Scalar.quoted (style = .doubleQuoted) (c.rest.length + 1) [] c
  return ((l.allowKey false).emit (.scalar style text)).moveTo c

/-- A simple key may begin behind a plain scalar that ends in a line break. -/
def plainScalar (l : Lexer) : Except Fault Lexer := do
  let l ← l.noteKey
  let c := l.cursor
  let (text, broken, c) ← Scalar.plain l.inFlow (l.indent + 1) (c.rest.length + 1) [] .none c
  return ((l.allowKey broken).emit (.scalar .plain text)).moveTo c

/-- Characters that cannot begin a plain scalar, or not without a look at what follows. -/
def indicators : List Char :=
  ['-', '?', ':', ',', '[', ']', '{', '}', '#', '&', '*', '!', '|', '>', '\x27', '\x22', '%', '@', '\x60']

/-- Whether a plain scalar begins with `char` before `next`. -/
def beginsPlain (l : Lexer) (char : Char) (next : Option Char) : Bool :=
  (!endsWord (some char) && !indicators.contains char) ||
    (char = '-' && !next.any isSpace) ||
    (!l.inFlow && (char = '?' || char = ':') && !endsWord next)

/-- Reads the token that begins with `char`. -/
def token (l : Lexer) (char : Char) : Except Fault Lexer :=
  let c := l.cursor
  let next := c.at? 1
  if c.column = 0 && char = '%' then l.directive
  else if c.isAtMark '-' then l.documentMark .documentStart
  else if c.isAtMark '.' then l.documentMark .documentEnd
  else if char = '[' then l.beginFlow .flowSequenceStart
  else if char = '{' then l.beginFlow .flowMappingStart
  else if char = ']' then l.endFlow .flowSequenceEnd
  else if char = '}' then l.endFlow .flowMappingEnd
  else if char = ',' then l.flowEntry
  else if char = '-' && endsWord next then l.blockEntry
  else if char = '?' && (l.inFlow || endsWord next) then l.explicitKey
  else if char = ':' && (l.inFlow || endsWord next) then l.value
  else if char = '*' then l.name .alias
  else if char = '&' then l.name .anchor
  else if char = '!' then l.tag
  else if char = '|' && !l.inFlow then l.blockScalar .literal
  else if char = '>' && !l.inFlow then l.blockScalar .folded
  else if char = '\x27' then l.quotedScalar .singleQuoted
  else if char = '\x22' then l.quotedScalar .doubleQuoted
  else if l.beginsPlain char next then l.plainScalar
  else .error .strayCharacter

/-- Reads tokens up to the end of the text. Each of them takes a character at least. -/
def run : (fuel : Nat) → Lexer → Except Fault Lexer
  | 0, l => .ok l
  | fuel + 1, l => do
    let l ← (l.skipBlanks (l.cursor.rest.length + 1)).dropStaleKeys
    let l := l.unindent l.cursor.column
    match l.cursor.head? with
    | none => (l.unindent (-1)).dropKey
    | some char => run fuel (← l.token char)

end Lexer

/-- The tokens of a text. -/
def Token.scan (text : String) : Except Fault (List Token) := do
  let chars := text.toList
  if !chars.all isAllowed then throw .forbiddenCharacter
  let l ← Lexer.run (chars.length + 1) (.start chars)
  return l.tokens.reverse

end Thaw.Yaml
