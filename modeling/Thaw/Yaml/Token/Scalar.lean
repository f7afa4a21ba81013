import Thaw.Text.Numeral
import Thaw.Yaml.Cursor

namespace Thaw.Yaml

inductive ScalarStyle where
  | plain
  | singleQuoted
  | doubleQuoted
  | literal
  | folded
  deriving DecidableEq, Repr

/-- The blanks and line breaks between two parts of a scalar. -/
structure Gap where
  /-- The blanks in front of the first line break. -/
  blanks : List Char
  isBroken : Bool
  firstBreak : List Char
  otherBreaks : List Char
  deriving DecidableEq, Repr

namespace Gap

def none : Gap := ⟨[], false, [], []⟩

/-- The gap behind an escaped line break. -/
def escaped : Gap := ⟨[], true, [], []⟩

def text (g : Gap) : List Char :=
  if !g.isBroken then g.blanks
  else if g.firstBreak = ['\n'] then (if g.otherBreaks.isEmpty then [' '] else g.otherBreaks)
  else g.firstBreak ++ g.otherBreaks

/-- Goes through blanks and line breaks. Behind a break no tab may stand in front of the column
`indent`. -/
def scan (indent : Int) : (fuel : Nat) → Gap → Cursor → Except Fault (Gap × Cursor)
  | 0, g, c => .ok (g, c)
  | fuel + 1, g, c =>
    match c.head? with
    | Option.none => .ok (g, c)
    | some char =>
      if isSpace char then
        if g.isBroken && char = '\t' && (c.column : Int) < indent then .error .tabInIndentation
        else if g.isBroken then scan indent fuel g (c.forward 1)
        else scan indent fuel { g with blanks := g.blanks ++ [char] } (c.forward 1)
      else if isBreak char then
        if g.isBroken then
          scan indent fuel { g with otherBreaks := g.otherBreaks ++ c.lineText } c.nextLine
        else scan indent fuel ⟨[], true, c.lineText, []⟩ c.nextLine
      else .ok (g, c)

end Gap

namespace Scalar

/-- The characters that end a plain scalar inside a flow collection. -/
def flowEnds : List Char := [',', '[', ']', '{', '}']

/-- A part of a plain scalar, up to a blank, a break or an indicator. `text` is the part read so far,
the last character first. -/
def plainPart (inFlow : Bool) (text : List Char) : List Char → Except Fault (List Char)
  | [] => .ok text.reverse
  | char :: rest =>
    if endsWord (some char) then .ok text.reverse
    else if inFlow && char = ':' && rest.head?.any (fun next => next = '?' || flowEnds.contains next) then
      .error .colonInScalar
    else if char = ':' && endsWord rest.head? then .ok text.reverse
    else if inFlow && flowEnds.contains char then .ok text.reverse
    else plainPart inFlow (char :: text) rest

/-- Reads parts of a plain scalar and the gaps between them. The result tells whether the last gap
holds a line break. -/
def plain (inFlow : Bool) (indent : Int) : (fuel : Nat) → (text : List Char) → Gap → Cursor →
    Except Fault (List Char × Bool × Cursor)
  | 0, text, g, c => .ok (text, g.isBroken, c)
  | fuel + 1, text, g, c => do
    if c.isAtDocumentMark || c.isAt '#' then return (text, g.isBroken, c)
    let part ← plainPart inFlow [] c.rest
    let text := if part.isEmpty then text else text ++ g.text ++ part
    let broken := part.isEmpty && g.isBroken
    let c := c.forward part.length
    if !endsWord c.head? || c.rest.isEmpty then return (text, broken, c)
    let (g, c) ← Gap.none.scan indent (c.rest.length + 1) c
    if !inFlow && (c.column : Int) < indent then return (text, g.isBroken, c)
    plain inFlow indent fuel text g c

def escapes : List (Char × Char) :=
  [('0', '\x00'), ('a', '\x07'), ('b', '\x08'), ('t', '\t'), ('\t', '\t'), ('n', '\n'), ('v', '\x0b'),
   ('f', '\x0c'), ('r', '\r'), ('e', '\x1b'), (' ', ' '), ('\x22', '\x22'), ('/', '/'), ('\\', '\\'),
   ('N', '\u0085'), ('_', '\u00a0'), ('L', '\u2028'), ('P', '\u2029')]

def escapeWidths : List (Char × Nat) := [('x', 2), ('u', 4), ('U', 8)]

/-- The character behind a backslash, and the length of the escape with the backslash. -/
def escape (rest : List Char) : Except Fault (Char × Nat) :=
  match rest with
  | [] => .error .unknownEscape
  | mark :: digits =>
    match escapes.lookup mark, escapeWidths.lookup mark with
    | some char, _ => .ok (char, 2)
    | none, some width =>
      let digits := digits.take width
      match Text.Numeral.digits? 16 digits with
      | some n =>
        if digits.length < width || 0x10FFFF < n || (0xD800 ≤ n && n ≤ 0xDFFF) then .error .badCodePoint
        else .ok (.ofNat n, width + 2)
      | none => .error .badCodePoint
    | none, none => .error .unknownEscape

/-- A part of a quoted scalar, up to a blank, a break or the closing quote, and what of the gap behind
it is known already. -/
def quotedPart (isDouble : Bool) : (fuel : Nat) → (text : List Char) → Cursor →
    Except Fault (List Char × Gap × Cursor)
  | 0, text, c => .ok (text.reverse, .none, c)
  | fuel + 1, text, c =>
    match c.rest with
    | [] => .ok (text.reverse, .none, c)
    | char :: rest =>
      if endsWord (some char) then .ok (text.reverse, .none, c)
      else if isDouble then
        if char = '\x22' then .ok (text.reverse, .none, c)
        else if char = '\\' then
          if rest.head?.any isBreak then .ok (text.reverse, .escaped, (c.forward 1).nextLine)
          else
            match escape rest with
            | .error e => .error e
            | .ok (char, width) => quotedPart isDouble fuel (char :: text) (c.forward width)
        else quotedPart isDouble fuel (char :: text) (c.forward 1)
      else if char = '\x27' then
        if rest.head? == some '\x27' then quotedPart isDouble fuel (char :: text) (c.forward 2)
        else .ok (text.reverse, .none, c)
      else quotedPart isDouble fuel (char :: text) (c.forward 1)

/-- Reads a quoted scalar behind its opening quote, up to and with the closing one. -/
def quoted (isDouble : Bool) : (fuel : Nat) → (text : List Char) → Cursor →
    Except Fault (List Char × Cursor)
  | 0, _, _ => .error .unfinishedScalar
  | fuel + 1, text, c => do
    if c.isAtDocumentMark then throw .documentMarkInScalar
    if c.rest.isEmpty then throw .unfinishedScalar
    let (part, known, c) ← quotedPart isDouble (c.rest.length + 1) [] c
    let text := text ++ part
    if c.isAt (if isDouble then '\x22' else '\x27') then return (text, c.forward 1)
    let (g, c) ← known.scan 0 (c.rest.length + 1) c
    quoted isDouble fuel (text ++ g.text) c

/-- What becomes of the line breaks at the end of a block scalar. -/
inductive Chomping where
  | strip
  | clip
  | keep
  deriving DecidableEq, Repr

def chomping? (c : Cursor) : Option Chomping :=
  match c.head? with
  | some '+' => some .keep
  | some '-' => some .strip
  | _ => none

def increment? (c : Cursor) : Except Fault (Option Nat) :=
  match c.head?.bind (Text.Numeral.digit? 10) with
  | some 0 => .error .badBlockHeader
  | result => .ok result

/-- The signs behind the indicator of a block scalar, in either order. -/
def blockHeader (c : Cursor) : Except Fault (Chomping × Option Nat × Cursor) := do
  match chomping? c with
  | some chomping =>
    let c := c.forward 1
    match ← increment? c with
    | some n => return (chomping, some n, c.forward 1)
    | none => return (chomping, none, c)
  | none =>
    match ← increment? c with
    | some n =>
      let c := c.forward 1
      match chomping? c with
      | some chomping => return (chomping, some n, c.forward 1)
      | none => return (.clip, some n, c)
    | none => return (.clip, none, c)

/-- Goes through empty lines and indentation. Without a known indentation every space counts as such.
The result holds the line breaks and the widest indentation seen. -/
def blockBreaks (indent : Option Nat) : (fuel : Nat) → (breaks : List Char) → (widest : Nat) → Cursor →
    Except Fault (List Char × Nat × Cursor)
  | 0, breaks, widest, c => .ok (breaks, widest, c)
  | fuel + 1, breaks, widest, c =>
    let spaces := (c.run (· = ' ')).length
    let c := c.forward (match indent with
      | some n => min spaces (n - c.column)
      | none => spaces)
    let widest := max widest c.column
    if c.isAt '\t' && indent.all (c.column < ·) then .error .tabInIndentation
    else if c.head?.any isBreak then blockBreaks indent fuel (breaks ++ c.lineText) widest c.nextLine
    else .ok (breaks, widest, c)

/-- The text of a block scalar while it is read: the lines so far, the last break, the empty lines
behind it, and whether the last line began with a blank. -/
structure Block where
  text : List Char
  lastBreak : List Char
  emptyLines : List Char
  afterBlank : Bool

/-- The text with the breaks in front of a further line. Folding drops a single break between two lines
of which none begins with a blank. -/
def Block.joined (b : Block) (isLiteral beforeBlank : Bool) : List Char :=
  if !isLiteral && b.lastBreak = ['\n'] && !b.afterBlank && !beforeBlank then
    b.text ++ (if b.emptyLines.isEmpty then [' '] else []) ++ b.emptyLines
  else b.text ++ b.lastBreak ++ b.emptyLines

def Block.chomped (b : Block) : Chomping → List Char
  | .strip => b.text
  | .clip => b.text ++ b.lastBreak
  | .keep => b.text ++ b.lastBreak ++ b.emptyLines

/-- Reads the lines of a block scalar that stand at its indentation. -/
def blockLines (isLiteral : Bool) (indent : Nat) : (fuel : Nat) → Block → Cursor →
    Except Fault (Block × Cursor)
  | 0, b, c => .ok (b, c)
  | fuel + 1, b, c =>
    if c.column ≠ indent || c.rest.isEmpty then .ok (b, c)
    else do
      let startsBlank := c.head?.any isSpace
      let line := c.run fun char => !isBreak char
      let text := b.joined isLiteral startsBlank ++ line
      let c := c.forward line.length
      let lastBreak := c.lineText
      let c := if c.rest.isEmpty then c else c.nextLine
      let (emptyLines, _, c) ← blockBreaks (some indent) (c.rest.length + 1) [] 0 c
      blockLines isLiteral indent fuel ⟨text, lastBreak, emptyLines, startsBlank⟩ c

/-- Reads a block scalar behind its indicator. The block around it is indented by `outer`, or is none
if that is negative. -/
def block (isLiteral : Bool) (outer : Int) (c : Cursor) : Except Fault (List Char × Cursor) := do
  let (chomping, increment, c) ← blockHeader c
  let c := c.skipComment
  if !endsLine c.head? then throw .badBlockHeader
  let c := if c.rest.isEmpty then c else c.nextLine
  let asked := increment.map fun n => (max outer 0).toNat + n
  let (emptyLines, widest, c) ← blockBreaks asked (c.rest.length + 1) [] 0 c
  let indent := asked.getD (max widest (max (outer + 1) 1).toNat)
  let (b, c) ← blockLines isLiteral indent (c.rest.length + 1) ⟨[], [], emptyLines, false⟩ c
  return (b.chomped chomping, c)

end Scalar

end Thaw.Yaml
