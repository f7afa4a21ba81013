import Thaw.Yaml.Fault

namespace Thaw.Yaml

/-- What is left of a text, and where that begins. All three numbers count from zero. -/
structure Cursor where
  rest : List Char
  index : Nat
  line : Nat
  column : Nat
  deriving DecidableEq, Repr

/-- Characters that a document may hold at all. -/
def isAllowed (c : Char) : Bool :=
  let n := c.toNat
  n = 0x9 || n = 0xA || n = 0xD || (0x20 ≤ n && n ≤ 0x7E) || n = 0x85 || (0xA0 ≤ n && n ≤ 0xD7FF) ||
    (0xE000 ≤ n && n ≤ 0xFFFD) || 0x10000 ≤ n

/-- Line breaks: of the common kinds, the next line of one byte, and the Unicode separators. -/
def isBreak (c : Char) : Bool :=
  c = '\n' || c = '\r' || c = '\u0085' || c = '\u2028' || c = '\u2029'

def isSpace (c : Char) : Bool := c = ' ' || c = '\t'

/-- Characters of anchors, handles and directives. -/
def isNameChar (c : Char) : Bool :=
  ('0' ≤ c && c ≤ '9') || ('A' ≤ c && c ≤ 'Z') || ('a' ≤ c && c ≤ 'z') || c = '_' || c = '-'

/-- Whether a line, if anything, goes on here. -/
def endsLine : Option Char → Bool
  | none => true
  | some c => isBreak c

def endsWord : Option Char → Bool
  | none => true
  | some c => isBreak c || isSpace c

namespace Cursor

def start (text : List Char) : Cursor := ⟨text, 0, 0, 0⟩

def head? (c : Cursor) : Option Char := c.rest.head?

def at? (c : Cursor) (n : Nat) : Option Char := c.rest[n]?

def isAt (c : Cursor) (char : Char) : Bool := c.head? == some char

def forward (c : Cursor) (n : Nat) : Cursor :=
  ⟨c.rest.drop n, c.index + n, c.line, c.column + n⟩

/-- Goes to the next line. A carriage return and a line feed after it are one break. -/
def nextLine (c : Cursor) : Cursor :=
  let width := match c.rest with
    | '\r' :: '\n' :: _ => 2
    | _ => 1
  ⟨c.rest.drop width, c.index + width, c.line + 1, 0⟩

/-- How a line break is read: the common kinds become a line feed. -/
def lineText (c : Cursor) : List Char :=
  match c.head? with
  | some '\u2028' => ['\u2028']
  | some '\u2029' => ['\u2029']
  | some char => if isBreak char then ['\n'] else []
  | none => []

/-- The longest run of characters of a class, which holds no line breaks. -/
def run (c : Cursor) (p : Char → Bool) : List Char := c.rest.takeWhile p

def skip (c : Cursor) (p : Char → Bool) : Cursor := c.forward (c.run p).length

def skipLine (c : Cursor) : Cursor := c.skip fun char => !isBreak char

/-- Goes on behind blanks and a comment, at most to the end of the line. -/
def skipComment (c : Cursor) : Cursor :=
  let c := c.skip isSpace
  if c.isAt '#' then c.skipLine else c

/-- Whether a line of three `mark`s, or one that begins with them as a word, stands here. -/
def isAtMark (c : Cursor) (mark : Char) : Bool :=
  c.column = 0 && c.rest.take 3 == [mark, mark, mark] && endsWord (c.at? 3)

def isAtDocumentMark (c : Cursor) : Bool := c.isAtMark '-' || c.isAtMark '.'

end Cursor

end Thaw.Yaml
