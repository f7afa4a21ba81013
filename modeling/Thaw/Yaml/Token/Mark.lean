import Thaw.Yaml.Token.Basic

namespace Thaw.Yaml

/-- Characters other than blanks that may follow a name directly. -/
def nameEnds : List Char := ['?', ':', ',', ']', '}', '%', '@', '\x60']

/-- Reads the name of an anchor or alias behind its indicator. -/
def scanName (c : Cursor) : Except Fault (List Char × Cursor) :=
  let name := c.run isNameChar
  let c := c.forward name.length
  if !name.isEmpty && (endsWord c.head? || c.head?.any nameEnds.contains) then .ok (name, c)
  else .error .badName

/-- Characters of tags besides those of names. -/
def tagChars : List Char :=
  [';', '/', '?', ':', '@', '&', '=', '+', '$', '.', '%', '!', '~', '*', '\x27', '(', ')']

/-- Further characters of tags where no flow collection can be meant. -/
def verbatimChars : List Char := [',', '[', ']']

/-- The octet that a percent sign and two digits stand for. -/
def octet? : List Char → Option Nat
  | '%' :: high :: low :: _ => Text.Numeral.digits? 16 [high, low]
  | _ => none

/-- The length of a character by its first octet. -/
def leadWidth? (octet : Nat) : Option Nat :=
  if octet < 0x80 then some 1
  else if octet / 0x20 = 0x6 then some 2
  else if octet / 0x10 = 0xE then some 3
  else if octet / 0x8 = 0x1E then some 4
  else none

/-- Reads the octets of a character behind its first one, each as a character. -/
def trailingOctets : (count : Nat) → List Char → Except Fault (List Char)
  | 0, _ => .ok []
  | count + 1, cs =>
    match octet? cs with
    | none => .error .badTag
    | some octet =>
      if octet / 0x40 = 0x2 then (trailingOctets count (cs.drop 3)).map (.ofNat octet :: ·)
      else .error .badTag

/-- Reads the text of a tag, each escaped octet as a character. -/
def scanTagText (isVerbatim : Bool) : (fuel : Nat) → (text : List Char) → Cursor →
    Except Fault (List Char × Cursor)
  | 0, text, c => .ok (text, c)
  | fuel + 1, text, c =>
    match c.head? with
    | none => .ok (text, c)
    | some char =>
      if char = '%' then do
        let some octet := octet? c.rest | throw .badTag
        let some width := leadWidth? octet | throw .badTag
        let others ← trailingOctets (width - 1) (c.rest.drop 3)
        scanTagText isVerbatim fuel (text ++ .ofNat octet :: others) (c.forward (3 * width))
      else if isNameChar char || tagChars.contains char || (isVerbatim && verbatimChars.contains char) then
        scanTagText isVerbatim fuel (text ++ [char]) (c.forward 1)
      else .ok (text, c)

/-- The text of a tag, which continues `head` and is empty only if `head` is not. -/
def scanSuffix (isVerbatim : Bool) (head : List Char) (c : Cursor) : Except Fault (List Char × Cursor) := do
  let (text, c) ← scanTagText isVerbatim (c.rest.length + 1) [] c
  if head.isEmpty && text.isEmpty then throw .badTag
  return (head.drop 1 ++ text, c)

/-- Reads an exclamation mark, a name and perhaps a further mark. -/
def scanHandle (c : Cursor) : Except Fault (List Char × Cursor) := do
  if !c.isAt '!' then throw .badTag
  let name := (c.forward 1).run isNameChar
  let handle := '!' :: name
  let c := c.forward handle.length
  if c.isAt '!' then return (handle ++ ['!'], c.forward 1) else return (handle, c)

def isClosedHandle (handle : List Char) : Bool := 2 ≤ handle.length && handle.getLast? == some '!'

def scanVerbatimTag (c : Cursor) : Except Fault (WrittenTag × Cursor) := do
  let (suffix, c) ← scanSuffix true [] (c.forward 2)
  if !c.isAt '>' then throw .badTag
  return (⟨[], suffix⟩, c.forward 1)

/-- A tag with a handle, which is the single mark where none is closed. -/
def scanShortTag (c : Cursor) : Except Fault (WrittenTag × Cursor) := do
  let (handle, c) ← scanHandle c
  if isClosedHandle handle then
    let (suffix, c) ← scanSuffix false [] c
    return (⟨handle, suffix⟩, c)
  else
    let (suffix, c) ← scanSuffix false handle c
    return (if suffix.isEmpty then ⟨[], ['!']⟩ else ⟨['!'], suffix⟩, c)

/-- Reads a tag, behind which a blank has to follow, or a comma in a flow collection. -/
def scanTag (inFlow : Bool) (c : Cursor) : Except Fault (WrittenTag × Cursor) := do
  let (tag, c) ← if c.at? 1 == some '<' then scanVerbatimTag c else scanShortTag c
  if endsWord c.head? || (inFlow && c.isAt ',') then return (tag, c) else throw .badTag

def maxVersionDigits : Nat := 9

def scanVersionNumber (c : Cursor) : Except Fault (Nat × Cursor) :=
  let digits := c.run fun char => '0' ≤ char && char ≤ '9'
  match Text.Numeral.digits? 10 digits with
  | some n =>
    if maxVersionDigits < digits.length then .error .badDirective else .ok (n, c.forward digits.length)
  | none => .error .badDirective

def scanVersion (c : Cursor) : Except Fault (Token × Cursor) := do
  let (major, c) ← scanVersionNumber (c.skip isSpace)
  if !c.isAt '.' then throw .badDirective
  let (minor, c) ← scanVersionNumber (c.forward 1)
  return (.versionDirective major minor, c)

def scanTagDirective (c : Cursor) : Except Fault (Token × Cursor) := do
  let (handle, c) ← scanHandle (c.skip isSpace)
  if handle != ['!'] && !isClosedHandle handle then throw .badDirective
  if !c.head?.any isSpace then throw .badDirective
  let (replacement, c) ← scanSuffix true [] (c.skip isSpace)
  if !endsWord c.head? then throw .badDirective
  return (.tagDirective handle replacement, c)

/-- Reads a directive with the rest of its line. -/
def scanDirective (c : Cursor) : Except Fault (Token × Cursor) := do
  let c := c.forward 1
  let name := c.run isNameChar
  let c := c.forward name.length
  if name.isEmpty || !endsWord c.head? then throw .badDirective
  let (token, c) ←
    if name == "YAML".toList then scanVersion c
    else if name == "TAG".toList then scanTagDirective c
    else throw .badDirective
  let c := c.skipComment
  if !endsLine c.head? then throw .badDirective
  return (token, if c.rest.isEmpty then c else c.nextLine)

end Thaw.Yaml
