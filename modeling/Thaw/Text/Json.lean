namespace Thaw.Text

inductive Json where
  | null
  | number (value : Int)
  | text (value : String)
  | list (items : List Json)
  | record (fields : List (String × Json))

namespace Json

/-- A control character by its number, of which only the last two digits can differ from zero. -/
def controlEscape (c : Char) : List Char :=
  ['\\', 'u', '0', '0', Nat.digitChar (c.toNat / 16), Nat.digitChar (c.toNat % 16)]

/-- Quotes, backslashes and control characters are escaped, some of them by a letter. -/
def escape (c : Char) : List Char :=
  match c with
  | '\x22' => ['\\', '\x22']
  | '\\' => ['\\', '\\']
  | '\x08' => ['\\', 'b']
  | '\t' => ['\\', 't']
  | '\n' => ['\\', 'n']
  | '\x0c' => ['\\', 'f']
  | '\r' => ['\\', 'r']
  | c => if c.toNat < 32 then controlEscape c else [c]

def quoted (text : String) : String :=
  String.ofList ('\x22' :: text.toList.flatMap escape ++ ['\x22'])

def margin (level : Nat) : String := String.ofList (List.replicate (2 * level) ' ')

/-- Members between brackets, each on a line of its own; no members take no line. -/
def bracketed (level : Nat) (opening closing : String) (members : List String) : String :=
  if members.isEmpty then opening ++ closing
  else
    opening ++ "\n" ++ ",\n".intercalate (members.map (margin (level + 1) ++ ·)) ++
      "\n" ++ margin level ++ closing

mutual

def render (level : Nat) : Json → String
  | null => "null"
  | number value => toString value
  | text value => quoted value
  | list items => bracketed level "[" "]" (renderItems (level + 1) items)
  | record fields => bracketed level "\x7b" "\x7d" (renderFields (level + 1) fields)

def renderItems (level : Nat) : List Json → List String
  | [] => []
  | item :: items => item.render level :: renderItems level items

def renderFields (level : Nat) : List (String × Json) → List String
  | [] => []
  | (name, value) :: fields =>
    (quoted name ++ ": " ++ value.render level) :: renderFields level fields

end

end Json

end Thaw.Text
