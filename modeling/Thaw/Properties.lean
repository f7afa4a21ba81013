namespace Thaw

/-- A property with its value; lists of them are kept in ascending order of the keys. -/
structure Property where
  key : String
  value : String
  deriving DecidableEq, Repr

namespace Property

/-- The form in which properties are handed to another process. -/
def text (p : Property) : String := s!"{p.key}={p.value}"

/-- Adds a property at its place, instead of one with the same key. -/
def insert (p : Property) : List Property → List Property
  | [] => [p]
  | q :: qs =>
    if p.key < q.key then p :: q :: qs
    else if p.key = q.key then p :: qs
    else q :: insert p qs

/-- Of several properties with one key the last counts. -/
def collect (ps : List Property) : List Property := ps.foldl (fun qs p => insert p qs) []

end Property

end Thaw
