namespace Thaw.Segment

/-- What the name of every segment begins with. -/
def nameStem : String := "crest_"

/-- The name of segment `id`; any number names a segment. -/
def nameOf (id : Int32) : String := s!"/{nameStem}{id.toInt}"

/-- The identifier of a segment that a restore signal announces: a positive number, as zero on the
signal stands for no segment. -/
structure Id where
  value : Int32
  positive : 0 < value.toInt
  deriving DecidableEq

def Id.ofInt32? (value : Int32) : Option Id :=
  if positive : 0 < value.toInt then some ⟨value, positive⟩ else none

def Id.text (id : Id) : String := toString id.value.toInt

end Thaw.Segment
