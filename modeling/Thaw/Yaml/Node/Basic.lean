import Thaw.Yaml.Token.Basic

namespace Thaw.Yaml

inductive Node where
  /-- A text, with the full tag that was given to it. -/
  | scalar (style : ScalarStyle) (tag : Option (List Char)) (text : List Char)
  | sequence (items : List Node)
  | mapping (pairs : List (Node × Node))
  /-- The node that bears an anchor. -/
  | alias (anchor : Nat)

/-- What stands where a node is left out. -/
def Node.empty : Node := .scalar .plain none []

/-- A node that bears an anchor. -/
structure Anchored where
  anchor : Nat
  /-- How many anchored nodes began before it. -/
  rank : Nat
  node : Node

structure Document where
  root : Node
  anchored : List Anchored

namespace Document

/-- The node that an anchor stands for: the last one that began with it. -/
def target? (d : Document) (anchor : Nat) : Option Node :=
  (d.anchored.filter (·.anchor == anchor)).foldl
    (fun best next => if best.all (·.rank < next.rank) then some next else best)
    (none : Option Anchored) |>.map (·.node)

/-- The node that is meant: an alias leads to the node with its anchor, which is no alias itself. -/
def resolve (d : Document) (n : Node) : Node :=
  match n with
  | .alias anchor => (d.target? anchor).getD .empty
  | n => n

end Document

end Thaw.Yaml
