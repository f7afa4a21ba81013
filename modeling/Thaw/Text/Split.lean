namespace Thaw.Text

/-- What stands before and after the first element that satisfies `p`. -/
def cut? {α : Type} (p : α → Bool) : List α → Option (List α × List α)
  | [] => none
  | a :: as =>
    if p a then some ([], as)
    else (cut? p as).map fun (before, after) => (a :: before, after)

/-- The pieces between the elements that satisfy `p`, one more than there are such elements. -/
def split {α : Type} (p : α → Bool) (as : List α) : List (List α) :=
  let (first, others) := as.foldr
    (fun a (piece, pieces) => if p a then ([], piece :: pieces) else (a :: piece, pieces))
    ([], [])
  first :: others

/-- Whether `pattern` stands somewhere in the list, without gaps. -/
def occurs {α : Type} [BEq α] (pattern : List α) : List α → Bool
  | [] => pattern.isEmpty
  | a :: as => pattern.isPrefixOf (a :: as) || occurs pattern as

end Thaw.Text
