/-!
# Cutting a text at a separator

`pieces` cuts a text at every separator, `cut?` at the first one. Both work on lists of bytes as well
as on lists of characters.
-/

namespace TwelveD.Text

variable {α : Type} [DecidableEq α]

/-- What stands between the separators. There is always one piece more than there are separators. -/
def pieces (separator : α) : List α → List (List α)
  | [] => [[]]
  | a :: rest =>
    if a = separator then [] :: pieces separator rest
    else
      match pieces separator rest with
      | [] => [[a]]
      | piece :: others => (a :: piece) :: others

/-- The pieces written one after the other with a separator between neighbours. -/
def joined (separator : α) : List (List α) → List α
  | [] => []
  | [piece] => piece
  | piece :: others => piece ++ separator :: joined separator others

/-- What stands before and behind the first separator, if there is one. -/
def cut? (separator : α) : List α → Option (List α × List α)
  | [] => none
  | a :: rest =>
    if a = separator then some ([], rest)
    else (cut? separator rest).map fun (before, behind) => (a :: before, behind)

end TwelveD.Text
