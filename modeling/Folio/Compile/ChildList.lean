/-
  Compiled child lists under construction.

  Text that directly follows text is merged with it.  Text stays a scalar until the list is
  finished, so that a lone number keeps its numeric form and merged numbers print as they would
  alone.
-/
import Folio.Content

namespace Folio

/-- Something to be added to a child list. -/
inductive Piece where
  | text (scalar : Scalar)
  | content (content : Content)

/-- The finished form of a piece that stands alone. -/
def Piece.toContent : Piece → Content
  | text scalar => .text (.ofScalar scalar)
  | content other => other

/-- A child list so far, last entry first. -/
structure ChildList where
  reversed : List Piece := []

namespace ChildList

/-- Adds text; it merges with text directly before it. -/
def pushText (list : ChildList) (scalar : Scalar) : ChildList :=
  match list.reversed with
  | .text previous :: rest => ⟨.text (.string (previous.text ++ scalar.text)) :: rest⟩
  | pieces => ⟨.text scalar :: pieces⟩

/-- Adds content other than text. -/
def push (list : ChildList) (content : Content) : ChildList := ⟨.content content :: list.reversed⟩

/-- Adds a piece of either kind. -/
def add (list : ChildList) : Piece → ChildList
  | .text scalar => list.pushText scalar
  | .content content => list.push content

/-- The entries of the finished list. -/
def finish (list : ChildList) : List Content := (list.reversed.map Piece.toContent).reverse

@[simp] theorem finish_cons (last : Piece) (before : List Piece) :
    finish ⟨last :: before⟩ = finish ⟨before⟩ ++ [last.toContent] := by
  rw [finish, finish, List.map_cons, List.reverse_cons]

end ChildList

/-- The child list of some pieces. -/
def coalesce (pieces : List Piece) : List Content :=
  (pieces.foldl ChildList.add {}).finish

end Folio
