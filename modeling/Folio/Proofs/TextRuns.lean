/-
  Runs of text in child lists.

  Texts that follow one another are merged two by two as they come in: with each further text the
  last entry is printed anew, as a string.  What becomes of a whole run is simple all the same.  It
  is one entry with the texts of the run in order, and a run of a single scalar keeps its form.

  1. **Cuts** — a child list may be cut where no text meets a text (`coalesce_cut`).
  2. **Stretches** — pieces fall into content and runs of text that are as long as they can be, and
     that in one way only (`cut_iff`).
  3. **Runs** — while a run comes in, the last entry is the run so far (`ChildList.foldl_run`), so
     each stretch becomes one entry (`coalesce_runs`).
-/
import Mathlib.Data.List.Chain
import Mathlib.Data.List.Forall2
import Folio.Compile.ChildList

namespace Folio

/-! ## Cuts -/

/-- Whether the piece is text. -/
def Piece.isText : Piece → Bool
  | text _ => true
  | content _ => false

namespace ChildList

/-- Adding to a list looks only at its last entry. -/
theorem foldl_add_onto (pieces : List Piece) : ∀ (last : Piece) (inner base : List Piece),
    (pieces.foldl add ⟨last :: inner ++ base⟩).reversed =
      (pieces.foldl add ⟨last :: inner⟩).reversed ++ base := by
  induction pieces with
  | nil => exact fun _ _ _ => rfl
  | cons piece rest ih =>
    intro last inner base
    cases piece with
    | content content => exact ih (.content content) (last :: inner) base
    | text scalar =>
      cases last with
      | text previous => exact ih (.text (.string (previous.text ++ scalar.text))) inner base
      | content content => exact ih (.text scalar) (.content content :: inner) base

/-- Whether the last entry is text, which further text would be merged with. -/
def endsInText (list : ChildList) : Bool := list.reversed.head?.any Piece.isText

theorem endsInText_add (list : ChildList) (piece : Piece) :
    (list.add piece).endsInText = piece.isText := by
  obtain ⟨reversed⟩ := list
  match piece, reversed with
  | .content _, _ => rfl
  | .text _, [] => rfl
  | .text _, .text _ :: _ => rfl
  | .text _, .content _ :: _ => rfl

/-- The list gets longer unless text meets text. -/
theorem length_add (list : ChildList) (piece : Piece) :
    (list.add piece).reversed.length =
      list.reversed.length + if list.endsInText && piece.isText then 0 else 1 := by
  obtain ⟨reversed⟩ := list
  match piece, reversed with
  | .content _, [] | .content _, .text _ :: _ | .content _, .content _ :: _ => rfl
  | .text _, [] => rfl
  | .text _, .text _ :: _ => rfl
  | .text _, .content _ :: _ => rfl

theorem endsInText_foldl {pieces : List Piece}
    (h : ∀ last ∈ pieces.getLast?, last.isText = false) :
    (pieces.foldl add {}).endsInText = false := by
  rcases List.eq_nil_or_concat' pieces with rfl | ⟨init, last, rfl⟩
  · rfl
  · rw [List.foldl_concat, endsInText_add]
    exact h last (by simp)

/-- What meets no text becomes an entry of its own. -/
theorem add_of_apart {list : ChildList} {piece : Piece}
    (h : list.endsInText = false ∨ piece.isText = false) :
    list.add piece = ⟨piece :: list.reversed⟩ := by
  obtain ⟨reversed⟩ := list
  match piece, reversed, h with
  | .content _, _, _ => rfl
  | .text _, [], _ => rfl
  | .text _, .content _ :: _, _ => rfl
  | .text _, .text _ :: _, .inl hlast => cases hlast
  | .text _, .text _ :: _, .inr hnext => cases hnext

theorem finish_append (later earlier : List Piece) :
    finish ⟨later ++ earlier⟩ = finish ⟨earlier⟩ ++ finish ⟨later⟩ := by
  rw [finish, finish, finish, List.map_append, List.reverse_append]

end ChildList

/-- **Cutting a child list** where no text meets a text changes nothing. -/
theorem coalesce_cut {pieces others : List Piece}
    (h : (∀ last ∈ pieces.getLast?, last.isText = false) ∨
      ∀ next ∈ others.head?, next.isText = false) :
    coalesce (pieces ++ others) = coalesce pieces ++ coalesce others := by
  cases others with
  | nil => rw [List.append_nil]; exact (List.append_nil _).symm
  | cons next rest =>
    have hapart : (pieces.foldl ChildList.add {}).endsInText = false ∨ next.isText = false :=
      h.imp ChildList.endsInText_foldl fun hnext => hnext next rfl
    have honto := ChildList.foldl_add_onto rest next [] (pieces.foldl ChildList.add {}).reversed
    have hfirst : ChildList.add {} next = ⟨[next]⟩ := ChildList.add_of_apart (.inl rfl)
    have hrest : coalesce (next :: rest) = (rest.foldl ChildList.add ⟨[next]⟩).finish := by
      rw [coalesce, List.foldl_cons, hfirst]
    rw [coalesce, List.foldl_append, List.foldl_cons, ChildList.add_of_apart hapart, hrest]
    show ChildList.finish ⟨(rest.foldl ChildList.add ⟨next :: [] ++ _⟩).reversed⟩ = _
    rw [honto, ChildList.finish_append]
    rfl

/-! ## Stretches -/

/-- A stretch of pieces: a run of texts, of which there is at least one, or content. -/
inductive Stretch where
  | run (first : Scalar) (rest : List Scalar)
  | content (content : Content)

namespace Stretch

def isRun : Stretch → Bool
  | run _ _ => true
  | content _ => false

/-- The pieces of the stretch. -/
def pieces : Stretch → List Piece
  | run first rest => .text first :: rest.map .text
  | content entry => [.content entry]

/-- Of two neighbours at least one is no run: neither of them could be longer. -/
def Apart (one next : Stretch) : Prop := one.isRun = false ∨ next.isRun = false

/-- Pieces in stretches, whose runs are as long as they can be. -/
structure Cut (pieces : List Piece) (stretches : List Stretch) : Prop where
  pieces_eq : stretches.flatMap Stretch.pieces = pieces
  maximal : stretches.IsChain Apart

/-- Some stretches with a text before them, which belongs to the run that they start with. -/
def withText (scalar : Scalar) : List Stretch → List Stretch
  | run first rest :: others => run scalar (first :: rest) :: others
  | others => run scalar [] :: others

/-- The stretches that pieces fall into. -/
def ofPieces : List Piece → List Stretch
  | [] => []
  | .text scalar :: rest => withText scalar (ofPieces rest)
  | .content entry :: rest => .content entry :: ofPieces rest

theorem Cut.withText {pieces : List Piece} {stretches : List Stretch} (h : Cut pieces stretches)
    (scalar : Scalar) : Cut (.text scalar :: pieces) (withText scalar stretches) := by
  obtain ⟨rfl, hmaximal⟩ := h
  match stretches, hmaximal with
  | [], _ => exact ⟨rfl, .singleton _⟩
  | .content entry :: others, hmaximal => exact ⟨rfl, hmaximal.cons_cons (.inr rfl)⟩
  | .run first rest :: [], _ => exact ⟨rfl, .singleton _⟩
  | .run first rest :: next :: others, hmaximal =>
    -- the run is longer now, but a run it was
    obtain ⟨hapart, hothers⟩ := List.isChain_cons_cons.1 hmaximal
    exact ⟨rfl, hothers.cons_cons hapart⟩

theorem cut_ofPieces : ∀ pieces : List Piece, Cut pieces (ofPieces pieces)
  | [] => ⟨rfl, .nil⟩
  | .text scalar :: rest => (cut_ofPieces rest).withText scalar
  | .content entry :: rest => by
    obtain ⟨heq, hmaximal⟩ := cut_ofPieces rest
    refine ⟨?_, hmaximal.cons ?_⟩
    · show .content entry :: (ofPieces rest).flatMap Stretch.pieces = _
      rw [heq]
    · exact fun next _ => .inl rfl

/-- A run before stretches that do not start with one is a stretch of its own. -/
theorem ofPieces_run {others : List Piece}
    (h : ∀ next ∈ (ofPieces others).head?, next.isRun = false) (rest : List Scalar) :
    ∀ first, ofPieces ((run first rest).pieces ++ others) = run first rest :: ofPieces others := by
  induction rest with
  | nil =>
    intro first
    show withText first (ofPieces others) = _
    match hothers : ofPieces others with
    | [] => rfl
    | .content _ :: _ => rfl
    | .run _ _ :: _ => cases h _ (by rw [hothers]; rfl)
  | cons next rest ih =>
    intro first
    show withText first (ofPieces ((run next rest).pieces ++ others)) = _
    rw [ih next]
    rfl

/-- **There is one way to cut pieces into stretches.** -/
theorem cut_iff {pieces : List Piece} {stretches : List Stretch} :
    Cut pieces stretches ↔ stretches = ofPieces pieces := by
  refine ⟨?_, fun h => h ▸ cut_ofPieces pieces⟩
  rintro ⟨rfl, hmaximal⟩
  induction stretches with
  | nil => rfl
  | cons stretch others ih =>
    obtain ⟨hapart, hothers⟩ := List.isChain_cons.1 hmaximal
    have hrest : others = ofPieces (others.flatMap Stretch.pieces) := ih hothers
    cases stretch with
    | content entry =>
      show _ = .content entry :: ofPieces (others.flatMap Stretch.pieces)
      rw [← hrest]
    | run first rest =>
      rw [List.flatMap_cons, ofPieces_run, ← hrest]
      rw [← hrest]
      exact fun next hnext => (hapart next hnext).resolve_left Bool.noConfusion

end Stretch

/-! ## Runs -/

/-- The form that a scalar keeps where it stands alone: text, or a number if JSON has it. -/
inductive Scalar.Keeps : Scalar → TextValue → Prop
  | string (s : String) : Keeps (.string s) (.string s)
  | int (n : Int64) : Keeps (.int n) (.number (.ofInt64 n))
  | float (x : Double) (finite : x.isFinite = true) : Keeps (.float x) (.number (.float x finite))
  | printed (x : Double) (h : x.isFinite = false) : Keeps (.float x) (.string x.text)
  | bool (b : Bool) : Keeps (.bool b) (.string (Scalar.bool b).text)

theorem Scalar.keeps_ofScalar (scalar : Scalar) : scalar.Keeps (.ofScalar scalar) := by
  cases scalar with
  | string s => exact .string s
  | int n => exact .int n
  | float x =>
    rw [TextValue.ofScalar, Number.ofDouble?]
    by_cases hfinite : x.isFinite = true
    · rw [dif_pos hfinite]
      exact .float x hfinite
    · rw [dif_neg hfinite]
      exact .printed x (Bool.of_not_eq_true hfinite)
  | bool b => exact .bool b

/-- What a stretch becomes in the finished list: a lone scalar keeps its form, and the texts of two
    and more make one string. -/
inductive Stretch.Becomes : Stretch → Content → Prop
  | lone {scalar : Scalar} {value : TextValue} (h : scalar.Keeps value) :
      Becomes (.run scalar []) (.text value)
  | merged (first next : Scalar) (rest : List Scalar) :
      Becomes (.run first (next :: rest))
        (.text (.string (String.join ((first :: next :: rest).map Scalar.text))))
  | content (entry : Content) : Becomes (.content entry) entry

/-- A scalar with further ones after it, merged into one. -/
def Scalar.followedBy (first : Scalar) : List Scalar → Scalar
  | [] => first
  | next :: rest => .string (String.join ((first :: next :: rest).map Scalar.text))

theorem Scalar.followedBy_merged (first next : Scalar) (rest : List Scalar) :
    (Scalar.string (first.text ++ next.text)).followedBy rest = first.followedBy (next :: rest) := by
  cases rest with
  | nil => simp only [followedBy, List.map_cons, List.map_nil, String.join_cons, String.join_nil,
      String.append_empty]
  | cons other rest =>
    simp only [followedBy, List.map_cons, String.join_cons, String.append_assoc, text]

/-- **The last entry is the run so far**, however many texts have come in. -/
theorem ChildList.foldl_run (rest : List Scalar) (before : List Piece) : ∀ first : Scalar,
    (rest.map Piece.text).foldl add ⟨.text first :: before⟩ =
      ⟨.text (first.followedBy rest) :: before⟩ := by
  induction rest with
  | nil => exact fun _ => rfl
  | cons next rest ih =>
    intro first
    rw [← Scalar.followedBy_merged]
    exact ih (.string (first.text ++ next.text))

/-- A stretch on its own becomes one entry. -/
theorem Stretch.exists_becomes (stretch : Stretch) :
    ∃ entry, coalesce stretch.pieces = [entry] ∧ stretch.Becomes entry := by
  cases stretch with
  | content entry => exact ⟨entry, rfl, .content entry⟩
  | run first rest =>
    have hrun := ChildList.foldl_run rest [] first
    refine ⟨.text (.ofScalar (first.followedBy rest)), ?_, ?_⟩
    · show ChildList.finish ((rest.map Piece.text).foldl ChildList.add ⟨[.text first]⟩) = _
      rw [hrun]
      rfl
    · cases rest with
      | nil => exact .lone first.keeps_ofScalar
      | cons next rest => exact .merged first next rest

theorem Stretch.getLast?_pieces {stretch : Stretch} (h : stretch.isRun = false) :
    ∀ last ∈ stretch.pieces.getLast?, last.isText = false := by
  cases stretch with
  | run => cases h
  | content entry =>
    rintro last ⟨⟩
    rfl

theorem Stretch.head?_pieces {stretches : List Stretch}
    (h : ∀ next ∈ stretches.head?, next.isRun = false) :
    ∀ piece ∈ (stretches.flatMap pieces).head?, piece.isText = false := by
  match stretches, h with
  | [], _ =>
    intro piece hpiece
    cases hpiece
  | .run _ _ :: _, h => cases h _ rfl
  | .content _ :: _, _ =>
    rintro piece ⟨⟩
    rfl

/-- **Each stretch becomes an entry**, in order. -/
theorem Stretch.becomes_coalesce {stretches : List Stretch} (h : stretches.IsChain Apart) :
    List.Forall₂ Becomes stretches (coalesce (stretches.flatMap pieces)) := by
  induction stretches with
  | nil => exact .nil
  | cons stretch others ih =>
    obtain ⟨hapart, hothers⟩ := List.isChain_cons.1 h
    obtain ⟨entry, hentry, hbecomes⟩ := stretch.exists_becomes
    rw [List.flatMap_cons, coalesce_cut, hentry]
    · exact .cons hbecomes (ih hothers)
    · -- no text meets a text: either this stretch is no run, or the next is none
      cases hrun : stretch.isRun with
      | false => exact .inl (getLast?_pieces hrun)
      | true =>
        refine .inr (head?_pieces fun next hnext => ?_)
        exact (hapart next hnext).resolve_left (by rw [hrun]; exact Bool.noConfusion)

/-- A string may come in as one or in two parts. -/
theorem ChildList.pushText_append (list : ChildList) (one next : String) :
    (list.pushText (.string one)).pushText (.string next) =
      list.pushText (.string (one ++ next)) := by
  obtain ⟨reversed⟩ := list
  match reversed with
  | [] | .content _ :: _ => rfl
  | .text previous :: _ => simp only [pushText, Scalar.text, String.append_assoc]

/-- **Runs of text are maximal and keep their order.**  Whatever texts and content are added to a
    list, they fall in one way into content and runs that no neighbour could make longer, and the
    finished list has one entry for each of these, in order: content as it is, a lone scalar in its
    own form, and two and more scalars as the string of their texts in a row.  A string of a run
    may as well come in two parts. -/
theorem coalesce_runs (pieces : List Piece) :
    (∃ stretches, (∀ others, Stretch.Cut pieces others ↔ others = stretches) ∧
      List.Forall₂ Stretch.Becomes stretches (coalesce pieces)) ∧
    ∀ before after one next,
      coalesce (before ++ .text (.string one) :: .text (.string next) :: after) =
        coalesce (before ++ .text (.string (one ++ next)) :: after) := by
  constructor
  · refine ⟨Stretch.ofPieces pieces, fun others => Stretch.cut_iff, ?_⟩
    obtain ⟨heq, hmaximal⟩ := Stretch.cut_ofPieces pieces
    have hbecomes := Stretch.becomes_coalesce hmaximal
    rwa [heq] at hbecomes
  · intro before after one next
    unfold coalesce
    rw [List.foldl_append, List.foldl_append]
    show ChildList.finish (after.foldl ChildList.add ((ChildList.pushText _ _).pushText _)) = _
    rw [ChildList.pushText_append]
    rfl

end Folio
