/-
  Child lists compile piece by piece.

  Texts that meet are merged, and text stays a scalar until its list is finished, so a child list
  is not simply the concatenation of what its parts compile to.  It is their *join*: where a text
  ends the one part and a text starts the other, they become one text.  It does not matter that
  either was finished before, since a lone number still prints as its scalar did.

  1. **Joining** — `join` is a monoid on lists of content (`nil_join`, `join_nil`, `join_assoc`).
  2. **Half-built lists** — adding a piece to a list joins it to what the list would finish as
     (`ChildList.finish_add`), so the child list of some pieces followed by others is a join
     (`coalesce_append`).
  3. **The walk** — compiling children takes list concatenation to joining, errors in order
     (`compileChildren_append`): what a child compiles to depends on its neighbours only where
     texts meet.
-/
import Folio.Proofs.NormalForm
import Folio.Proofs.RunningText

namespace Folio

variable {κ α : Type} {m : Type → Type} [Monad m] [Journal m] {dropZero : Bool}

/-! ## Joining -/

/-- What two neighbours become: two texts are one, in the order of their text; any others stay. -/
def Content.meet : Content → Content → List Content
  | .text last, .text next => [.text (.string (last.text ++ next.text))]
  | last, next => [last, next]

theorem Content.meet_of_apart {last next : Content} (h : Apart last next) :
    meet last next = [last, next] := by
  unfold meet
  split
  · exact absurd ⟨rfl, rfl⟩ h
  · rfl

/-- One list after the other, where the last entry of the first meets the first of the second. -/
def join (first second : List Content) : List Content :=
  match first.getLast?, second with
  | some last, next :: rest => first.dropLast ++ (last.meet next ++ rest)
  | _, _ => first ++ second

theorem join_concat_cons (before rest : List Content) (last next : Content) :
    join (before ++ [last]) (next :: rest) = before ++ (last.meet next ++ rest) := by
  simp only [join, List.getLast?_concat, List.dropLast_concat]

@[simp] theorem nil_join (second : List Content) : join [] second = second := rfl

@[simp] theorem join_nil (first : List Content) : join first [] = first := by
  have h : join first [] = first ++ [] := by
    unfold join
    split
    · rename_i hnil
      cases hnil
    · rfl
  rw [h, List.append_nil]

/-- Only the last entry of the first list takes part, and only the first of the second. -/
theorem join_append_append {middle middle' : List Content} (before after : List Content)
    (h : middle ≠ []) (h' : middle' ≠ []) :
    join (before ++ middle) (middle' ++ after) = before ++ (join middle middle' ++ after) := by
  obtain ⟨init, last, rfl⟩ : ∃ init last, middle = init ++ [last] :=
    (List.eq_nil_or_concat' middle).resolve_left h
  obtain ⟨next, rest, rfl⟩ := List.exists_cons_of_ne_nil h'
  rw [← List.append_assoc, List.cons_append, join_concat_cons, join_concat_cons]
  simp only [List.append_assoc]

theorem Content.meet_ne_nil (last next : Content) : last.meet next ≠ [] := by
  unfold meet
  split <;> exact List.cons_ne_nil _ _

/-- Three entries meet: it does not matter which two of them do so first. -/
theorem join_meet (first middle last : Content) :
    join (first.meet middle) [last] = join [first] (middle.meet last) := by
  cases first <;> cases middle <;> cases last <;>
    simp [Content.meet, join, String.append_assoc]

/-- **Joining is associative.** -/
theorem join_assoc (first second third : List Content) :
    join (join first second) third = join first (join second third) := by
  rcases List.eq_nil_or_concat' first with rfl | ⟨before, last, rfl⟩
  · rw [nil_join, nil_join]
  rcases third with - | ⟨next, after⟩
  · rw [join_nil, join_nil]
  rcases second with - | ⟨head, tail⟩
  · rw [join_nil, nil_join]
  rcases List.eq_nil_or_concat' tail with rfl | ⟨inner, final, rfl⟩
  · -- a single entry in the middle meets both of its neighbours
    have hleft : join (before ++ [last]) [head] = before ++ last.meet head := by
      rw [join_concat_cons, List.append_nil]
    have hright : join [head] (next :: after) = head.meet next ++ after :=
      join_concat_cons [] after head next
    rw [hleft, hright, ← List.singleton_append,
      join_append_append before after (Content.meet_ne_nil last head) (List.cons_ne_nil next []),
      join_append_append before after (List.cons_ne_nil last []) (Content.meet_ne_nil head next),
      join_meet]
  · -- the two ends of the middle meet one neighbour each
    have hright : join (head :: (inner ++ [final])) (next :: after) =
        head :: (inner ++ (final.meet next ++ after)) :=
      join_concat_cons (head :: inner) after final next
    rw [hright, join_concat_cons, join_concat_cons, ← List.append_assoc, ← List.append_assoc,
      join_concat_cons]
    simp only [List.append_assoc]

/-! ## Half-built lists -/

/-- Two pieces as neighbours: texts print into one, any others stay apart. -/
theorem Piece.meet_toContent {last next : Piece} (hlast : last.Normal dropZero)
    (hnext : next.Normal dropZero) :
    last.toContent.meet next.toContent =
      match last, next with
      | .text last, .text next => [.text (.string (last.text ++ next.text))]
      | last, next => [last.toContent, next.toContent] := by
  cases last with
  | content entry =>
    refine Content.meet_of_apart fun hboth => ?_
    exact absurd (hlast.1.symm.trans hboth.1) Bool.false_ne_true
  | text last =>
    cases next with
    | content entry =>
      refine Content.meet_of_apart fun hboth => ?_
      exact absurd (hnext.1.symm.trans hboth.2) Bool.false_ne_true
    | text next =>
      -- each of the two is finished here, and prints all the same
      rw [toContent, toContent, Content.meet, TextValue.text_ofScalar, TextValue.text_ofScalar]

namespace ChildList

/-- **Adding a piece** to a list joins it to what the list finishes as. -/
theorem finish_add {list : ChildList} {piece : Piece} (h : list.Sound dropZero)
    (hpiece : piece.Normal dropZero) :
    (list.add piece).finish = join list.finish [piece.toContent] := by
  obtain ⟨reversed⟩ := list
  cases reversed with
  | nil => cases piece <;> rfl
  | cons last before =>
    have hlast : last.Normal dropZero := (sound_cons.1 h).1
    rw [finish_cons, join_concat_cons, List.append_nil, Piece.meet_toContent hlast hpiece]
    cases last <;> cases piece <;> simp [add, pushText, push, Piece.toContent, TextValue.ofScalar]

theorem finish_foldl {pieces : List Piece} : ∀ {list : ChildList}, list.Sound dropZero →
    Pieces dropZero pieces →
    (pieces.foldl add list).finish = join list.finish (coalesce pieces) := by
  induction pieces with
  | nil =>
    intro list _ _
    exact (join_nil list.finish).symm
  | cons piece rest ih =>
    intro list hlist hpieces
    obtain ⟨hpiece, hrest⟩ := List.forall_mem_cons.1 hpieces
    have hlist' := ih (sound_add hlist hpiece) hrest
    have hempty' := ih (sound_add sound_empty hpiece) hrest
    rw [finish_add hlist hpiece] at hlist'
    rw [finish_add sound_empty hpiece] at hempty'
    show (rest.foldl add (list.add piece)).finish =
      join list.finish (rest.foldl add (add {} piece)).finish
    rw [hlist', hempty', ← join_assoc]
    rfl

end ChildList

/-- **The child list of pieces and further pieces** is the join of theirs. -/
theorem coalesce_append {pieces others : List Piece} (h : Pieces dropZero pieces)
    (h' : Pieces dropZero others) :
    coalesce (pieces ++ others) = join (coalesce pieces) (coalesce others) := by
  have hsound := ChildList.sound_foldl ChildList.sound_empty h
  rw [coalesce, List.foldl_append]
  exact ChildList.finish_foldl hsound h'

/-! ## The walk -/

section Walk

variable [LawfulMonad m]

omit [Journal m] in
theorem collect_append (pieces : α → ExceptT CompileError m (List Piece)) (items others : List α) :
    collect pieces (items ++ others) = do
      return (← collect pieces items) ++ (← collect pieces others) := by
  induction items with
  | nil => simp [collect]
  | cons item rest ih =>
    simp only [List.cons_append, collect, ih, bind_assoc, pure_bind, List.append_assoc]

theorem compileChildren_concat (library : Library κ m) (options : Options) (limit : Nat)
    (context : Context) (children others : List (Element κ)) :
    compileChildren library options limit context (children ++ others) = do
      let first ← compileChildren library options limit context children
      let second ← compileChildren library options limit context others
      return join first second := by
  have hyields : ∀ items, Yields (Pieces options.dropZero)
      (collect (childPieces library options limit context) items) :=
    yields_collect (yields_childPieces limit context)
  unfold compileChildren
  rw [collect_append]
  simp only [map_bind, bind_map_left, map_pure]
  -- only what a walk can yield may be joined: no piece of content is a text
  refine (hyields children).bind_congr fun pieces hpieces => ?_
  refine (hyields others).bind_congr fun further hfurther => ?_
  rw [coalesce_append hpieces hfurther]

/-- **Child lists compile piece by piece.**  Compiling is a homomorphism from lists of children
    under concatenation to lists of content under joining, which are a monoid: the children before
    are compiled, then the children after, the first error ends it, and the results are joined.
    So a child compiles to the same whatever stands before and after it, but for the texts that
    meet. -/
theorem compileChildren_append (library : Library κ m) (options : Options) (limit : Nat)
    (context : Context) :
    compileChildren library options limit context [] = pure [] ∧
    (∀ children others, compileChildren library options limit context (children ++ others) = do
      let first ← compileChildren library options limit context children
      let second ← compileChildren library options limit context others
      return join first second) ∧
    (∀ before child after,
      compileChildren library options limit context (before ++ child :: after) = do
        let first ← compileChildren library options limit context before
        let only ← compileChildren library options limit context [child]
        let last ← compileChildren library options limit context after
        return join first (join only last)) ∧
    (∀ list, join [] list = list ∧ join list [] = list) ∧
    ∀ first second third, join (join first second) third = join first (join second third) := by
  refine ⟨map_pure coalesce [], compileChildren_concat library options limit context, ?_,
    fun list => ⟨nil_join list, join_nil list⟩, join_assoc⟩
  intro before child after
  rw [← List.singleton_append, compileChildren_concat, compileChildren_concat]
  simp only [bind_assoc, pure_bind]

end Walk

/-- A text and a label meet a lone number: each side compiled on its own, and both together. -/
theorem compileChildren_append_label :
    compileChildren themed .standard 2 ∅ [.text "page ", .composite .label ∅ []] =
      pure [.text (.string "page none")] ∧
    compileChildren themed .standard 2 ∅ [.empty, .leaf (.int 7), .tag .text ∅ []] =
      pure [.text (.number (.ofInt64 7)), .fragment (.runs []) ∅] ∧
    compileChildren themed .standard 2 ∅
        ([.text "page ", .composite .label ∅ []] ++ [.empty, .leaf (.int 7), .tag .text ∅ []]) =
      pure [.text (.string "page none7"), .fragment (.runs []) ∅] := by
  have hlabel : compileChildren themed .standard 2 ∅ [.text "page ", .composite .label ∅ []] =
      pure [.text (.string "page none")] := by
    have hmerged : "page none" = "page " ++ "none" := by decide +kernel
    rw [hmerged]
    rfl
  have hnumber : compileChildren themed .standard 2 ∅
      [.empty, .leaf (.int 7), .tag .text ∅ []] =
        pure [.text (.number (.ofInt64 7)), .fragment (.runs []) ∅] := rfl
  have happend := (compileChildren_append themed .standard 2 ∅).2.1
    [.text "page ", .composite .label ∅ []] [.empty, .leaf (.int 7), .tag .text ∅ []]
  rw [hlabel, hnumber] at happend
  have hmerged : "page none7" = "page none" ++ (Scalar.ofNumber (.ofInt64 7)).text := by
    decide +kernel
  rw [hmerged]
  exact ⟨hlabel, hnumber, happend⟩

end Folio
