/-
  No text is lost, doubled or moved.

  The text of a tree goes into its definition by way of fragments, merged runs, lone numbers,
  text bodies, rows and tables.  All the while it can be read off, and stays the same.

  1. **Runs** — a lone number is kept as a JSON number, and prints as the scalar did that it comes
     from (`TextValue.text_ofScalar`): signed zeros and what is not finite included.
  2. **Two readings** — `Content.texts` are the texts in compiled content, depth first, and
     `Element.leaves` are the leaves of a tree in the order of the document, without those inside
     images and tags outside the vocabulary.
  3. **Half-built lists** — adding a piece adds its text at the end, whether it is merged with the
     text before it or not (`ChildList.printed_add`), so a child list reads like its pieces.
  4. **The walk** — what an element yields reads like its leaves that are not blank
     (`printed_pieces`), and so does what a tag compiles to (`compileTag_text`).
-/
import Folio.Proofs.Transparency

namespace Folio

variable {options : Options}

/-! ## Runs -/

/-- The text of a run.  A number prints as the scalar of that number. -/
def TextValue.text : TextValue → String
  | .string s => s
  | .number n => (Scalar.ofNumber n).text

@[simp] theorem TextValue.text_string (s : String) : (TextValue.string s).text = s := rfl

/-- **Standing alone changes no text**: the run of a scalar prints as the scalar does. -/
@[simp] theorem TextValue.text_ofScalar (scalar : Scalar) : (ofScalar scalar).text = scalar.text := by
  cases scalar with
  | string s => rfl
  | int n => rw [ofScalar, text, Scalar.ofNumber_ofInt64]
  | float x =>
    rw [ofScalar, Number.ofDouble?]
    by_cases hfinite : x.isFinite = true
    · rw [dif_pos hfinite]
      rfl
    · rw [dif_neg hfinite]
      rfl
  | bool b => rfl

/-! ## Two readings -/

namespace Content

mutual

/-- The texts in an entry, depth first. -/
def texts : Content → List TextValue
  | .text value => [value]
  | .row cells => textsAll cells
  | .fragment body _ => bodyTexts body

def textsAll : List Content → List TextValue
  | [] => []
  | entry :: rest => texts entry ++ textsAll rest

def bodyTexts : Body Content → List TextValue
  | .list _ items => textsAll items
  | .single only => texts only
  | .runs items => textsAll items
  | .image _ => []
  | .table rows _ _ => textsAll rows

end

@[simp] theorem textsAll_append (entries others : List Content) :
    textsAll (entries ++ others) = textsAll entries ++ textsAll others := by
  induction entries with
  | nil => rfl
  | cons entry rest ih => rw [List.cons_append, textsAll, textsAll, ih, List.append_assoc]

theorem textsAll_singleton (entry : Content) : textsAll [entry] = entry.texts := by
  rw [textsAll, textsAll, List.append_nil]

/-- A text body reads like its entries, whether there is one of them or not. -/
theorem bodyTexts_ofRuns (items : List Content) : bodyTexts (.ofRuns items) = textsAll items := by
  unfold Body.ofRuns
  split
  · rw [bodyTexts, textsAll_singleton]
  · rw [bodyTexts]

end Content

/-- The text of some runs, one after the other. -/
def printed (texts : List TextValue) : String := .join (texts.map TextValue.text)

@[simp] theorem printed_append (texts others : List TextValue) :
    printed (texts ++ others) = printed texts ++ printed others := by
  rw [printed, List.map_append, String.join_append]
  rfl

theorem printed_singleton (value : TextValue) : printed [value] = value.text := by
  rw [printed, List.map_singleton, String.join_cons, String.join_nil, String.append_empty]

/-- Whether what stands in the tag is printed.  An image shows nothing of it, and a tag outside the
    vocabulary is left out with all that it holds. -/
def TagName.prints : TagName → Bool
  | .image | .unknown _ => false
  | _ => true

namespace Element

mutual

/-- The leaves of a tree that are in tags which print them, in the order of the document. -/
def leaves : Element Empty → List Scalar
  | .empty => []
  | .leaf scalar => [scalar]
  | .tag name _ children => if name.prints then leavesAll children else []
  | .composite component _ _ => nomatch component
  | .fragment items => leavesAll items

def leavesAll : List (Element Empty) → List Scalar
  | [] => []
  | element :: rest => leaves element ++ leavesAll rest

end

end Element

/-- The text of those scalars that are not blank, one after the other. -/
def written (dropZero : Bool) (scalars : List Scalar) : String :=
  .join ((scalars.filter fun scalar => !scalar.isBlank dropZero).map Scalar.text)

@[simp] theorem written_append (dropZero : Bool) (scalars others : List Scalar) :
    written dropZero (scalars ++ others) = written dropZero scalars ++ written dropZero others := by
  rw [written, List.filter_append, List.map_append, String.join_append]
  rfl

/-! ## Half-built lists -/

/-- The text that a piece adds. -/
def Piece.printed : Piece → String
  | .text scalar => scalar.text
  | .content entry => Folio.printed entry.texts

/-- The text that some pieces add. -/
def printedPieces (pieces : List Piece) : String := .join (pieces.map Piece.printed)

theorem printedPieces_nil : printedPieces [] = "" := rfl

theorem printedPieces_cons (piece : Piece) (rest : List Piece) :
    printedPieces (piece :: rest) = piece.printed ++ printedPieces rest := by
  rw [printedPieces, List.map_cons, String.join_cons]
  rfl

@[simp] theorem printedPieces_append (pieces others : List Piece) :
    printedPieces (pieces ++ others) = printedPieces pieces ++ printedPieces others := by
  rw [printedPieces, List.map_append, String.join_append]
  rfl

/-- A piece that stands alone shows its text. -/
theorem Piece.printed_toContent (piece : Piece) :
    Folio.printed piece.toContent.texts = piece.printed := by
  cases piece with
  | text scalar => rw [toContent, Content.texts, printed_singleton, TextValue.text_ofScalar, printed]
  | content entry => rfl

namespace ChildList

/-- The text of the entries so far. -/
def printed (list : ChildList) : String := Folio.printed (Content.textsAll list.finish)

theorem printed_cons (last : Piece) (before : List Piece) :
    printed ⟨last :: before⟩ = printed ⟨before⟩ ++ last.printed := by
  rw [printed, finish_cons, Content.textsAll_append, Content.textsAll_singleton, printed_append,
    Piece.printed_toContent]
  rfl

/-- **Adding a piece** adds its text at the end. -/
theorem printed_add (list : ChildList) (piece : Piece) :
    (list.add piece).printed = list.printed ++ piece.printed := by
  cases piece with
  | content entry => exact printed_cons (.content entry) list.reversed
  | text scalar =>
    obtain ⟨reversed⟩ := list
    show (pushText ⟨reversed⟩ scalar).printed = _
    unfold pushText
    split
    · -- merged: the text before it was at the end already
      rename_i previous rest hreversed
      obtain rfl : reversed = .text previous :: rest := hreversed
      rw [printed_cons, printed_cons, String.append_assoc]
      rfl
    · exact printed_cons (.text scalar) reversed

theorem printed_foldl (pieces : List Piece) : ∀ list : ChildList,
    (pieces.foldl add list).printed = list.printed ++ printedPieces pieces := by
  induction pieces with
  | nil =>
    intro list
    rw [List.foldl_nil, printedPieces_nil, String.append_empty]
  | cons piece rest ih =>
    intro list
    rw [List.foldl_cons, ih, printed_add, printedPieces_cons, String.append_assoc]

end ChildList

/-- **A child list** reads like its pieces. -/
theorem printed_coalesce (pieces : List Piece) :
    printed (Content.textsAll (coalesce pieces)) = printedPieces pieces := by
  have hempty : ChildList.printed {} = "" := rfl
  have hfold := ChildList.printed_foldl pieces {}
  rw [hempty, String.empty_append] at hfold
  exact hfold

/-! ## The walk -/

/-- The primitive of a tag that prints its children reads like them, any other like nothing. -/
theorem texts_primitive? {name : TagName} {attributes : Attributes} {children : List Content}
    {content : Content} (h : primitive? name attributes children = some content) :
    content.texts = if name.prints then Content.textsAll children else [] := by
  cases name with
  | document => cases h
  | unknown text => cases h
  | text =>
    cases h
    rw [Content.texts, Content.bodyTexts_ofRuns]
    rfl
  | _ =>
    cases h
    rfl

/-- The content of a tag reads like the leaves in it if its children do. -/
theorem printed_tagContent {top : Bool} {name : TagName} {attributes : Attributes}
    {children : List (Element Empty)} {content : Content}
    (h : tagContent options top name attributes (piecesAll options children) = .ok (some content))
    (hchildren : ∀ yielded, piecesAll options children = .ok yielded →
      printedPieces yielded = written options.dropZero (Element.leavesAll children)) :
    printed content.texts =
      written options.dropZero (Element.tag name attributes children).leaves := by
  rcases tagContent_eq_ok h with ⟨-, hnone⟩ | ⟨yielded, other, hyielded, heq, hprimitive⟩
  · cases hnone
  · cases heq
    rw [texts_primitive? hprimitive, Element.leaves]
    cases name.prints with
    | false => rfl
    | true =>
      rw [if_pos rfl, if_pos rfl, printed_coalesce]
      exact hchildren yielded hyielded

mutual

/-- **What an element yields** reads like its leaves. -/
theorem printed_pieces : ∀ (element : Element Empty) {yielded : List Piece},
    pieces options element = .ok yielded →
    printedPieces yielded = written options.dropZero element.leaves
  | .empty, yielded, h => by
    cases h
    rfl
  | .leaf scalar, yielded, h => by
    obtain rfl : (if scalar.isBlank options.dropZero then [] else [.text scalar]) = yielded :=
      Except.ok.inj h
    rw [Element.leaves, written]
    cases hblank : scalar.isBlank options.dropZero with
    | true => simp [hblank, printedPieces_nil]
    | false => simp [hblank, printedPieces, Piece.printed]
  | .tag name attributes children, yielded, h => by
    obtain ⟨compiled, htag, hyielded⟩ := bind_eq_ok_iff.1 h
    cases compiled with
    | none =>
      cases hyielded
      rcases tagContent_eq_ok htag with ⟨hunknown, -⟩ | ⟨_, _, _, hsome, _⟩
      · cases name with
        | unknown text => rfl
        | _ => cases hunknown
      · cases hsome
    | some content =>
      cases hyielded
      have hcontent := printed_tagContent htag fun _ => printed_piecesAll children
      rw [printedPieces_cons, printedPieces_nil, String.append_empty]
      exact hcontent
  | .composite component _ _, _, _ => nomatch component
  | .fragment items, _, h => printed_piecesAll items h

theorem printed_piecesAll : ∀ (items : List (Element Empty)) {yielded : List Piece},
    piecesAll options items = .ok yielded →
    printedPieces yielded = written options.dropZero (Element.leavesAll items)
  | [], _, h => by
    cases h
    rfl
  | item :: rest, yielded, h => by
    obtain ⟨first, hfirst, h⟩ := bind_eq_ok_iff.1 h
    obtain ⟨others, hothers, h⟩ := bind_eq_ok_iff.1 h
    cases h
    rw [printedPieces_append, Element.leavesAll, written_append, printed_pieces item hfirst,
      printed_piecesAll rest hothers]

end

/-- **No text is lost, doubled or moved.**  The texts in what a tag compiles to, depth first, read
    like the leaves of the tag in the order of the document, without blank ones and those inside
    images and tags outside the vocabulary. -/
theorem compileTag_text (options : Options) (context : Context) (top : Bool) (tag : Tag Empty)
    {content : Content}
    (h : compileTag (Library.none : Library Empty Id) options context top tag =
      pure (some content)) :
    String.join (content.texts.map TextValue.text) =
      String.join
        ((tag.toElement.leaves.filter fun scalar => !scalar.isBlank options.dropZero).map
          Scalar.text) := by
  have hrun := compileTag_none options context top tag
  rw [h] at hrun
  exact printed_tagContent hrun.symm fun _ => printed_piecesAll tag.children

/-- A line with numbers, an image, and a tag outside the vocabulary between two texts. -/
def totalLine : Tag Empty where
  head := .stack
  children :=
    [.text "Total ", .fragment [.leaf (.int 12), .empty, .leaf (.float (.zero true))],
      .tag .text ∅ [.leaf (.float (.ofBits 0x4000000000000000))], .tag .image ∅ [.text "logo"],
      .leaf (.float (.infinity true)), .tag (.unknown "figure") ∅ [.text "left out"], .text "!"]

/-- What the line compiles to when zeros are kept. -/
def totalContent : Content :=
  .fragment
    (.list .stack
      [.text (.string "Total 120"),
        .fragment (.single (.text (.number (.float (.ofBits 0x4000000000000000) (by decide))))) ∅,
        .fragment (.image none) ∅,
        .text (.string "-Infinity!")])
    ∅

/-- The line reads `Total 1202-Infinity!` before and after. -/
theorem compileTag_text_totalLine :
    compileTag (Library.none : Library Empty Id) { defaultStyle := none, dropZero := false } ∅
      false totalLine = pure (some totalContent) ∧
    String.join (totalContent.texts.map TextValue.text) =
      String.join
        ((totalLine.toElement.leaves.filter fun scalar => !scalar.isBlank false).map
          Scalar.text) ∧
    String.join (totalContent.texts.map TextValue.text) = "Total 1202-Infinity!" := by
  have hrun : compileTag (Library.none : Library Empty Id)
      { defaultStyle := none, dropZero := false } ∅ false totalLine =
        pure (some totalContent) := by
    -- the numbers print in the kernel; all else is unfolding
    have hstart : "Total 120" =
        "Total " ++ (Scalar.int 12).text ++ (Scalar.float (.zero true)).text := by decide +kernel
    have hend : "-Infinity!" = (Scalar.float (.infinity true)).text ++ "!" := by decide +kernel
    rw [totalContent, hstart, hend]
    rfl
  refine ⟨hrun, ?_, by decide +kernel⟩
  exact compileTag_text { defaultStyle := none, dropZero := false } ∅ false totalLine hrun

end Folio
