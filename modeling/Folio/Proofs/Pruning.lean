/-
  What is left out leaves no trace.

  An element that stands for nothing, a blank leaf and a tag outside the vocabulary are left out
  where they stand, in a child list or in a fragment, at any depth.  Compiling is the same as if
  they had never been there: neighbours merge over them, nothing below them is looked at, and no
  error is caused or hidden.

  1. **Pruning** — `Element.pruned` takes all of that out of a tree, the root apart.
  2. **The walk** — what is taken out yields nothing (`pieces_of_vanishes`,
     `sections_of_vanishes`), and what stays yields, under options that leave nothing out, what it
     yielded before (`pieces_pruned`, `sections_pruned`).
  3. **Options** — so leniency and the dropping of zeros are only about what is pruned
     (`compile_pruned`).
-/
import Folio.Proofs.Transparency

namespace Folio

variable {style : Option Json} {dropZero : Bool}

/-! ## Pruning -/

namespace Element

/-- Whether the element is left out of a child list under lenient options. -/
def vanishes (dropZero : Bool) : Element Empty → Bool
  | .empty => true
  | .leaf scalar => scalar.isBlank dropZero
  | .tag name _ _ => !name.isKnown
  | .composite component _ _ => nomatch component
  | .fragment _ => false

mutual

/-- The element without what is left out below it. -/
def pruned (dropZero : Bool) : Element Empty → Element Empty
  | .empty => .empty
  | .leaf scalar => .leaf scalar
  | .tag name attributes children => .tag name attributes (prunedAll dropZero children)
  | .composite component _ _ => nomatch component
  | .fragment items => .fragment (prunedAll dropZero items)

/-- The elements of a list that are not left out, each without what is left out below it. -/
def prunedAll (dropZero : Bool) : List (Element Empty) → List (Element Empty)
  | [] => []
  | element :: rest =>
    if element.vanishes dropZero then prunedAll dropZero rest
    else pruned dropZero element :: prunedAll dropZero rest

end

end Element

/-! ## The walk -/

/-- Options with which tags outside the vocabulary and blanks are left out. -/
abbrev Options.lenient (style : Option Json) (dropZero : Bool) : Options :=
  { defaultStyle := style, strictTags := false, dropZero := dropZero }

/-- Options with which the least is left out. -/
abbrev Options.strict (style : Option Json) : Options :=
  { defaultStyle := style, strictTags := true, dropZero := false }

/-- What is not blank stays so when zeros are kept. -/
theorem Scalar.not_blank_of_not_blank {scalar : Scalar} (h : scalar.isBlank dropZero = false) :
    scalar.isBlank false = false := by
  cases scalar with
  | string s => exact h
  | int n => rfl
  | float x =>
    rw [isBlank, Bool.or_eq_false_iff] at h
    rw [isBlank, h.1]
    rfl
  | bool b => exact h

theorem tagContent_of_isKnown {name : TagName} (h : name.isKnown = true)
    (options options' : Options) (top : Bool) (attributes : Attributes)
    (children : Except CompileError (List Piece)) :
    tagContent options top name attributes children =
      tagContent options' top name attributes children := by
  rw [tagContent, tagContent, placement_of_isKnown h options options']

/-- Under lenient options, a tag outside the vocabulary has no content. -/
theorem tagContent_of_not_isKnown {name : TagName} (h : name.isKnown = false) (top : Bool)
    (attributes : Attributes) (children : Except CompileError (List Piece)) :
    tagContent (.lenient style dropZero) top name attributes children = .ok none := by
  cases name with
  | unknown text => rfl
  | _ => cases h

theorem pieces_of_vanishes {element : Element Empty} (h : element.vanishes dropZero = true) :
    pieces (.lenient style dropZero) element = .ok [] := by
  cases element with
  | empty => rfl
  | leaf scalar =>
    have hblank : scalar.isBlank dropZero = true := h
    rw [pieces, if_pos hblank]
    rfl
  | tag name attributes children =>
    have hunknown : name.isKnown = false := by simpa [Element.vanishes] using h
    rw [pieces, tagContent_of_not_isKnown hunknown]
    rfl
  | composite component => cases component
  | fragment items => cases h

mutual

/-- **Below a section**, what stays yields what it yielded before. -/
theorem pieces_pruned : ∀ {element : Element Empty}, element.vanishes dropZero = false →
    pieces (.strict style) (element.pruned dropZero) = pieces (.lenient style dropZero) element
  | .empty, h => nomatch h
  | .leaf scalar, h => by
    have hblank : scalar.isBlank dropZero = false := h
    rw [Element.pruned, pieces, pieces, hblank, Scalar.not_blank_of_not_blank hblank]
  | .tag name attributes children, h => by
    have hknown : name.isKnown = true := by simpa [Element.vanishes] using h
    rw [Element.pruned, pieces, pieces, piecesAll_pruned children,
      tagContent_of_isKnown hknown (.strict style) (.lenient style dropZero)]
  | .composite component _ _, _ => nomatch component
  | .fragment items, _ => by
    rw [Element.pruned, pieces, pieces, piecesAll_pruned items]

theorem piecesAll_pruned : ∀ items : List (Element Empty),
    piecesAll (.strict style) (Element.prunedAll dropZero items) =
      piecesAll (.lenient style dropZero) items
  | [] => rfl
  | item :: rest => by
    have hrest := piecesAll_pruned rest
    rw [Element.prunedAll, piecesAll]
    cases hitem : item.vanishes dropZero with
    | true =>
      rw [if_pos rfl, hrest, pieces_of_vanishes hitem]
      cases piecesAll (.lenient style dropZero) rest <;> rfl
    | false =>
      rw [if_neg Bool.false_ne_true, piecesAll, hrest, pieces_pruned hitem]

end

theorem sections_of_vanishes {element : Element Empty} (h : element.vanishes dropZero = true)
    (definition : Definition) :
    sections (.lenient style dropZero) element definition = .ok definition := by
  cases element with
  | empty => rfl
  | leaf scalar =>
    have hblank : scalar.isBlank dropZero = true := h
    rw [sections, if_pos hblank]
    rfl
  | tag name attributes children =>
    have hunknown : name.isKnown = false := by simpa [Element.vanishes] using h
    rw [sections, tagContent_of_not_isKnown hunknown]
    rfl
  | composite component => cases component
  | fragment items => cases h

mutual

/-- **Directly in the document**, what stays adds the sections that it added before. -/
theorem sections_pruned : ∀ {element : Element Empty}, element.vanishes dropZero = false →
    ∀ definition, sections (.strict style) (element.pruned dropZero) definition =
      sections (.lenient style dropZero) element definition
  | .empty, h, _ => nomatch h
  | .leaf scalar, h, definition => by
    have hblank : scalar.isBlank dropZero = false := h
    rw [Element.pruned, sections, sections, hblank, Scalar.not_blank_of_not_blank hblank]
  | .tag name attributes children, h, definition => by
    have hknown : name.isKnown = true := by simpa [Element.vanishes] using h
    rw [Element.pruned, sections, sections, piecesAll_pruned children,
      tagContent_of_isKnown hknown (.strict style) (.lenient style dropZero)]
  | .composite component _ _, _, _ => nomatch component
  | .fragment items, _, definition => by
    rw [Element.pruned, sections, sections, sectionsAll_pruned items]

theorem sectionsAll_pruned : ∀ (items : List (Element Empty)) (definition : Definition),
    sectionsAll (.strict style) (Element.prunedAll dropZero items) definition =
      sectionsAll (.lenient style dropZero) items definition
  | [], _ => rfl
  | item :: rest, definition => by
    rw [Element.prunedAll, sectionsAll]
    cases hitem : item.vanishes dropZero with
    | true =>
      rw [if_pos rfl, sections_of_vanishes hitem, sectionsAll_pruned rest definition]
      rfl
    | false =>
      rw [if_neg Bool.false_ne_true, sectionsAll, sections_pruned hitem]
      -- the sections added so far are the same, whatever they are
      exact bind_congr fun next => sectionsAll_pruned rest next

end

/-! ## Options -/

theorem compilePlain_pruned (style : Option Json) (dropZero : Bool) (root : Tag Empty) :
    compilePlain (.lenient style dropZero) root.toElement =
      compilePlain (.strict style) (root.toElement.pruned dropZero) := by
  obtain ⟨name, attributes, children⟩ := root
  cases name with
  | document =>
    have hsections : sectionsAll (.strict style) (Element.prunedAll dropZero children) {} =
        sectionsAll (.lenient style dropZero) children {} := sectionsAll_pruned children {}
    rw [Tag.toElement, Element.pruned, compilePlain, compilePlain, hsections]
    rfl
  | _ => rfl

/-- **What is left out leaves no trace.**  Under lenient options, with zeros dropped or kept, a
    tree compiles like the tree without its empty elements, blank leaves and tags outside the
    vocabulary, under options that leave none of them out: to the same definition, or with the same
    error. -/
theorem compile_pruned (style : Option Json) (dropZero : Bool) (context : Context)
    (root : Tag Empty) :
    compile (Library.none : Library Empty Id)
        { defaultStyle := style, strictTags := false, dropZero := dropZero } context
        root.toElement =
      compile (Library.none : Library Empty Id)
        { defaultStyle := style, strictTags := true, dropZero := false } context
        (root.toElement.pruned dropZero) := by
  apply ExceptT.ext
  rw [compile_none, compile_none]
  exact compilePlain_pruned style dropZero root

-- a fragment stays, even if nothing in it does
example :
    Element.prunedAll true
        [.text "a", .fragment [.empty, .leaf (.int 0)], .tag (.unknown "figure") ∅ [.text "b"]] =
      [.text "a", .fragment []] := rfl

end Folio
