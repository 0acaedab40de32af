/-
  Compiling trees without components, by recursion on the tree alone.

  A tree without components needs no library, no context and no limit on how deep rendering goes.
  The functions here compile it by structural recursion: `pieces` for what stands below a section,
  `sections` for what stands directly in the document, and `compilePlain` for the whole.  They
  leave out the messages as well.  What they compute is what `compile` computes
  (`compile_none`, proved where compiling is related to expansions), so a fact about trees
  without components is an induction on the tree.
-/
import Folio.Compile.Document

namespace Folio

variable {options : Options}

/-- The content of a tag, given what its children yield; dropped tags have none. -/
def tagContent (options : Options) (top : Bool) (name : TagName) (attributes : Attributes)
    (children : Except CompileError (List Piece)) : Except CompileError (Option Content) :=
  match placement options top name with
  | .reject error => .error error
  | .drop _ => .ok none
  | .keep => do return primitive? name attributes (coalesce (← children))

/-- What is kept has a primitive. -/
theorem exists_primitive?_of_keep {top : Bool} {name : TagName}
    (h : placement options top name = .keep) (attributes : Attributes) (children : List Content) :
    ∃ content, primitive? name attributes children = some content := by
  cases name with
  | document => cases h
  | unknown text => cases isKnown_of_keep h
  | _ => exact ⟨_, rfl⟩

/-- A tag that compiles is dropped, or kept with all its children compiled. -/
theorem tagContent_eq_ok {top : Bool} {name : TagName} {attributes : Attributes}
    {children : Except CompileError (List Piece)} {compiled : Option Content}
    (h : tagContent options top name attributes children = .ok compiled) :
    (name.isKnown = false ∧ compiled = none) ∨
      ∃ yielded content, children = .ok yielded ∧ compiled = some content ∧
        primitive? name attributes (coalesce yielded) = some content := by
  unfold tagContent at h
  cases hplacement : placement options top name with
  | reject error =>
    rw [hplacement] at h
    cases h
  | drop dropped =>
    rw [hplacement] at h
    cases h
    exact .inl ⟨isKnown_of_drop hplacement, rfl⟩
  | keep =>
    rw [hplacement] at h
    obtain ⟨yielded, hchildren, hcompiled⟩ := bind_eq_ok_iff.1 h
    obtain ⟨content, hcontent⟩ := exists_primitive?_of_keep hplacement attributes (coalesce yielded)
    rw [hcontent] at hcompiled
    cases hcompiled
    exact .inr ⟨yielded, content, hchildren, rfl, hcontent⟩

/-- A tag that has content is kept. -/
theorem placement_of_tagContent {top : Bool} {name : TagName} {attributes : Attributes}
    {children : Except CompileError (List Piece)} {content : Content}
    (h : tagContent options top name attributes children = .ok (some content)) :
    placement options top name = .keep := by
  unfold tagContent at h
  cases hplacement : placement options top name with
  | keep => rfl
  | drop dropped =>
    rw [hplacement] at h
    cases h
  | reject error =>
    rw [hplacement] at h
    cases h

mutual

/-- The pieces that a child of a tag yields. -/
def pieces (options : Options) : Element Empty → Except CompileError (List Piece)
  | .empty => return []
  | .leaf scalar => return if scalar.isBlank options.dropZero then [] else [.text scalar]
  | .tag name attributes children => do
    match ← tagContent options false name attributes (piecesAll options children) with
    | some content => return [.content content]
    | none => return []
  | .composite component _ _ => nomatch component
  | .fragment items => piecesAll options items

def piecesAll (options : Options) : List (Element Empty) → Except CompileError (List Piece)
  | [] => return []
  | item :: rest => do return (← pieces options item) ++ (← piecesAll options rest)

end

mutual

/-- Adds the sections that a child of the document yields. -/
def sections (options : Options) : Element Empty → Definition → Except CompileError Definition
  | .empty, definition => return definition
  | .leaf scalar, definition =>
    if scalar.isBlank options.dropZero then return definition
    else throw (.unexpectedTopLevelChild ((Element.leaf scalar).describe Empty.elim))
  | .tag name attributes children, definition => do
    match ← tagContent options true name attributes (piecesAll options children) with
    | some content => return definition.setSection (name.slot?.getD .content) content
    | none => return definition
  | .composite component _ _, _ => nomatch component
  | .fragment items, definition => sectionsAll options items definition

def sectionsAll (options : Options) :
    List (Element Empty) → Definition → Except CompileError Definition
  | [], definition => return definition
  | item :: rest, definition => do sectionsAll options rest (← sections options item definition)

end

/-- Compiles a tree without components. -/
def compilePlain (options : Options) : Element Empty → Except CompileError Definition
  | .tag .document attributes children => do
    return addSettings options attributes (← sectionsAll options children {})
  | root => throw (.rootElement (root.describe Empty.elim))

end Folio
