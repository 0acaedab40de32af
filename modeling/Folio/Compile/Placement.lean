/-
  Where tags may stand.

  A document stands only at the root and a section only directly in the document, where nothing
  but sections may stand.  A tag outside the vocabulary is an error or is left out, wherever it
  stands.
-/
import Folio.Compile.Error
import Folio.Compile.Options

namespace Folio

/-- What becomes of a tag where it stands. -/
inductive Placement where
  | keep
  | drop (name : String)
  | reject (error : CompileError)
  deriving DecidableEq

/-- What becomes of a tag that stands directly in the document (`top`) or further down. -/
def placement (options : Options) (top : Bool) (name : TagName) : Placement :=
  match name with
  | .document => .reject .duplicateRoot
  | .unknown name => if options.strictTags then .reject (.unknownTag name) else .drop name
  | name =>
    if name.isSection && !top then .reject (.topLevelPlacement name)
    else if !name.isSection && top then .reject (.unexpectedTopLevelChild s!"<{name.toText}>")
    else .keep

variable {options : Options}

theorem isKnown_of_keep {top : Bool} {name : TagName} (h : placement options top name = .keep) :
    name.isKnown = true := by
  cases name with
  | unknown name =>
    rw [placement] at h
    split at h <;> cases h
  | _ => rfl

theorem isKnown_of_drop {top : Bool} {name : TagName} {dropped : String}
    (h : placement options top name = .drop dropped) : name.isKnown = false := by
  cases name with
  | unknown name => rfl
  | document => cases h
  | _ =>
    rw [placement] at h
    · split at h
      · cases h
      · split at h <;> cases h
    all_goals simp

/-- What is kept directly in the document is a section. -/
theorem isSection_of_keep {name : TagName} (h : placement options true name = .keep) :
    name.isSection = true := by
  cases name with
  | header | content | footer => rfl
  | unknown name =>
    rw [placement] at h
    split at h <;> cases h
  | _ => cases h

/-- Options have no say in where a tag of the vocabulary stands. -/
theorem placement_of_isKnown {name : TagName} (h : name.isKnown = true)
    (options options' : Options) (top : Bool) :
    placement options top name = placement options' top name := by
  cases name with
  | unknown text => cases h
  | _ => rfl

end Folio
