/-
  What is wrong with a tree, and which of it is reported.

  A tree without components is walked in depth-first order, a tag before its children, with the
  items of a fragment in place of the fragment (`walk`).  What stands below a tag outside the
  vocabulary is not walked.

  1. **Violations** — `Violates options visit error`: what the walk meets may not stand there, for
     the reason that the error gives.  The five reasons exclude each other, so a visit has at most
     one error.
  2. **Failures** — a compilation that goes on from one part of a tree to the next fails with the
     first failure among the parts, so it fails like the walk (`failure?_pieces`,
     `failure?_sections`, `failure?_compilePlain`).
  3. **Validation is exact** (`compile_validates`): a tree compiles exactly when the walk meets no
     violation, and otherwise the error is that of the first one.
-/
import Folio.Proofs.Transparency

namespace Folio

variable {α β ε : Type} {options : Options}

/-! ## The walk -/

/-- Where the walk meets an element: fragments apart, at the root, directly in it or further
    down. -/
inductive Position where
  | root
  | top
  | below
  deriving DecidableEq

/-- An element that the walk meets. -/
structure Visit where
  position : Position
  element : Element Empty

mutual

/-- What the walk meets in an element. -/
def visits (position : Position) : Element Empty → List Visit
  | .empty => []
  | .leaf scalar => [⟨position, .leaf scalar⟩]
  | .tag name attributes children =>
    ⟨position, .tag name attributes children⟩ ::
      if name.isKnown then visitsAll .below children else []
  | .composite component _ _ => nomatch component
  | .fragment items => visitsAll position items

def visitsAll (position : Position) : List (Element Empty) → List Visit
  | [] => []
  | element :: rest => visits position element ++ visitsAll position rest

end

/-- What the walk meets in a tree. -/
def walk : Element Empty → List Visit
  | .tag name attributes children => ⟨.root, .tag name attributes children⟩ :: visitsAll .top children
  | root => [⟨.root, root⟩]

/-! ## Violations -/

/-- The tree is a document. -/
def IsDocument (root : Element Empty) : Prop :=
  ∃ attributes children, root = .tag .document attributes children

/-- What the walk meets may not stand there. -/
inductive Violates (options : Options) : Visit → CompileError → Prop
  /-- The root is a document. -/
  | notDocument {root} : ¬IsDocument root →
      Violates options ⟨.root, root⟩ (.rootElement (root.describe Empty.elim))
  /-- No document stands in a document. -/
  | innerDocument {position attributes children} : position ≠ .root →
      Violates options ⟨position, .tag .document attributes children⟩ .duplicateRoot
  /-- Under strict options, every tag is of the vocabulary. -/
  | unknownTag {position name attributes children} : position ≠ .root →
      options.strictTags = true →
      Violates options ⟨position, .tag (.unknown name) attributes children⟩ (.unknownTag name)
  /-- Sections stand directly in the document. -/
  | innerSection {name attributes children} : name.isSection = true →
      Violates options ⟨.below, .tag name attributes children⟩ (.topLevelPlacement name)
  /-- No other tags of the vocabulary stand directly in the document, -/
  | strayTag {name attributes children} : name.isKnown = true → name.isSection = false →
      name ≠ .document →
      Violates options ⟨.top, .tag name attributes children⟩
        (.unexpectedTopLevelChild ((Element.tag name attributes children).describe Empty.elim))
  /-- and no leaves that are not blank. -/
  | strayLeaf {scalar} : scalar.isBlank options.dropZero = false →
      Violates options ⟨.top, .leaf scalar⟩
        (.unexpectedTopLevelChild ((Element.leaf scalar).describe Empty.elim))

/-- The error of the first violation among the visits. -/
def FirstViolation (options : Options) (visits : List Visit) (error : CompileError) : Prop :=
  ∃ before visit after, visits = before ++ visit :: after ∧
    (∀ earlier ∈ before, ∀ error, ¬Violates options earlier error) ∧
    Violates options visit error

/-- Which tags are rejected, and why. -/
theorem placement_eq_reject_iff {top : Bool} {name : TagName} {error : CompileError} :
    placement options top name = .reject error ↔
      (name = .document ∧ error = .duplicateRoot) ∨
      (∃ text, name = .unknown text ∧ options.strictTags = true ∧ error = .unknownTag text) ∨
      (name.isSection = true ∧ top = false ∧ error = .topLevelPlacement name) ∨
      (name.isKnown = true ∧ name.isSection = false ∧ name ≠ .document ∧ top = true ∧
        error = .unexpectedTopLevelChild s!"<{name.toText}>") := by
  cases name with
  | document =>
    simp [placement, TagName.isSection, TagName.slot?, @eq_comm _ error]
  | unknown text =>
    cases h : options.strictTags <;>
      simp [placement, TagName.isSection, TagName.slot?, TagName.isKnown, h, @eq_comm _ error]
  | _ =>
    cases top <;>
      simp [placement, TagName.isSection, TagName.slot?, TagName.isKnown, @eq_comm _ error]

/-- A tag below the root violates what its placement rejects. -/
theorem violates_tag_iff {position : Position} (h : position ≠ .root) {name : TagName}
    {attributes : Attributes} {children : List (Element Empty)} {error : CompileError} :
    Violates options ⟨position, .tag name attributes children⟩ error ↔
      placement options (position == .top) name = .reject error := by
  rw [placement_eq_reject_iff]
  constructor
  · intro hviolates
    cases hviolates with
    | notDocument => exact absurd rfl h
    | innerDocument => exact .inl ⟨rfl, rfl⟩
    | unknownTag _ hstrict => exact .inr (.inl ⟨_, rfl, hstrict, rfl⟩)
    | innerSection hsection => exact .inr (.inr (.inl ⟨hsection, rfl, rfl⟩))
    | strayTag hknown hsection hdocument =>
      exact .inr (.inr (.inr ⟨hknown, hsection, hdocument, rfl, rfl⟩))
  · rintro (⟨rfl, rfl⟩ | ⟨text, rfl, hstrict, rfl⟩ | ⟨hsection, htop, rfl⟩ |
      ⟨hknown, hsection, hdocument, htop, rfl⟩)
    · exact .innerDocument h
    · exact .unknownTag h hstrict
    · have hbelow : position = .below := by
        cases position with
        | below => rfl
        | root => exact absurd rfl h
        | top => cases htop
      rw [hbelow]
      exact .innerSection hsection
    · rw [eq_of_beq htop]
      exact .strayTag hknown hsection hdocument

theorem violates_root_iff {root : Element Empty} {error : CompileError} :
    Violates options ⟨.root, root⟩ error ↔
      ¬IsDocument root ∧ error = .rootElement (root.describe Empty.elim) := by
  constructor
  · intro h
    cases h with
    | notDocument h => exact ⟨h, rfl⟩
    | innerDocument h => exact absurd rfl h
    | unknownTag h => exact absurd rfl h
  · rintro ⟨h, rfl⟩
    exact .notDocument h

theorem violates_leaf_iff {scalar : Scalar} {error : CompileError} :
    Violates options ⟨.top, .leaf scalar⟩ error ↔
      scalar.isBlank options.dropZero = false ∧
        error = .unexpectedTopLevelChild ((Element.leaf scalar).describe Empty.elim) := by
  constructor
  · intro h
    cases h with
    | strayLeaf h => exact ⟨h, rfl⟩
  · rintro ⟨h, rfl⟩
    exact .strayLeaf h

/-- The error of a visit, if it violates anything. -/
def violation? (options : Options) : Visit → Option CompileError
  | ⟨.root, .tag .document _ _⟩ => none
  | ⟨.root, root⟩ => some (.rootElement (root.describe Empty.elim))
  | ⟨position, .tag name _ _⟩ =>
    match placement options (position == .top) name with
    | .reject error => some error
    | .drop _ | .keep => none
  | ⟨.top, .leaf scalar⟩ =>
    if scalar.isBlank options.dropZero then none
    else some (.unexpectedTopLevelChild ((Element.leaf scalar).describe Empty.elim))
  | _ => none

theorem violation?_root {root : Element Empty} (h : ¬IsDocument root) :
    violation? options ⟨.root, root⟩ = some (.rootElement (root.describe Empty.elim)) := by
  cases root with
  | tag name attributes children =>
    cases name with
    | document => exact absurd ⟨attributes, children, rfl⟩ h
    | _ => rfl
  | _ => rfl

theorem violation?_tag {position : Position} (h : position ≠ .root) {name : TagName}
    {attributes : Attributes} {children : List (Element Empty)} :
    violation? options ⟨position, .tag name attributes children⟩ =
      match placement options (position == .top) name with
      | .reject error => some error
      | .drop _ | .keep => none := by
  cases position with
  | root => exact absurd rfl h
  | _ => rfl

/-- `violation?` decides `Violates`. -/
theorem violation?_eq_some_iff {visit : Visit} {error : CompileError} :
    violation? options visit = some error ↔ Violates options visit error := by
  obtain ⟨position, element⟩ := visit
  -- at the root only a document passes; anywhere else a tag is judged by its placement
  by_cases hroot : position = .root
  · subst hroot
    rw [violates_root_iff]
    by_cases hdocument : IsDocument element
    · have hnone : violation? options ⟨.root, element⟩ = none := by
        obtain ⟨attributes, children, rfl⟩ := hdocument
        rfl
      simp [hnone, hdocument]
    · simp [violation?_root hdocument, hdocument, @eq_comm _ error]
  · cases element with
    | tag name attributes children =>
      rw [violation?_tag hroot, violates_tag_iff hroot]
      cases placement options (position == .top) name <;> simp
    | leaf scalar =>
      cases position with
      | root => exact absurd rfl hroot
      | below => constructor <;> intro h <;> cases h
      | top =>
        rw [violates_leaf_iff, violation?]
        cases scalar.isBlank options.dropZero <;> simp [@eq_comm _ error]
    | composite component => cases component
    | empty | fragment =>
      cases position with
      | root => exact absurd rfl hroot
      | _ => constructor <;> intro h <;> cases h

/-! ## Failures -/

/-- What a computation fails with, if it does. -/
def failure? : Except ε α → Option ε
  | .error error => some error
  | .ok _ => none

theorem failure?_eq_none_iff {result : Except ε α} :
    failure? result = none ↔ ∃ value, result = .ok value := by
  cases result <;> simp [failure?]

theorem failure?_eq_some_iff {result : Except ε α} {error : ε} :
    failure? result = some error ↔ result = .error error := by
  cases result <;> simp [failure?]

/-- What comes first fails first. -/
theorem failure?_bind {first : Except ε α} {next : α → Except ε β} {failure : Option ε}
    (h : ∀ value, failure? (next value) = failure) :
    failure? (first >>= next) = (failure? first).or failure := by
  cases first with
  | error error => rfl
  | ok value => exact h value

theorem failure?_bind_ok {first : Except ε α} {next : α → Except ε β}
    (h : ∀ value, failure? (next value) = none) : failure? (first >>= next) = failure? first := by
  rw [failure?_bind h, Option.or_none]

/-- A tag fails where it may not stand; if it is kept, it fails like its children. -/
theorem failure?_tagContent (options : Options) {position : Position} (h : position ≠ .root)
    (name : TagName) (attributes : Attributes) (items : List (Element Empty))
    (children : Except CompileError (List Piece)) :
    failure? (tagContent options (position == .top) name attributes children) =
      (violation? options ⟨position, .tag name attributes items⟩).or
        (if name.isKnown then failure? children else none) := by
  rw [violation?_tag h, tagContent]
  cases hp : placement options (position == .top) name with
  | reject error => rfl
  | drop dropped =>
    rw [isKnown_of_drop hp]
    rfl
  | keep =>
    rw [isKnown_of_keep hp, if_pos rfl, Option.none_or]
    exact failure?_bind_ok fun _ => rfl

theorem findSome?_visits_tag {position : Position} {name : TagName} {attributes : Attributes}
    {children : List (Element Empty)} :
    (visits position (.tag name attributes children)).findSome? (violation? options) =
      (violation? options ⟨position, .tag name attributes children⟩).or
        (if name.isKnown then (visitsAll .below children).findSome? (violation? options)
          else none) := by
  rw [visits, List.findSome?_cons]
  cases violation? options ⟨position, .tag name attributes children⟩ with
  | some error => rfl
  | none =>
    -- the children count only if the walk goes on below the tag
    cases name.isKnown <;> rfl

mutual

/-- **Below a section**, compiling fails with the first violation. -/
theorem failure?_pieces (options : Options) : ∀ element : Element Empty,
    failure? (pieces options element) =
      (visits .below element).findSome? (violation? options)
  | .empty | .leaf _ => rfl
  | .tag name attributes children => by
    have hchildren := failure?_piecesAll options children
    have hposition : Position.below ≠ .root := by decide
    have htag := failure?_tagContent options hposition name attributes children
      (piecesAll options children)
    rw [findSome?_visits_tag, ← hchildren, ← htag]
    exact failure?_bind_ok fun content => by cases content <;> rfl
  | .composite component _ _ => nomatch component
  | .fragment items => failure?_piecesAll options items

theorem failure?_piecesAll (options : Options) : ∀ items : List (Element Empty),
    failure? (piecesAll options items) =
      (visitsAll .below items).findSome? (violation? options)
  | [] => rfl
  | item :: rest => by
    rw [visitsAll, List.findSome?_append, ← failure?_pieces options item,
      ← failure?_piecesAll options rest]
    exact failure?_bind fun _ => failure?_bind_ok fun _ => rfl

end

mutual

/-- **Directly in the document**, compiling fails with the first violation. -/
theorem failure?_sections (options : Options) : ∀ (element : Element Empty) (definition),
    failure? (sections options element definition) =
      (visits .top element).findSome? (violation? options)
  | .empty, _ => rfl
  | .leaf scalar, definition => by
    rw [sections, visits, List.findSome?_singleton, violation?]
    split <;> rfl
  | .tag name attributes children, definition => by
    have hchildren := failure?_piecesAll options children
    have hposition : Position.top ≠ .root := by decide
    have htag := failure?_tagContent options hposition name attributes children
      (piecesAll options children)
    rw [findSome?_visits_tag, ← hchildren, ← htag]
    exact failure?_bind_ok fun content => by cases content <;> rfl
  | .composite component _ _, _ => nomatch component
  | .fragment items, definition => failure?_sectionsAll options items definition

theorem failure?_sectionsAll (options : Options) : ∀ (items : List (Element Empty)) (definition),
    failure? (sectionsAll options items definition) =
      (visitsAll .top items).findSome? (violation? options)
  | [], _ => rfl
  | item :: rest, definition => by
    rw [visitsAll, List.findSome?_append, ← failure?_sections options item definition]
    exact failure?_bind fun next => failure?_sectionsAll options rest next

end

/-- **A whole tree** fails with the first violation of the walk. -/
theorem failure?_compilePlain (options : Options) (root : Element Empty) :
    failure? (compilePlain options root) = (walk root).findSome? (violation? options) := by
  cases root with
  | tag name attributes children =>
    cases name with
    | document =>
      have hsections := failure?_sectionsAll options children {}
      rw [walk, List.findSome?_cons, violation?, ← hsections]
      exact failure?_bind_ok fun _ => rfl
    | _ => rfl
  | _ => rfl

/-! ## Exactness -/

theorem findSome?_violation?_eq_none_iff {visits : List Visit} :
    visits.findSome? (violation? options) = none ↔
      ∀ visit ∈ visits, ∀ error, ¬Violates options visit error := by
  rw [List.findSome?_eq_none_iff]
  simp only [Option.eq_none_iff_forall_ne_some, ne_eq, violation?_eq_some_iff]

theorem findSome?_violation?_eq_some_iff {visits : List Visit} {error : CompileError} :
    visits.findSome? (violation? options) = some error ↔ FirstViolation options visits error := by
  rw [List.findSome?_eq_some_iff]
  constructor
  · rintro ⟨before, visit, after, hvisits, hvisit, hbefore⟩
    refine ⟨before, visit, after, hvisits, ?_, violation?_eq_some_iff.1 hvisit⟩
    rw [← findSome?_violation?_eq_none_iff, List.findSome?_eq_none_iff]
    exact hbefore
  · rintro ⟨before, visit, after, hvisits, hbefore, hvisit⟩
    refine ⟨before, visit, after, hvisits, violation?_eq_some_iff.2 hvisit, ?_⟩
    rw [← findSome?_violation?_eq_none_iff, List.findSome?_eq_none_iff] at hbefore
    exact hbefore

/-- In a walk without violations, the root is a document. -/
theorem isDocument_of_walk {root : Element Empty}
    (h : ∀ visit ∈ walk root, ∀ error, ¬Violates options visit error) : IsDocument root := by
  refine Classical.byContradiction fun hroot => ?_
  have hmem : ⟨.root, root⟩ ∈ walk root := by
    cases root with
    | tag name attributes children => exact List.mem_cons_self
    | _ => exact List.mem_singleton_self _
  exact h _ hmem _ (.notDocument hroot)

/-- **Validation is exact.**  A tree without components compiles if and only if it is a document
    in which nothing stands where it may not; otherwise compiling it fails with the first error in
    depth-first order. -/
theorem compile_validates (options : Options) (context : Context) (root : Element Empty) :
    ((∃ definition, compile (Library.none : Library Empty Id) options context root =
        pure definition) ↔
      IsDocument root ∧ ∀ visit ∈ walk root, ∀ error, ¬Violates options visit error) ∧
    ∀ error, compile (Library.none : Library Empty Id) options context root = throw error ↔
      FirstViolation options (walk root) error := by
  have hrun := compile_none options context root
  constructor
  · constructor
    · rintro ⟨definition, hok⟩
      have hwalk : ∀ visit ∈ walk root, ∀ error, ¬Violates options visit error := by
        rw [← findSome?_violation?_eq_none_iff, ← failure?_compilePlain, failure?_eq_none_iff]
        refine ⟨definition, ?_⟩
        rw [← hrun, hok]
        rfl
      exact ⟨isDocument_of_walk hwalk, hwalk⟩
    · rintro ⟨-, hwalk⟩
      rw [← findSome?_violation?_eq_none_iff, ← failure?_compilePlain, failure?_eq_none_iff]
        at hwalk
      obtain ⟨definition, hok⟩ := hwalk
      refine ⟨definition, ExceptT.ext ?_⟩
      rw [hrun, hok]
      rfl
  · intro error
    rw [← findSome?_violation?_eq_some_iff, ← failure?_compilePlain, failure?_eq_some_iff, ← hrun]
    constructor
    · intro herror
      rw [herror]
      rfl
    · intro herror
      exact ExceptT.ext herror

-- both the unknown tag and the stray text are violations; the tag comes first, deep as it stands
example : compile (Library.none : Library Empty Id) { defaultStyle := none, strictTags := true } ∅
    (.tag .document ∅
      [.fragment [.tag .content ∅ [.tag (.unknown "figure") ∅ []]], .text "stray"]) =
    throw (.unknownTag "figure") := rfl

end Folio
