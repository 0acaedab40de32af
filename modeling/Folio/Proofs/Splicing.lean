/-
  When fragments are spliced.

  A fragment stands for its items.  It can be spliced when a tag is built, or be left in place for
  the compiler to go through; both give the same document.  The compiler goes through fragments in
  two places, below a section and directly in the document, and splicing beforehand is the same for
  either: the items come in the same order, texts merge across the borders of fragments, and the
  first error is the same.

  1. **Walks** — the two walks have in common that they take a list item by item, hand something on,
     and take the items of a fragment in its place (`Walks`).  Any such walk may be done on the
     spliced list (`Walks.extends_flatten`, `Walks.flatten_extends`); splicing saves a level of
     depth for each fragment, so the limit on depth has to be kept out of it (`AgreeInDepth`).
  2. **Everywhere at once** — in a tree without components, the children of every tag can be spliced
     (`Element.spliceTags`), and what the tree yields is exactly the same (`pieces_spliceTags`,
     `sections_spliceTags`).
  3. **The compiler** — both together (`compile_spliced`).
-/
import Folio.Proofs.Assembly
import Folio.Proofs.Depth
import Folio.Proofs.Joining

namespace Folio

variable {κ σ : Type}

/-! ## Walks -/

/-- A walk over lists of elements, limited in depth, that hands a state on from element to element
    and goes through a fragment in its place, one level further down. -/
structure Walks (visit : Nat → List (Element κ) → σ → ExceptT CompileError Id σ) : Prop where
  nil : ∀ limit state, visit limit [] state = pure state
  cons : ∀ limit element rest state,
    visit limit (element :: rest) state = visit limit [element] state >>= visit limit rest
  fragment : ∀ limit items state,
    visit (limit + 1) [.fragment items] state = visit limit items state
  giveUp : ∀ items state, visit 0 [.fragment items] state = throw .tooDeep
  mono : ∀ {limit limit'}, limit ≤ limit' → ∀ elements state,
    Extends (visit limit elements state) (visit limit' elements state)

namespace Walks

variable {visit : Nat → List (Element κ) → σ → ExceptT CompileError Id σ}

theorem append (h : Walks visit) (limit : Nat) (elements others : List (Element κ)) (state : σ) :
    visit limit (elements ++ others) state = visit limit elements state >>= visit limit others := by
  induction elements generalizing state with
  | nil => rw [List.nil_append, h.nil, pure_bind]
  | cons element rest ih =>
    rw [List.cons_append, h.cons, h.cons limit element rest, bind_assoc]
    exact bind_congr ih

mutual

theorem extends_spliced (h : Walks visit) : ∀ (limit : Nat) (element : Element κ) (state : σ),
    Extends (visit limit [element] state) (visit limit element.spliced state)
  | 0, .fragment items, state => by
    rw [h.giveUp]
    exact .of_tooDeep
  | limit + 1, .fragment items, state => by
    have hitems := h.extends_flatten limit items state
    rw [h.fragment, Element.spliced]
    exact hitems.trans (h.mono (Nat.le_succ limit) _ state)
  | _, .empty, _ | _, .leaf _, _ | _, .tag _ _ _, _ | _, .composite _ _ _, _ => .refl _

/-- **Splicing loses nothing**: with the same limit, the spliced list comes to what the list comes
    to, unless that was given up. -/
theorem extends_flatten (h : Walks visit) : ∀ (limit : Nat) (elements : List (Element κ))
    (state : σ), Extends (visit limit elements state) (visit limit (Element.flatten elements) state)
  | _, [], _ => .refl _
  | limit, element :: rest, state => by
    rw [h.cons, Element.flatten, h.append]
    exact (h.extends_spliced limit element state).bind fun next => h.extends_flatten limit rest next

end

mutual

theorem spliced_extends (h : Walks visit) : ∀ (limit : Nat) (element : Element κ) (state : σ),
    Extends (visit limit element.spliced state) (visit (limit + element.height) [element] state)
  | limit, .fragment items, state => by
    rw [Element.spliced, Element.height, ← Nat.add_assoc, h.fragment]
    exact h.flatten_extends limit items state
  | limit, .empty, state | limit, .leaf _, state | limit, .tag _ _ _, state
  | limit, .composite _ _ _, state => h.mono (Nat.le_add_right ..) _ state

/-- **Splicing adds nothing**: the list comes to what the spliced list comes to, with as many more
    levels as it has. -/
theorem flatten_extends (h : Walks visit) : ∀ (limit : Nat) (elements : List (Element κ))
    (state : σ), Extends (visit limit (Element.flatten elements) state)
      (visit (limit + Element.heightAll elements) elements state)
  | _, [], state => by
    rw [Element.flatten, h.nil, h.nil]
    exact .refl _
  | limit, element :: rest, state => by
    have helement := h.spliced_extends limit element state
    have hfirst : limit + element.height ≤ limit + Element.heightAll (element :: rest) :=
      Nat.add_le_add_left (Nat.le_max_left ..) _
    have hothers : limit + Element.heightAll rest ≤ limit + Element.heightAll (element :: rest) :=
      Nat.add_le_add_left (Nat.le_max_right ..) _
    rw [h.cons, Element.flatten, h.append]
    refine (helement.trans (h.mono hfirst _ state)).bind fun next => ?_
    exact (h.flatten_extends limit rest next).trans (h.mono hothers _ next)

end

/-- **A walk may be done on the spliced list**, whatever is done with what it comes to. -/
theorem agreeInDepth {α : Type} (h : Walks visit) (elements : List (Element κ)) (state : σ)
    (finish : σ → ExceptT CompileError Id α) :
    AgreeInDepth (fun limit => visit limit elements state >>= finish)
      (fun limit => visit limit (Element.flatten elements) state >>= finish) := by
  apply AgreeInDepth.of_extends
  · intro limit limit' hle
    exact (h.mono hle elements state).bind fun _ => .refl _
  · intro limit limit' hle
    exact (h.mono hle _ state).bind fun _ => .refl _
  · intro limit
    exact (h.extends_flatten limit elements state).bind fun _ => .refl _
  · intro limit
    have hfrom := h.flatten_extends limit elements state
    exact ⟨limit + Element.heightAll elements, hfrom.bind fun _ => .refl _⟩

end Walks

/-! ## The walks of the compiler -/

/-- The tag with its children spliced. -/
def Tag.spliced (tag : Tag κ) : Tag κ := { tag with children := Element.flatten tag.children }

section Compiler

variable (library : Library κ Id) (options : Options) (context : Context)

/-- Below a section, the pieces so far are handed on. -/
theorem walks_collect : Walks fun limit children (before : List Piece) =>
    (before ++ ·) <$> collect (childPieces library options limit context) children where
  nil limit before := by simp [collect]
  cons limit child rest before := by
    simp only [collect, bind_pure_comp, map_bind, Functor.map_map, bind_map_left, map_pure,
      List.append_nil, List.append_assoc]
  fragment limit items before := by
    simp [collect, childPieces, resolve, follow]
  giveUp items before := rfl
  mono h children before := (extends_collect (extends_childPieces h context) children).map _

/-- Directly in the document, the definition so far is handed on. -/
theorem walks_thread : Walks fun limit children definition =>
    thread (addSections library options limit context) children definition where
  nil limit definition := rfl
  cons limit child rest definition := by
    show _ = (_ >>= pure) >>= _
    rw [bind_pure]
    rfl
  fragment limit items definition := by
    show _ >>= pure = _
    rw [bind_pure]
    rfl
  giveUp items definition := rfl
  mono h children definition := extends_thread (extends_addSections h context) children definition

/-- Splicing the children of a tag, whatever is in them. -/
theorem agreeInDepth_compileTagWithin (top : Bool) (tag : Tag κ) :
    AgreeInDepth (fun limit => compileTagWithin library options limit context top tag)
      (fun limit => compileTagWithin library options limit context top tag.spliced) := by
  unfold compileTagWithin compileTagWith Tag.spliced
  dsimp only
  cases placement options top tag.head with
  | reject error => exact .refl _
  | drop name => exact .refl _
  | keep =>
    have hchildren := (walks_collect library options context).agreeInDepth tag.children []
      fun yielded => pure (primitive? tag.head tag.attributes (coalesce yielded))
    simpa only [List.nil_append, id_map'] using hchildren

/-- Splicing the children of a document, whatever is in them. -/
theorem agreeInDepth_compileWithin (attributes : Attributes) (children : List (Element κ)) :
    AgreeInDepth
      (fun limit => compileWithin library options limit context
        (.tag .document attributes children))
      (fun limit => compileWithin library options limit context
        (.tag .document attributes (Element.flatten children))) := by
  have hroot : ∀ limit items,
      compileWithin library options limit context (.tag .document attributes items) =
        thread (addSections library options limit context) items {} >>=
          fun sections => pure (addSettings options attributes sections) := by
    intro limit items
    unfold compileWithin resolve follow
    rfl
  simp only [hroot]
  exact (walks_thread library options context).agreeInDepth children {} _

end Compiler

/-! ## Everywhere at once -/

variable {options : Options}

theorem piecesAll_append (items others : List (Element Empty)) :
    piecesAll options (items ++ others) = do
      return (← piecesAll options items) ++ (← piecesAll options others) := by
  induction items with
  | nil => simp [piecesAll]
  | cons item rest ih =>
    simp only [List.cons_append, piecesAll, ih, bind_assoc, pure_bind, List.append_assoc]

mutual

theorem piecesAll_spliced : ∀ child : Element Empty,
    piecesAll options child.spliced = pieces options child
  | .fragment items => by
    rw [Element.spliced, pieces]
    exact piecesAll_flatten items
  | .empty | .leaf _ | .tag _ _ _ => by
    rw [Element.spliced, piecesAll, piecesAll]
    simp
  | .composite component _ _ => nomatch component

/-- Below a section, fragments may be spliced beforehand. -/
theorem piecesAll_flatten : ∀ items : List (Element Empty),
    piecesAll options (Element.flatten items) = piecesAll options items
  | [] => rfl
  | item :: rest => by
    rw [Element.flatten, piecesAll_append, piecesAll, piecesAll_spliced item,
      piecesAll_flatten rest]

end

namespace Element

mutual

/-- The element with the children of every tag in it spliced. -/
def spliceTags : Element Empty → Element Empty
  | .empty => .empty
  | .leaf scalar => .leaf scalar
  | .tag name attributes children => .tag name attributes (flatten (spliceTagsAll children))
  | .composite component _ _ => nomatch component
  | .fragment items => .fragment (spliceTagsAll items)

def spliceTagsAll : List (Element Empty) → List (Element Empty)
  | [] => []
  | element :: rest => spliceTags element :: spliceTagsAll rest

end

theorem length_spliceTagsAll (items : List (Element Empty)) :
    (spliceTagsAll items).length = items.length := by
  induction items with
  | nil => rfl
  | cons item rest ih => rw [spliceTagsAll, List.length_cons, List.length_cons, ih]

/-- An element is described by what it is, not by what is in it. -/
theorem describe_spliceTags (nameOf : Empty → String) (element : Element Empty) :
    element.spliceTags.describe nameOf = element.describe nameOf := by
  cases element with
  | composite component => exact component.elim
  | fragment items => rw [spliceTags, describe, describe, length_spliceTagsAll]
  | _ => rfl

end Element

/-- The tag with the children of every tag in it, and its own, spliced. -/
def Tag.spliceTags (tag : Tag Empty) : Tag Empty :=
  { tag with children := Element.flatten (Element.spliceTagsAll tag.children) }

mutual

/-- **Below a section**, an element yields what it yields with all tags in it spliced. -/
theorem pieces_spliceTags : ∀ element : Element Empty,
    pieces options element.spliceTags = pieces options element
  | .empty | .leaf _ => rfl
  | .tag name attributes children => by
    rw [Element.spliceTags, pieces, pieces, piecesAll_flatten, piecesAll_spliceTagsAll children]
  | .composite component _ _ => nomatch component
  | .fragment items => by
    rw [Element.spliceTags, pieces, pieces, piecesAll_spliceTagsAll items]

theorem piecesAll_spliceTagsAll : ∀ items : List (Element Empty),
    piecesAll options (Element.spliceTagsAll items) = piecesAll options items
  | [] => rfl
  | item :: rest => by
    rw [Element.spliceTagsAll, piecesAll, piecesAll, pieces_spliceTags item,
      piecesAll_spliceTagsAll rest]

end

mutual

/-- **Directly in the document**, an element adds the sections that it adds with all tags in it
    spliced. -/
theorem sections_spliceTags : ∀ (element : Element Empty) (definition : Definition),
    sections options element.spliceTags definition = sections options element definition
  | .empty, _ | .leaf _, _ => rfl
  | .tag name attributes children, definition => by
    rw [Element.spliceTags, sections, sections, piecesAll_flatten, piecesAll_spliceTagsAll children]
  | .composite component _ _, _ => nomatch component
  | .fragment items, definition => by
    rw [Element.spliceTags, sections, sections, sectionsAll_spliceTagsAll items definition]

theorem sectionsAll_spliceTagsAll : ∀ (items : List (Element Empty)) (definition : Definition),
    sectionsAll options (Element.spliceTagsAll items) definition =
      sectionsAll options items definition
  | [], _ => rfl
  | item :: rest, definition => by
    rw [Element.spliceTagsAll, sectionsAll, sectionsAll, sections_spliceTags item definition]
    exact bind_congr fun next => sectionsAll_spliceTagsAll rest next

end

theorem compilePlain_spliceTags (options : Options) (root : Element Empty) :
    compilePlain options root.spliceTags = compilePlain options root := by
  have hother : ∀ element : Element Empty,
      (throw (.rootElement (element.spliceTags.describe Empty.elim)) :
          Except CompileError Definition) =
        throw (.rootElement (element.describe Empty.elim)) := by
    intro element
    rw [Element.describe_spliceTags]
  cases root with
  | composite component => exact component.elim
  | tag name attributes children =>
    cases name with
    | document =>
      rw [Element.spliceTags, compilePlain, compilePlain, sectionsAll_flatten,
        sectionsAll_spliceTagsAll]
    | _ => exact hother (.tag _ attributes children)
  | _ => exact hother _

/-! ## The compiler -/

/-- **Splicing beforehand is the same.**  A tag, whatever its children hold, compiles to the same
    content, to nothing, or with the same error, when the fragments among its children are spliced;
    and so does a document.  In a tree without components the same may be done with all tags at
    once, at every depth. -/
theorem compile_spliced (library : Library κ Id) (options : Options) (context : Context) :
    (∀ (top : Bool) (tag : Tag κ),
      AgreeInDepth (fun limit => compileTagWithin library options limit context top tag)
        (fun limit => compileTagWithin library options limit context top
          { tag with children := Element.flatten tag.children })) ∧
    (∀ (attributes : Attributes) (children : List (Element κ)),
      AgreeInDepth
        (fun limit => compileWithin library options limit context
          (.tag .document attributes children))
        (fun limit => compileWithin library options limit context
          (.tag .document attributes (Element.flatten children)))) ∧
    (∀ (top : Bool) (tag : Tag Empty),
      compileTag (Library.none : Library Empty Id) options context top tag.spliced =
          compileTag (Library.none : Library Empty Id) options context top tag ∧
        compileTag (Library.none : Library Empty Id) options context top tag.spliceTags =
          compileTag (Library.none : Library Empty Id) options context top tag) ∧
    ∀ root : Element Empty,
      compile (Library.none : Library Empty Id) options context root.spliceTags =
        compile (Library.none : Library Empty Id) options context root := by
  refine ⟨agreeInDepth_compileTagWithin library options context,
    agreeInDepth_compileWithin library options context, fun top tag => ⟨?_, ?_⟩, fun root => ?_⟩
  · apply ExceptT.ext
    rw [compileTag_none, compileTag_none, Tag.spliced, piecesAll_flatten]
  · apply ExceptT.ext
    rw [compileTag_none, compileTag_none, Tag.spliceTags, piecesAll_flatten,
      piecesAll_spliceTagsAll]
  · apply ExceptT.ext
    rw [compile_none, compile_none, compilePlain_spliceTags]

end Folio
