/-
  Full expansions: element trees with every component rendered, all at once.

  Compiling renders components on its way down, each when it is reached.  Here is the eager
  counterpart, for components that are functions of what they are rendered with.

  1. **Trees** — an `Expansion` is an element tree that keeps, in place of each composite, the
     `Link` it was (component, props, and what it provided) on top of the expansion of what it
     rendered.  A chain of components is a tower of links.  Leaving the links out gives the tree
     without components (`Expansion.element`).

  2. **Expanding** — `Expands render context element tree`: the tree is what the element expands
     to.  Each composite adds what it provides to the context of what it renders; the children of
     a tag and the items of a fragment each start from the context that their parent was reached
     with.  There is no limit: an element whose chains do not all end has no expansion, and one
     whose chains all end has exactly one (`Expands.unique`).

  3. **Trees without components** — they are their own expansion (`expands_plain`), and no deeper
     than the tree itself (`depth_plain`).
-/
import Folio.Component
import Folio.Definition
import Folio.Element.Node

namespace Folio

variable {κ : Type}

/-! ## Trees -/

/-- A component that was rendered: with what, and what it provided. -/
structure Link (κ : Type) where
  component : κ
  props : Props κ
  provided : List (String × Json)

/-- An element tree whose components are all rendered. -/
inductive Expansion (κ : Type) where
  | empty
  | leaf (scalar : Scalar)
  | tag (name : TagName) (attributes : Attributes) (children : List (Expansion κ))
  | fragment (items : List (Expansion κ))
  /-- A component, above what it rendered. -/
  | composite (link : Link κ) (rendered : Expansion κ)

namespace Expansion

mutual

/-- The tree without its links: every composite is replaced by what its chain ends in. -/
def element : Expansion κ → Element Empty
  | .empty => .empty
  | .leaf scalar => .leaf scalar
  | .tag name attributes children => .tag name attributes (elements children)
  | .fragment items => .fragment (elements items)
  | .composite _ rendered => element rendered

def elements : List (Expansion κ) → List (Element Empty)
  | [] => []
  | tree :: rest => element tree :: elements rest

end

theorem elements_length (trees : List (Expansion κ)) : (elements trees).length = trees.length := by
  induction trees with
  | nil => rfl
  | cons tree rest ih => rw [elements, List.length_cons, List.length_cons, ih]

mutual

/-- How deep the tree is nested, links counted. -/
def depth : Expansion κ → Nat
  | .empty | .leaf _ => 1
  | .tag _ _ children => depthAll children + 1
  | .fragment items => depthAll items + 1
  | .composite _ rendered => depth rendered + 1

def depthAll : List (Expansion κ) → Nat
  | [] => 0
  | tree :: rest => max (depth tree) (depthAll rest)

end

theorem depth_pos (tree : Expansion κ) : 0 < tree.depth := by
  cases tree <;> simp [depth]

theorem depth_tag_le {name : TagName} {attributes : Attributes} {children : List (Expansion κ)}
    {limit : Nat} : (tag name attributes children).depth ≤ limit + 1 ↔ depthAll children ≤ limit :=
  Nat.add_le_add_iff_right

theorem depth_fragment_le {items : List (Expansion κ)} {limit : Nat} :
    (fragment items).depth ≤ limit + 1 ↔ depthAll items ≤ limit :=
  Nat.add_le_add_iff_right

theorem depthAll_cons_le {tree : Expansion κ} {trees : List (Expansion κ)} {limit : Nat} :
    depthAll (tree :: trees) ≤ limit ↔ tree.depth ≤ limit ∧ depthAll trees ≤ limit := by
  rw [depthAll]
  omega

end Expansion

/-! ## Expanding -/

mutual

/-- `Expands render context element tree` — reached with the context, the element expands to the
    tree.  `render` says what each component renders. -/
inductive Expands (render : κ → Props κ → Context → Rendering κ) :
    Context → Element κ → Expansion κ → Prop
  | empty {context} : Expands render context .empty .empty
  | leaf {context scalar} : Expands render context (.leaf scalar) (.leaf scalar)
  | tag {context name attributes children trees} :
      ExpandsAll render context children trees →
      Expands render context (.tag name attributes children) (.tag name attributes trees)
  | fragment {context items trees} :
      ExpandsAll render context items trees →
      Expands render context (.fragment items) (.fragment trees)
  /-- What a component renders is reached with what the component provides. -/
  | composite {context component attributes children next provided tree} :
      render component ⟨attributes, children⟩ context = ⟨next, provided⟩ →
      Expands render (context.insertAll provided) next tree →
      Expands render context (.composite component attributes children)
        (.composite ⟨component, ⟨attributes, children⟩, provided⟩ tree)

/-- Each element of the list expands on its own, from one and the same context. -/
inductive ExpandsAll (render : κ → Props κ → Context → Rendering κ) :
    Context → List (Element κ) → List (Expansion κ) → Prop
  | nil {context} : ExpandsAll render context [] []
  | cons {context element elements tree trees} :
      Expands render context element tree → ExpandsAll render context elements trees →
      ExpandsAll render context (element :: elements) (tree :: trees)

end

variable {render : κ → Props κ → Context → Rendering κ}

mutual

/-- **Expanding is a function.**  An element has at most one expansion in a context. -/
theorem Expands.unique {context : Context} {element : Element κ} {tree tree' : Expansion κ}
    (h : Expands render context element tree) (h' : Expands render context element tree') :
    tree = tree' := by
  cases h with
  | empty => cases h'; rfl
  | leaf => cases h'; rfl
  | tag hs =>
    cases h' with
    | tag hs' => rw [hs.unique hs']
  | fragment hs =>
    cases h' with
    | fragment hs' => rw [hs.unique hs']
  | composite hr h =>
    cases h' with
    | composite hr' h' =>
      -- both rendered the same, so both went on from the same context
      obtain ⟨rfl, rfl⟩ := Rendering.mk.inj (hr.symm.trans hr')
      rw [h.unique h']

theorem ExpandsAll.unique {context : Context} {elements : List (Element κ)}
    {trees trees' : List (Expansion κ)} (h : ExpandsAll render context elements trees)
    (h' : ExpandsAll render context elements trees') : trees = trees' := by
  cases h with
  | nil => cases h'; rfl
  | cons h hs =>
    cases h' with
    | cons h' hs' => rw [h.unique h', hs.unique hs']

end

theorem ExpandsAll.length {context : Context} {elements : List (Element κ)} :
    ∀ {trees : List (Expansion κ)}, ExpandsAll render context elements trees →
      trees.length = elements.length := by
  induction elements with
  | nil =>
    intro trees h
    cases h
    rfl
  | cons element rest ih =>
    intro trees h
    cases h with
    | cons _ hs => rw [List.length_cons, List.length_cons, ih hs]

/-! ## Trees without components -/

namespace Expansion

mutual

/-- The expansion of a tree without components. -/
def plain : Element Empty → Expansion Empty
  | .empty => .empty
  | .leaf scalar => .leaf scalar
  | .tag name attributes children => .tag name attributes (plainAll children)
  | .composite component _ _ => nomatch component
  | .fragment items => .fragment (plainAll items)

def plainAll : List (Element Empty) → List (Expansion Empty)
  | [] => []
  | element :: rest => plain element :: plainAll rest

end

mutual

@[simp] theorem element_plain : ∀ element : Element Empty, (plain element).element = element
  | .empty | .leaf _ => rfl
  | .tag name attributes children => by
    rw [plain, Expansion.element, elements_plainAll children]
  | .composite component _ _ => nomatch component
  | .fragment items => by rw [plain, Expansion.element, elements_plainAll items]

@[simp] theorem elements_plainAll :
    ∀ items : List (Element Empty), elements (plainAll items) = items
  | [] => rfl
  | element :: rest => by
    rw [plainAll, elements, element_plain element, elements_plainAll rest]

end

mutual

theorem depth_plain : ∀ element : Element Empty, (plain element).depth ≤ element.height
  | .empty | .leaf _ => Nat.le_refl _
  | .tag _ _ children => by
    have h := depthAll_plainAll children
    rw [plain, depth, Element.height]
    omega
  | .composite component _ _ => nomatch component
  | .fragment items => by
    have h := depthAll_plainAll items
    rw [plain, depth, Element.height]
    omega

theorem depthAll_plainAll :
    ∀ items : List (Element Empty), depthAll (plainAll items) ≤ Element.heightAll items
  | [] => Nat.zero_le _
  | element :: rest => by
    have h := depth_plain element
    have hs := depthAll_plainAll rest
    rw [plainAll, depthAll, Element.heightAll]
    omega

end

end Expansion

mutual

theorem expands_plain {render : Empty → Props Empty → Context → Rendering Empty}
    (context : Context) : ∀ element, Expands render context element (Expansion.plain element)
  | .empty => .empty
  | .leaf _ => .leaf
  | .tag _ _ children => .tag (expandsAll_plainAll context children)
  | .composite component _ _ => nomatch component
  | .fragment items => .fragment (expandsAll_plainAll context items)

theorem expandsAll_plainAll {render : Empty → Props Empty → Context → Rendering Empty}
    (context : Context) : ∀ items, ExpandsAll render context items (Expansion.plainAll items)
  | [] => .nil
  | element :: rest => .cons (expands_plain context element) (expandsAll_plainAll context rest)

end

/-! ## A themed page

  A component that provides a theme renders a component that renders a section, and a label in it
  reads the theme.  A label elsewhere on the page does not. -/

/-- The components of the page. -/
inductive Part where
  | theme
  | body
  | label

/-- What the parts render. -/
def Part.rendering : Part → Props Part → Context → Rendering Part
  | theme, props, _ => ⟨.composite .body ∅ props.children, [("theme", .string "dark")]⟩
  | body, props, _ => ⟨.tag .content ∅ props.children, []⟩
  | label, _, context => ⟨.text ((context.getString? "theme").getD "none"), []⟩

/-- The library of the parts. -/
def themed : Library Part Id where
  name _ := "part"
  render := Part.rendering
  reach := 1

/-- A label below the theme and one beside it. -/
def themedPage : Element Part :=
  .tag .document ∅
    [.composite .theme ∅ [.composite .label ∅ []], .tag .footer ∅ [.composite .label ∅ []]]

/-- The page with its parts rendered. -/
def themedExpansion : Expansion Part :=
  .tag .document ∅
    [.composite ⟨.theme, ⟨∅, [.composite .label ∅ []]⟩, [("theme", .string "dark")]⟩
      (.composite ⟨.body, ⟨∅, [.composite .label ∅ []]⟩, []⟩
        (.tag .content ∅ [.composite ⟨.label, ⟨∅, []⟩, []⟩ (.leaf (.string "dark"))])),
    .tag .footer ∅ [.composite ⟨.label, ⟨∅, []⟩, []⟩ (.leaf (.string "none"))]]

/-- What the page compiles to: the theme reaches the label below it, not the one beside. -/
def themedDefinition : Definition where
  content := some (.fragment (.list .stack [.text (.string "dark")]) ∅)
  footer := some (.fragment (.list .stack [.text (.string "none")]) ∅)

theorem expands_themedPage : Expands themed.render ∅ themedPage themedExpansion :=
  .tag (.cons (.composite rfl (.composite rfl (.tag (.cons (.composite rfl .leaf) .nil))))
    (.cons (.tag (.cons (.composite rfl .leaf) .nil)) .nil))

end Folio
