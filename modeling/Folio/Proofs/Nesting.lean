/-
  What stands where in a tree that compiles.

  A tree that compiles holds one document, which is its root, and sections directly in it.  The
  compiler checks this on its walk, and the walk leaves out what stands below a tag outside the
  vocabulary; so does the rule.

  1. **Ways down** — `Reaches root above element`: the elements of `above`, outermost first, lead
     from the root to the element.
  2. **The walk follows them** — as long as no tag outside the vocabulary stands above an element,
     the walk visits it, at the position that the tags above it say (`visits_subset_walk`).
  3. **The rule** — so a misplaced document or section would be a violation (`compile_nesting`).
     Below a tag that is dropped there may be any (`compile_coveredPage`).
-/
import Folio.Proofs.Validation

namespace Folio

variable {options : Options} {root element : Element Empty} {above : List (Element Empty)}

/-! ## Ways down -/

/-- The way from the root to an element leads through the elements above it, outermost first. -/
inductive Reaches (root : Element Empty) : List (Element Empty) → Element Empty → Prop
  | root : Reaches root [] root
  | child {above name attributes children child} :
      Reaches root above (.tag name attributes children) → child ∈ children →
      Reaches root (above ++ [.tag name attributes children]) child
  | item {above items item} :
      Reaches root above (.fragment items) → item ∈ items →
      Reaches root (above ++ [.fragment items]) item

/-- Whether the element is a tag outside the vocabulary. -/
def Element.isUnknown : Element Empty → Bool
  | .tag name _ _ => !name.isKnown
  | _ => false

/-- Nothing but the root stands above everything else. -/
theorem Reaches.above_eq (h : Reaches root above element) :
    above = [] ∧ element = root ∨ ∃ inner, above = root :: inner := by
  induction h with
  | root => exact .inl ⟨rfl, rfl⟩
  | child h _ ih | item h _ ih =>
    right
    rcases ih with ⟨rfl, rfl⟩ | ⟨inner, rfl⟩
    · exact ⟨[], rfl⟩
    · exact ⟨_, rfl⟩

/-! ## The walk follows them -/

/-- Where the walk meets what has these elements above it. -/
def positionBelow : List (Element Empty) → Position
  | [] => .root
  | _ :: inner => if inner.all Element.isFragment then .top else .below

theorem positionBelow_ne_root (h : above ≠ []) : positionBelow above ≠ .root := by
  cases above with
  | nil => exact absurd rfl h
  | cons outer inner =>
    rw [positionBelow]
    split <;> decide

/-- Fragments make no difference to the position, -/
theorem positionBelow_concat_fragment (h : above ≠ []) (items : List (Element Empty)) :
    positionBelow (above ++ [.fragment items]) = positionBelow above := by
  cases above with
  | nil => exact absurd rfl h
  | cons outer inner => simp [positionBelow, Element.isFragment]

/-- and below a tag other than the root it is always the same. -/
theorem positionBelow_concat_tag (h : above ≠ []) (name : TagName) (attributes : Attributes)
    (children : List (Element Empty)) :
    positionBelow (above ++ [.tag name attributes children]) = .below := by
  cases above with
  | nil => exact absurd rfl h
  | cons outer inner => simp [positionBelow, Element.isFragment]

theorem visits_subset_visitsAll {items : List (Element Empty)} (h : element ∈ items)
    (position : Position) : visits position element ⊆ visitsAll position items := by
  induction items with
  | nil => cases h
  | cons first rest ih =>
    rw [visitsAll]
    rcases List.mem_cons.1 h with rfl | h
    · exact List.subset_append_left _ _
    · exact List.subset_append_of_subset_right _ (ih h)

/-- **The walk goes everywhere** but below the tags outside the vocabulary. -/
theorem visits_subset_walk (hroot : IsDocument root) (h : Reaches root above element)
    (hknown : ∀ ancestor ∈ above, ancestor.isUnknown = false) (hbelow : above ≠ []) :
    visits (positionBelow above) element ⊆ walk root := by
  induction h with
  | root => exact absurd rfl hbelow
  | @child above name attributes children child h hchild ih =>
    have hchildren := visits_subset_visitsAll hchild
    by_cases habove : above = []
    · -- the tag is the root, and the walk starts with its children
      subst habove
      obtain ⟨-, rfl⟩ | ⟨_, h⟩ := h.above_eq
      · exact List.subset_cons_of_subset _ (hchildren .top)
      · cases h
    · rw [positionBelow_concat_tag habove]
      have htag := ih (fun ancestor hmem => hknown ancestor (List.mem_append_left _ hmem)) habove
      have hname : name.isKnown = true := by
        simpa [Element.isUnknown] using hknown (.tag name attributes children) (by simp)
      rw [visits, if_pos hname] at htag
      exact List.Subset.trans (List.subset_cons_of_subset _ (hchildren .below)) htag
  | @item above items item h hitem ih =>
    have hitems := visits_subset_visitsAll hitem
    by_cases habove : above = []
    · -- a fragment is no document
      subst habove
      obtain ⟨-, rfl⟩ | ⟨_, h⟩ := h.above_eq
      · obtain ⟨_, _, hdocument⟩ := hroot
        cases hdocument
      · cases h
    · rw [positionBelow_concat_fragment habove]
      have hinner := fun ancestor hmem => hknown ancestor (List.mem_append_left _ hmem)
      have hfragment := ih hinner habove
      exact List.Subset.trans (hitems _) hfragment

/-! ## The rule -/

/-- On the walk through a tree that compiles there is no violation. -/
theorem not_violates_of_compile {context : Context} {definition : Definition}
    (h : compile (Library.none : Library Empty Id) options context root = pure definition) :
    ∀ visit ∈ walk root, ∀ error, ¬Violates options visit error := by
  have hrun := compile_none options context root
  rw [h] at hrun
  rw [← findSome?_violation?_eq_none_iff, ← failure?_compilePlain, ← hrun]
  rfl

/-- A tag below the root that the walk visits violates nothing, so its placement keeps or drops
    it. -/
theorem not_rejected (hroot : IsDocument root)
    (hwalk : ∀ visit ∈ walk root, ∀ error, ¬Violates options visit error) {name : TagName}
    {attributes : Attributes} {children : List (Element Empty)}
    (h : Reaches root above (.tag name attributes children))
    (hknown : ∀ ancestor ∈ above, ancestor.isUnknown = false) (hbelow : above ≠ [])
    (error : CompileError) :
    ¬Violates options ⟨positionBelow above, .tag name attributes children⟩ error := by
  refine hwalk _ (visits_subset_walk hroot h hknown hbelow ?_) error
  rw [visits]
  exact List.mem_cons_self

/-- Under strict options, a tree that compiles holds no tag outside the vocabulary. -/
theorem isUnknown_of_strict (hroot : IsDocument root) (hstrict : options.strictTags = true)
    (hwalk : ∀ visit ∈ walk root, ∀ error, ¬Violates options visit error)
    (h : Reaches root above element) : ∀ ancestor ∈ above, ancestor.isUnknown = false := by
  induction h with
  | root => exact fun _ hmem => absurd hmem List.not_mem_nil
  | @child above name attributes children child h _ ih =>
    intro ancestor hmem
    rcases List.mem_append.1 hmem with hmem | hmem
    · exact ih ancestor hmem
    · obtain rfl := List.mem_singleton.1 hmem
      rcases h.above_eq with ⟨rfl, rfl⟩ | ⟨inner, habove⟩
      · obtain ⟨_, _, hdocument⟩ := hroot
        rw [hdocument]
        rfl
      · have hbelow : above ≠ [] := by simp [habove]
        have hplaced := not_rejected hroot hwalk h ih hbelow
        cases name with
        | unknown text =>
          exact absurd (.unknownTag (positionBelow_ne_root hbelow) hstrict) (hplaced _)
        | _ => rfl
  | @item above items item h _ ih =>
    intro ancestor hmem
    rcases List.mem_append.1 hmem with hmem | hmem
    · exact ih ancestor hmem
    · obtain rfl := List.mem_singleton.1 hmem
      rfl

/-- **One document, and sections directly in it.**  If a tree compiles, its root is a document.  No
    other tag is, and every section stands directly in the root or in fragments there: this holds of
    all tags that do not stand below a tag outside the vocabulary, and under strict options of all
    tags in the tree. -/
theorem compile_nesting (options : Options) (context : Context) (root : Element Empty)
    (definition : Definition)
    (h : compile (Library.none : Library Empty Id) options context root = pure definition) :
    IsDocument root ∧
    ∀ above name attributes children, Reaches root above (.tag name attributes children) →
      options.strictTags = true ∨ (∀ ancestor ∈ above, ancestor.isUnknown = false) →
      (name = .document → above = []) ∧
      (name.isSection = true → ∃ fragments, above = root :: fragments ∧
        ∀ fragment ∈ fragments, fragment.isFragment = true) := by
  have hwalk := not_violates_of_compile h
  have hroot := isDocument_of_walk hwalk
  refine ⟨hroot, fun above name attributes children hreaches hnested => ?_⟩
  have hknown : ∀ ancestor ∈ above, ancestor.isUnknown = false := by
    rcases hnested with hstrict | hknown
    · exact isUnknown_of_strict hroot hstrict hwalk hreaches
    · exact hknown
  constructor
  · rintro rfl
    refine Classical.byContradiction fun hbelow => ?_
    exact not_rejected hroot hwalk hreaches hknown hbelow _
      (.innerDocument (positionBelow_ne_root hbelow))
  · intro hsection
    rcases hreaches.above_eq with ⟨-, rfl⟩ | ⟨inner, rfl⟩
    · obtain ⟨_, _, hdocument⟩ := hroot
      cases hdocument
      cases hsection
    · refine ⟨inner, rfl, fun fragment hmem => ?_⟩
      have hplaced := not_rejected hroot hwalk hreaches hknown (List.cons_ne_nil root inner)
      -- with a tag between the root and the section, the walk meets the section further down
      refine Classical.byContradiction fun hfragment => hplaced (.topLevelPlacement name) ?_
      have hposition : positionBelow (root :: inner) = .below := by
        have hall : ¬inner.all Element.isFragment = true :=
          fun hall => hfragment (List.all_eq_true.1 hall fragment hmem)
        rw [positionBelow, if_neg hall]
      rw [hposition]
      exact .innerSection hsection

/-- A page whose sections stand in a fragment. -/
def groupedPage : Element Empty :=
  .tag .document ∅ [.fragment [.tag .header ∅ [], .tag .content ∅ [.text "Due"]]]

/-- The header of the grouped page stands directly in it, with nothing but the fragment between. -/
theorem compile_nesting_groupedPage :
    let options : Options := { defaultStyle := none, strictTags := true }
    let above := [groupedPage, .fragment [.tag .header ∅ [], .tag .content ∅ [.text "Due"]]]
    (∃ definition, compile (Library.none : Library Empty Id) options ∅ groupedPage =
      pure definition) ∧
    Reaches groupedPage above (.tag .header ∅ []) ∧
    ∃ fragments, above = groupedPage :: fragments ∧
      ∀ fragment ∈ fragments, fragment.isFragment = true := by
  intro options above
  have hcompile : compile (Library.none : Library Empty Id) options ∅ groupedPage = pure
      { header := some (.fragment (.list .stack []) ∅)
        content := some (.fragment (.list .stack [.text (.string "Due")]) ∅) } := rfl
  have hheader : Reaches groupedPage above (.tag .header ∅ []) :=
    .item (.child .root List.mem_cons_self) List.mem_cons_self
  have hnesting := (compile_nesting options ∅ groupedPage _ hcompile).2
  exact ⟨⟨_, hcompile⟩, hheader, (hnesting above _ _ _ hheader (.inl rfl)).2 rfl⟩

/-- A page with a document and a header below a tag outside the vocabulary. -/
def coveredPage : Element Empty :=
  .tag .document ∅ [.tag .content ∅ [.tag (.unknown "figure") ∅
    [.tag .document ∅ [], .tag .header ∅ []]]]

/-- **What stands below a dropped tag goes unchecked.**  The covered page compiles, though its root
    is not the only document in it and its header does not stand directly in the root. -/
theorem compile_coveredPage :
    ∃ definition above,
      compile (Library.none : Library Empty Id) .standard ∅ coveredPage = pure definition ∧
      Reaches coveredPage above (.tag .document ∅ []) ∧ above ≠ [] ∧
      Reaches coveredPage above (.tag .header ∅ []) ∧
      ¬∃ fragments, above = coveredPage :: fragments ∧
        ∀ fragment ∈ fragments, fragment.isFragment = true := by
  have hfigure : Reaches coveredPage [coveredPage, .tag .content ∅ [.tag (.unknown "figure") ∅
      [.tag .document ∅ [], .tag .header ∅ []]]] (.tag (.unknown "figure") ∅
      [.tag .document ∅ [], .tag .header ∅ []]) :=
    .child (.child .root List.mem_cons_self) List.mem_cons_self
  refine ⟨_, _, rfl, .child hfigure List.mem_cons_self, by simp,
    .child hfigure (List.mem_cons_of_mem _ List.mem_cons_self), ?_⟩
  rintro ⟨fragments, habove, hfragments⟩
  cases habove
  cases hfragments _ List.mem_cons_self

end Folio
