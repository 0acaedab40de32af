/-
  What stands in a tree.

  1. **Parts** — `Element.Within whole part`: the part is the whole tree or stands below one of its
     parts, as a child of a tag or of a composite or as an item of a fragment.
  2. **Properties of all parts** — a property holds `Throughout` a tree if all its parts have it.
     It does if the element itself has the property and the property holds throughout everything
     below it (`throughout_iff`), so such a property can be proved by recursion on the tree.
  3. **Splicing** — splicing fragments keeps parts only (`within_of_mem_flatten`), so what holds
     throughout some elements holds throughout those that are left (`throughout_flatten`).
-/
import Folio.Element.Basic

namespace Folio

namespace Element

variable {κ : Type} {P : Element κ → Prop} {whole part deeper : Element κ}

/-! ## Parts -/

/-- The elements that stand directly below an element. -/
def inside : Element κ → List (Element κ)
  | .empty | .leaf _ => []
  | .tag _ _ children => children
  | .composite _ _ children => children
  | .fragment items => items

/-- The elements that stand somewhere in a tree. -/
inductive Within (whole : Element κ) : Element κ → Prop
  | whole : Within whole whole
  | inside {element part : Element κ} :
    Within whole element → part ∈ element.inside → Within whole part

theorem Within.trans (h : whole.Within part) (hdeeper : part.Within deeper) :
    whole.Within deeper := by
  induction hdeeper with
  | whole => exact h
  | inside _ hmem ih => exact ih.inside hmem

/-- What stands in a tree is the tree, or stands in something directly below it. -/
theorem within_iff :
    whole.Within part ↔ part = whole ∨ ∃ child ∈ whole.inside, child.Within part := by
  constructor
  · intro h
    induction h with
    | whole => exact .inl rfl
    | @inside element part _ hmem ih =>
      rcases ih with rfl | ⟨child, hchild, hwithin⟩
      · exact .inr ⟨part, hmem, .whole⟩
      · exact .inr ⟨child, hchild, hwithin.inside hmem⟩
  · rintro (rfl | ⟨child, hchild, hwithin⟩)
    · exact .whole
    · exact (Within.whole.inside hchild).trans hwithin

/-! ## Properties of all parts -/

/-- Everything that stands in a tree has the property. -/
def Throughout (P : Element κ → Prop) (whole : Element κ) : Prop :=
  ∀ part, whole.Within part → P part

theorem throughout_iff :
    whole.Throughout P ↔ P whole ∧ ∀ child ∈ whole.inside, child.Throughout P := by
  constructor
  · intro h
    exact ⟨h whole .whole, fun child hchild part hpart =>
      h part ((Within.whole.inside hchild).trans hpart)⟩
  · rintro ⟨hwhole, hinside⟩ part hpart
    rcases within_iff.1 hpart with rfl | ⟨child, hchild, hwithin⟩
    · exact hwhole
    · exact hinside child hchild part hwithin

theorem throughout_empty_iff : (empty : Element κ).Throughout P ↔ P empty :=
  throughout_iff.trans (and_iff_left fun _ h => absurd h List.not_mem_nil)

theorem throughout_leaf_iff {scalar : Scalar} :
    (leaf scalar : Element κ).Throughout P ↔ P (leaf scalar) :=
  throughout_iff.trans (and_iff_left fun _ h => absurd h List.not_mem_nil)

theorem throughout_tag_iff {name : TagName} {attributes : Attributes}
    {children : List (Element κ)} :
    (tag name attributes children).Throughout P ↔
      P (tag name attributes children) ∧ ∀ child ∈ children, child.Throughout P :=
  throughout_iff

theorem throughout_composite_iff {component : κ} {attributes : Attributes}
    {children : List (Element κ)} :
    (composite component attributes children).Throughout P ↔
      P (composite component attributes children) ∧ ∀ child ∈ children, child.Throughout P :=
  throughout_iff

theorem throughout_fragment_iff {items : List (Element κ)} :
    (fragment items).Throughout P ↔ P (fragment items) ∧ ∀ item ∈ items, item.Throughout P :=
  throughout_iff

/-! ## Splicing -/

mutual

theorem within_of_mem_spliced :
    ∀ {element : Element κ}, part ∈ spliced element → element.Within part
  | .fragment items, h => by
    rw [spliced] at h
    obtain ⟨item, hitem, hwithin⟩ := within_of_mem_flatten h
    exact within_iff.2 (.inr ⟨item, hitem, hwithin⟩)
  | .empty, h | .leaf _, h | .tag _ _ _, h | .composite _ _ _, h => by
    rw [List.mem_singleton.1 h]
    exact .whole

/-- What is left after splicing stood in one of the elements. -/
theorem within_of_mem_flatten : ∀ {items : List (Element κ)}, part ∈ flatten items →
    ∃ item ∈ items, item.Within part
  | [], h => absurd h List.not_mem_nil
  | first :: rest, h => by
    rw [flatten] at h
    rcases List.mem_append.1 h with h | h
    · exact ⟨first, List.mem_cons_self, within_of_mem_spliced h⟩
    · obtain ⟨item, hitem, hwithin⟩ := within_of_mem_flatten h
      exact ⟨item, List.mem_cons_of_mem _ hitem, hwithin⟩

end

theorem throughout_flatten {items : List (Element κ)} (h : ∀ item ∈ items, item.Throughout P) :
    ∀ element ∈ flatten items, element.Throughout P := by
  intro element hmem part hpart
  obtain ⟨item, hitem, hwithin⟩ := within_of_mem_flatten hmem
  exact h item hitem part (hwithin.trans hpart)

end Element

end Folio
