/-
  What a template reads as.

  Reading keeps track of where a value stands, but only for its messages.  The element that is read
  depends on the value alone: null is nothing, a string, a number or a truth value is a leaf, and an
  object is a tag whose children are the values that are left when arrays are spliced.

  1. **Spliced values** — an array stands for its items, however deeply nested (`spliced`); the
     `childItems` of an object are what its `children` stand for.
  2. **The relation** — `Reads value element`, without a pointer and without fragments.
  3. **Reading follows it** — the values that are left in place of a value read as the elements
     that are left in place of what is read (`readsAll_of_ofJsonAt`), since splicing arrays first
     and fragments later is the same.
-/
import Folio.Proofs.Templates

namespace Folio

namespace Template

variable {κ : Type}

/-! ## Spliced values -/

mutual

/-- The values that stand in place of one value when arrays are spliced. -/
def spliced : Json → List Json
  | .array items => splicedAll items
  | .null => [.null]
  | .bool b => [.bool b]
  | .number n => [.number n]
  | .string s => [.string s]
  | .object fields => [.object fields]

/-- Splices arrays, however deeply nested, into a flat list. -/
def splicedAll : List Json → List Json
  | [] => []
  | value :: rest => spliced value ++ splicedAll rest

end

/-- The values that stand as the children of an object. -/
def childItems (fields : List (String × Json)) : List Json :=
  ((lookup "children" fields).map spliced).getD []

/-! ## The relation -/

mutual

/-- What a value reads as that is no array. -/
inductive Reads : Json → Element κ → Prop
  | null : Reads .null .empty
  | leaf {value scalar} : Scalar.ofJson? value = some scalar → Reads value (.leaf scalar)
  | tag {fields name children} (attributes) : lookup "tag" fields = some (.string name) →
      ReadsAll (childItems fields) children →
      Reads (.object fields) (.tag (.ofText name) attributes children)

/-- What values read as, one by one. -/
inductive ReadsAll : List Json → List (Element κ) → Prop
  | nil : ReadsAll [] []
  | cons {value element values elements} : Reads value element → ReadsAll values elements →
      ReadsAll (value :: values) (element :: elements)

end

theorem ReadsAll.append {values values' : List Json} {elements elements' : List (Element κ)}
    (h : ReadsAll values elements) (h' : ReadsAll values' elements') :
    ReadsAll (values ++ values') (elements ++ elements') := by
  induction values generalizing elements with
  | nil =>
    cases h
    exact h'
  | cons value rest ih =>
    cases h with
    | cons hvalue hrest => exact .cons hvalue (ih hrest)

/-- No fragment is left. -/
theorem Reads.isFragment {value : Json} {element : Element κ} (h : Reads value element) :
    element.isFragment = false := by
  cases h <;> rfl

theorem ReadsAll.isFragment {values : List Json} {elements : List (Element κ)}
    (h : ReadsAll values elements) : ∀ element ∈ elements, element.isFragment = false := by
  induction elements generalizing values with
  | nil => exact fun _ hmem => absurd hmem List.not_mem_nil
  | cons element rest ih =>
    cases h with
    | cons hvalue hrest => exact List.forall_mem_cons.2 ⟨hvalue.isFragment, ih hrest⟩

theorem Reads.children {fields : List (String × Json)} {name : TagName} {attributes : Attributes}
    {children : List (Element κ)} (h : Reads (.object fields) (.tag name attributes children)) :
    ReadsAll (childItems fields) children := by
  cases h with
  | tag _ _ hchildren => exact hchildren

theorem Reads.singleton {value : Json} {element : Element κ} (h : Reads value element) :
    ReadsAll [value] [element] := .cons h .nil

/-! ## Reading follows it -/

/-- What the members of an object that are still to be read make of a draft. -/
def DraftedFrom (fields : List (String × Json)) (draft result : Draft κ) : Prop :=
  (∀ name, result.name = some name →
    draft.name = some name ∨ lookup "tag" fields = some (.string name)) ∧
  ∃ children, result.children = draft.children ++ children ∧
    ReadsAll (childItems fields) (Element.flatten children)

theorem childItems_cons_of_ne {key : String} (h : key ≠ "children") (value : Json)
    (rest : List (String × Json)) : childItems ((key, value) :: rest) = childItems rest := by
  rw [childItems, childItems, lookup, if_neg h]

/-- The member that gives the name. -/
theorem DraftedFrom.name {rest : List (String × Json)} {draft result : Draft κ} {name : String}
    (h : DraftedFrom rest { draft with name := some name } result)
    (hrest : lookup "tag" rest = none) :
    DraftedFrom (("tag", .string name) :: rest) draft result := by
  obtain ⟨hname, hchildren⟩ := h
  refine ⟨fun other hother => .inr ?_, ?_⟩
  · rcases hname other hother with hsame | hlookup
    · cases hsame
      rw [lookup, if_pos rfl]
    · cases hrest.symm.trans hlookup
  · rwa [childItems_cons_of_ne (by decide +kernel)]

/-- A member that says nothing about name or children. -/
theorem DraftedFrom.attributes {rest : List (String × Json)} {draft result : Draft κ}
    {attributes : Attributes} (h : DraftedFrom rest { draft with attributes := attributes } result)
    (value : Json) : DraftedFrom (("attributes", value) :: rest) draft result := by
  obtain ⟨hname, hchildren⟩ := h
  refine ⟨fun other hother => ?_, ?_⟩
  · rw [lookup, if_neg (by decide +kernel)]
    exact hname other hother
  · rwa [childItems_cons_of_ne (by decide +kernel)]

/-- The member that gives the children. -/
theorem DraftedFrom.children {rest : List (String × Json)} {draft result : Draft κ} {value : Json}
    {children : List (Element κ)}
    (h : DraftedFrom rest { draft with children := draft.children ++ children } result)
    (hrest : lookup "children" rest = none)
    (hvalue : ReadsAll (spliced value) (Element.flatten children)) :
    DraftedFrom (("children", value) :: rest) draft result := by
  obtain ⟨hname, more, hmore, hreads⟩ := h
  have hnone : childItems rest = [] := by rw [childItems, hrest]; rfl
  have hitems : childItems (("children", value) :: rest) = spliced value := by
    rw [childItems, lookup, if_pos rfl]
    rfl
  refine ⟨fun other hother => ?_, children ++ more, ?_, ?_⟩
  · rw [lookup, if_neg (by decide +kernel)]
    exact hname other hother
  · rw [hmore, List.append_assoc]
  · rw [hnone] at hreads
    rw [hitems, Element.flatten_append, ← List.append_nil (spliced value)]
    exact hvalue.append hreads

/-- An object reads as the tag that its draft describes. -/
theorem DraftedFrom.reads {fields : List (String × Json)} {draft : Draft κ} {pointer : Pointer}
    {element : Element κ} (h : DraftedFrom fields {} draft)
    (hread : draft.toElement pointer = .ok element) : Reads (.object fields) element := by
  obtain ⟨hname, children, hchildren, hreads⟩ := h
  rw [Draft.toElement] at hread
  cases hdraft : draft.name with
  | none =>
    rw [hdraft] at hread
    cases hread
  | some name =>
    rw [hdraft] at hread
    cases hread
    rcases hname name hdraft with hnone | hlookup
    · cases hnone
    · rw [hchildren]
      exact .tag draft.attributes hlookup hreads

mutual

/-- **Reading** a value leaves what the spliced values read as, -/
theorem readsAll_of_ofJsonAt : ∀ {value : Json}, value.Normal → ∀ {pointer : Pointer}
    {element : Element κ}, ofJsonAt pointer value = .ok element →
    ReadsAll (spliced value) element.spliced
  | .array items, hnormal, pointer, element, h => by
    obtain ⟨elements, helements, hfragment⟩ := bind_eq_ok_iff.1 h
    cases hfragment
    exact readsAll_of_ofItems hnormal helements
  | .object fields, hnormal, pointer, element, h => by
    obtain ⟨draft, hdraft, hread⟩ := bind_eq_ok_iff.1 h
    have hreads := (draftedFrom_of_ofFields hnormal.1 hnormal.2 hdraft).reads hread
    rw [spliced, Element.spliced_eq_singleton hreads.isFragment]
    exact hreads.singleton
  | .null, _, _, _, h => by
    cases h
    exact Reads.null.singleton
  | .bool _, _, _, _, h | .number _, _, _, _, h | .string _, _, _, _, h => by
    cases h
    exact (Reads.leaf rfl).singleton

/-- so does reading the items of an array, -/
theorem readsAll_of_ofItems : ∀ {items : List Json}, Json.NormalItems items →
    ∀ {pointer : Pointer} {index : Nat} {elements : List (Element κ)},
    ofItems pointer index items = .ok elements →
    ReadsAll (splicedAll items) (Element.flatten elements)
  | [], _, _, _, _, h => by
    cases h
    exact .nil
  | item :: rest, hnormal, _, _, _, h => by
    obtain ⟨element, helement, h⟩ := bind_eq_ok_iff.1 h
    obtain ⟨elements, helements, h⟩ := bind_eq_ok_iff.1 h
    cases h
    exact (readsAll_of_ofJsonAt hnormal.1 helement).append
      (readsAll_of_ofItems hnormal.2 helements)

/-- the members of an object -/
theorem draftedFrom_of_ofFields : ∀ {fields : List (String × Json)}, KeysIncrease fields →
    Json.NormalFields fields → ∀ {pointer : Pointer} {draft result : Draft κ},
    ofFields pointer fields draft = .ok result → DraftedFrom fields draft result
  | [], _, _, _, _, _, h => by
    cases h
    exact ⟨fun _ hname => .inl hname, [], (List.append_nil _).symm, .nil⟩
  | (key, value) :: rest, hkeys, hnormal, pointer, draft, result, h => by
    obtain ⟨hlt, hrestkeys⟩ := List.pairwise_cons.1 hkeys
    have hrest := fun draft (h : ofFields pointer rest draft = .ok result) =>
      draftedFrom_of_ofFields hrestkeys hnormal.2 h
    -- the members that are still to come have other keys
    have hnone : lookup key rest = none := lookup_eq_none_of_lt hlt
    unfold ofFields at h
    by_cases htag : key = "tag"
    · subst htag
      rw [if_pos rfl] at h
      cases value with
      | string name => exact (hrest _ h).name hnone
      | _ => cases h
    rw [if_neg htag] at h
    by_cases hattributes : key = "attributes"
    · subst hattributes
      rw [if_pos rfl] at h
      cases value with
      | object inner => exact (hrest _ h).attributes _
      | null => exact DraftedFrom.attributes (hrest _ h) _
      | _ => cases h
    rw [if_neg hattributes] at h
    by_cases hchildren : key = "children"
    · subst hchildren
      rw [if_pos rfl] at h
      obtain ⟨children, hread, h⟩ := bind_eq_ok_iff.1 h
      exact (hrest _ h).children hnone (readsAll_of_childrenOf hnormal.1 hread)
    rw [if_neg hchildren] at h
    cases h

/-- and its children. -/
theorem readsAll_of_childrenOf : ∀ {value : Json}, value.Normal → ∀ {pointer : Pointer}
    {elements : List (Element κ)}, childrenOf pointer value = .ok elements →
    ReadsAll (spliced value) (Element.flatten elements)
  | .array items, hnormal, _, _, h => readsAll_of_ofItems hnormal h
  | .object fields, hnormal, pointer, elements, h => by
    obtain ⟨draft, hdraft, h⟩ := bind_eq_ok_iff.1 h
    obtain ⟨element, hread, h⟩ := bind_eq_ok_iff.1 h
    cases h
    have hreads := (draftedFrom_of_ofFields hnormal.1 hnormal.2 hdraft).reads hread
    rw [spliced, Element.flatten, Element.spliced_eq_singleton hreads.isFragment]
    exact hreads.singleton
  | .null, _, _, _, h => by
    cases h
    exact Reads.null.singleton
  | .bool _, _, _, _, h | .number _, _, _, _, h | .string _, _, _, _, h => by
    cases h
    exact (Reads.leaf rfl).singleton

end

/-- **A template that is an object** reads as a tag. -/
theorem reads_of_ofJson {fields : List (String × Json)} (hnormal : (Json.object fields).Normal)
    {element : Element κ} (h : ofJson (.object fields) = .ok element) :
    Reads (.object fields) element := by
  obtain ⟨draft, hdraft, hread⟩ := bind_eq_ok_iff.1 h
  exact (draftedFrom_of_ofFields hnormal.1 hnormal.2 hdraft).reads hread

end Template

end Folio
