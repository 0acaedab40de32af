/-
  The trees that templates express.

  A template has no way to name a component, to tell an unknown tag from one of the vocabulary that
  is written like it, to put a fragment among the children of a tag, or to write a number that is
  not finite.  These are the only limits.

  1. **Static trees** — `Element.IsStatic` says of one part of a tree that none of these limits is
     met, and `Element.CarriesNormal` that its attributes are JSON values as they are read.
  2. **Reading** — all that is read from a template is static, at every depth
     (`throughout_ofJsonAt`, with one lemma for each part of the reader).
  3. **Writing** — `Template.ofElement` writes a tree as a template, which is read as that very tree
     if the tree is static (`ofJsonAt_ofElement`).
-/
import Folio.IoError
import Folio.Template
import Folio.Proofs.Doubles
import Folio.Proofs.Parts

namespace Folio

variable {κ : Type}

/-! ## Static trees -/

namespace Element

/-- The part itself is none that a template cannot express. -/
def IsStatic : Element κ → Prop
  | .empty | .fragment _ => True
  | .leaf scalar => scalar.isFinite = true
  | .tag name _ children =>
    TagName.ofText name.toText = name ∧ ∀ child ∈ children, child.isFragment = false
  | .composite _ _ _ => False

/-- The attributes of the part are JSON values in normal form. -/
def CarriesNormal : Element κ → Prop
  | .tag _ attributes _ | .composite _ attributes _ => attributes.toJson.Normal
  | .empty | .leaf _ | .fragment _ => True

/-- The part can be written in a template. -/
def IsExpressible (part : Element κ) : Prop := part.IsStatic ∧ part.CarriesNormal

end Element

/-- A JSON number is read as an integer or as a finite double. -/
theorem Scalar.isFinite_ofNumber (n : Number) : (ofNumber n).isFinite = true := by
  cases n with
  | int value inRange =>
    rw [ofNumber]
    split
    · rfl
    · exact Double.isFinite_ofInt (by omega)
  | float x finite => exact finite

theorem Scalar.normal_toJson (scalar : Scalar) : scalar.toJson.Normal := by
  cases scalar with
  | float x =>
    rw [toJson]
    split <;> trivial
  | _ => trivial

namespace Template

open Element (Throughout IsStatic CarriesNormal IsExpressible throughout_empty_iff
  throughout_leaf_iff throughout_tag_iff throughout_composite_iff throughout_fragment_iff)

/-! ## Reading -/

/-- What a draft holds can be written in a template. -/
structure Draft.Sound (draft : Draft κ) : Prop where
  attributes : draft.attributes.toJson.Normal
  children : ∀ child ∈ draft.children, child.Throughout IsExpressible

theorem Draft.sound_empty : ({} : Draft κ).Sound :=
  ⟨⟨List.Pairwise.nil, trivial⟩, fun _ h => absurd h List.not_mem_nil⟩

/-- The tag that a draft describes has a name that is written like it, and no fragment among its
    children. -/
theorem Draft.Sound.toElement {draft : Draft κ} (h : draft.Sound) {pointer : Pointer}
    {element : Element κ} (hread : draft.toElement pointer = .ok element) :
    element.Throughout IsExpressible := by
  rw [Draft.toElement] at hread
  cases hname : draft.name with
  | none =>
    rw [hname] at hread
    cases hread
  | some name =>
    rw [hname] at hread
    cases hread
    have hcanonical : TagName.ofText (TagName.ofText name).toText = TagName.ofText name := by
      rw [TagName.toText_ofText]
    exact throughout_tag_iff.2 ⟨⟨⟨hcanonical, fun _ => Element.isFragment_of_mem_flatten⟩,
      h.attributes⟩, Element.throughout_flatten h.children⟩

mutual

/-- **Whatever is read is static**, at every depth: a value, -/
theorem throughout_ofJsonAt : ∀ {value : Json}, value.Normal → ∀ {pointer : Pointer}
    {element : Element κ}, ofJsonAt pointer value = .ok element →
    element.Throughout IsExpressible
  | .null, _, _, _, h => by
    cases h
    exact throughout_empty_iff.2 ⟨trivial, trivial⟩
  | .bool _, _, _, _, h | .string _, _, _, _, h => by
    cases h
    exact throughout_leaf_iff.2 ⟨rfl, trivial⟩
  | .number n, _, _, _, h => by
    cases h
    exact throughout_leaf_iff.2 ⟨Scalar.isFinite_ofNumber n, trivial⟩
  | .array items, hnormal, _, _, h => by
    obtain ⟨elements, helements, hfragment⟩ := bind_eq_ok_iff.1 h
    cases hfragment
    exact throughout_fragment_iff.2 ⟨⟨trivial, trivial⟩, throughout_ofItems hnormal helements⟩
  | .object fields, hnormal, _, _, h => by
    obtain ⟨draft, hdraft, hread⟩ := bind_eq_ok_iff.1 h
    exact (sound_ofFields hnormal.2 Draft.sound_empty hdraft).toElement hread

/-- the items of an array, -/
theorem throughout_ofItems : ∀ {items : List Json}, Json.NormalItems items →
    ∀ {pointer : Pointer} {index : Nat} {elements : List (Element κ)},
    ofItems pointer index items = .ok elements →
    ∀ element ∈ elements, element.Throughout IsExpressible
  | [], _, _, _, _, h => by
    cases h
    exact fun _ hmem => absurd hmem List.not_mem_nil
  | item :: rest, hnormal, _, _, _, h => by
    obtain ⟨element, helement, h⟩ := bind_eq_ok_iff.1 h
    obtain ⟨elements, helements, h⟩ := bind_eq_ok_iff.1 h
    cases h
    exact List.forall_mem_cons.2 ⟨throughout_ofJsonAt hnormal.1 helement,
      throughout_ofItems hnormal.2 helements⟩

/-- the members of an object -/
theorem sound_ofFields : ∀ {fields : List (String × Json)}, Json.NormalFields fields →
    ∀ {pointer : Pointer} {draft result : Draft κ}, draft.Sound →
    ofFields pointer fields draft = .ok result → result.Sound
  | [], _, _, _, _, hdraft, h => by
    cases h
    exact hdraft
  | (key, value) :: rest, hnormal, pointer, draft, result, hdraft, h => by
    have hrest := fun draft (h : ofFields pointer rest draft = .ok result) hdraft =>
      sound_ofFields hnormal.2 hdraft h
    unfold ofFields at h
    by_cases htag : key = "tag"
    · rw [if_pos htag] at h
      cases value with
      | string name => exact hrest _ h ⟨hdraft.attributes, hdraft.children⟩
      | _ => cases h
    rw [if_neg htag] at h
    by_cases hattributes : key = "attributes"
    · rw [if_pos hattributes] at h
      cases value with
      | object inner =>
        have hinner : (Attributes.ofFields inner).toJson.Normal :=
          ⟨keysIncrease_sortFields inner, Json.normalFields_sortFields hnormal.1.2⟩
        exact hrest _ h ⟨hinner, hdraft.children⟩
      | null => exact hrest _ h hdraft
      | _ => cases h
    rw [if_neg hattributes] at h
    by_cases hchildren : key = "children"
    · rw [if_pos hchildren] at h
      obtain ⟨children, hread, h⟩ := bind_eq_ok_iff.1 h
      have hmore := throughout_childrenOf hnormal.1 hread
      exact hrest _ h ⟨hdraft.attributes, List.forall_mem_append.2 ⟨hdraft.children, hmore⟩⟩
    rw [if_neg hchildren] at h
    cases h

/-- and its children. -/
theorem throughout_childrenOf : ∀ {value : Json}, value.Normal → ∀ {pointer : Pointer}
    {elements : List (Element κ)}, childrenOf pointer value = .ok elements →
    ∀ element ∈ elements, element.Throughout IsExpressible
  | .array items, hnormal, _, _, h => throughout_ofItems hnormal h
  | .object fields, hnormal, _, _, h => by
    obtain ⟨draft, hdraft, h⟩ := bind_eq_ok_iff.1 h
    obtain ⟨element, hread, h⟩ := bind_eq_ok_iff.1 h
    cases h
    exact List.forall_mem_singleton.2
      ((sound_ofFields hnormal.2 Draft.sound_empty hdraft).toElement hread)
  | .null, _, _, _, h => by
    cases h
    exact List.forall_mem_singleton.2 (throughout_empty_iff.2 ⟨trivial, trivial⟩)
  | .bool _, _, _, _, h | .string _, _, _, _, h => by
    cases h
    exact List.forall_mem_singleton.2 (throughout_leaf_iff.2 ⟨rfl, trivial⟩)
  | .number n, _, _, _, h => by
    cases h
    exact List.forall_mem_singleton.2
      (throughout_leaf_iff.2 ⟨Scalar.isFinite_ofNumber n, trivial⟩)

end

/-! ## Writing -/

mutual

/-- A template for a tree.  Components have none, and are left out. -/
def ofElement : Element κ → Json
  | .empty => .null
  | .leaf scalar => scalar.toJson
  | .tag name attributes children =>
    .object [("attributes", attributes.toJson), ("children", .array (ofElements children)),
      ("tag", .string name.toText)]
  | .composite _ _ _ => .null
  | .fragment items => .array (ofElements items)

def ofElements : List (Element κ) → List Json
  | [] => []
  | element :: rest => ofElement element :: ofElements rest

end

theorem ofJsonAt_of_ofJson? {value : Json} {scalar : Scalar}
    (h : Scalar.ofJson? value = some scalar) (pointer : Pointer) :
    ofJsonAt pointer value = .ok (.leaf scalar : Element κ) := by
  cases value with
  | bool _ | number _ | string _ =>
    cases h
    rfl
  | null | array _ | object _ => cases h

/-- The members that are written for a tag are read as the tag, once the children are. -/
theorem read_tag {name : TagName} {attributes : Attributes} {children : List (Element κ)}
    {items : List Json} {pointer : Pointer} (hname : TagName.ofText name.toText = name)
    (hchildren : ∀ child ∈ children, child.isFragment = false)
    (h : ofItems (pointer ++ [.children]) 0 items = .ok children) :
    ofJsonAt pointer (.object [("attributes", attributes.toJson), ("children", .array items),
      ("tag", .string name.toText)]) = .ok (.tag name attributes children) := by
  have hfields : ofFields pointer [("attributes", attributes.toJson), ("children", .array items),
      ("tag", .string name.toText)] {} = .ok ⟨some name.toText, attributes, children⟩ := by
    have hattributes : Attributes.ofFields attributes.entries = attributes :=
      Dict.ofList_entries attributes
    simp [ofFields, childrenOf, Attributes.toJson, hattributes, h, bind, Except.bind]
  rw [ofJsonAt, hfields]
  show Except.ok (Element.create (.tag (.ofText name.toText)) attributes children) = _
  rw [hname, Element.create, Element.flatten_eq_self hchildren]

mutual

/-- **A static tree is read back** from its template, -/
theorem ofJsonAt_ofElement : ∀ {element : Element κ}, element.Throughout IsStatic →
    ∀ pointer, ofJsonAt pointer (ofElement element) = .ok element
  | .empty, _, _ => rfl
  | .leaf _, h, pointer =>
    ofJsonAt_of_ofJson? (Scalar.ofJson?_toJson (throughout_leaf_iff.1 h)) pointer
  | .tag name attributes children, h, pointer => by
    obtain ⟨⟨hname, hflat⟩, hchildren⟩ := throughout_tag_iff.1 h
    exact read_tag hname hflat (ofItems_ofElements hchildren (pointer ++ [.children]) 0)
  | .composite _ _ _, h, _ => (throughout_composite_iff.1 h).1.elim
  | .fragment items, h, pointer => by
    rw [ofElement, ofJsonAt, ofItems_ofElements (throughout_fragment_iff.1 h).2 pointer 0]
    rfl

/-- and so are several. -/
theorem ofItems_ofElements : ∀ {elements : List (Element κ)},
    (∀ element ∈ elements, element.Throughout IsStatic) →
    ∀ pointer index, ofItems pointer index (ofElements elements) = .ok elements
  | [], _, _, _ => rfl
  | element :: rest, h, pointer, index => by
    obtain ⟨hfirst, hrest⟩ := List.forall_mem_cons.1 h
    rw [ofElements, ofItems, ofJsonAt_ofElement hfirst,
      ofItems_ofElements hrest pointer (index + 1)]
    rfl

end

mutual

/-- Templates are written in normal form, if the attributes are, -/
theorem normal_ofElement : ∀ {element : Element κ}, element.Throughout CarriesNormal →
    (ofElement element).Normal
  | .empty, _ | .composite _ _ _, _ => trivial
  | .leaf scalar, _ => Scalar.normal_toJson scalar
  | .tag name attributes children, h => by
    obtain ⟨hattributes, hchildren⟩ := throughout_tag_iff.1 h
    have hkeys : (["attributes", "children", "tag"] : List String).Pairwise (· < ·) := by
      decide +kernel
    exact ⟨hkeys, hattributes, normalItems_ofElements hchildren, trivial, trivial⟩
  | .fragment items, h => normalItems_ofElements (throughout_fragment_iff.1 h).2

/-- and so are several. -/
theorem normalItems_ofElements : ∀ {elements : List (Element κ)},
    (∀ element ∈ elements, element.Throughout CarriesNormal) →
    Json.NormalItems (ofElements elements)
  | [], _ => trivial
  | _ :: _, h =>
    have hsplit := List.forall_mem_cons.1 h
    ⟨normal_ofElement hsplit.1, normalItems_ofElements hsplit.2⟩

end

/-- **Templates express exactly the static trees.**  An element is what some template reads as if
    and only if it holds no composite, its tag names are the ones that their own texts name, none of
    its tags has a fragment among the children, and its doubles are finite; all that at every depth.
    (Of its attributes, which are otherwise free, it has to hold what holds of all JSON values that
    are read: that they are in normal form.) -/
theorem exists_template_iff (element : Element κ) :
    (∃ template : Json, template.Normal ∧ ofJson template = .ok element) ↔
      element.Throughout IsStatic ∧ element.Throughout CarriesNormal := by
  constructor
  · rintro ⟨template, hnormal, hread⟩
    have hthroughout := throughout_ofJsonAt hnormal hread
    exact ⟨fun part hpart => (hthroughout part hpart).1,
      fun part hpart => (hthroughout part hpart).2⟩
  · rintro ⟨hstatic, hnormal⟩
    exact ⟨ofElement element, normal_ofElement hnormal, ofJsonAt_ofElement hstatic []⟩

end Template

end Folio
