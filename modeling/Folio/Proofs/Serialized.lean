/-
  What is in a serialized fragment.

  A fragment is written as one object: its body under the key of its kind, and then its attributes.
  Two passes decide which attributes these are.  When a tag is compiled, its primitive takes some of
  them into its body; when the fragment is written, an attribute with the key of the fragment itself
  is left out.  Whatever is not taken or left out in this way is there, as it is, and once.

  1. **The fields** — they are the body, if there is one, and the other attributes
     (`Content.fields_fragment`), no two of them with one key (`Content.nodup_fields`); so a field
     is there exactly when it is the body or an attribute of another name (`Content.mem_fields`).
  2. **Tags** — what is left of the attributes of a tag in its primitive (`primitive?_fragment`).
  3. **From tag to object** — both together, for all that compiles (`compileTag_serialized`).
-/
import Mathlib.Tactic.Choose
import Folio.Compile.Document
import Folio.Proofs.Yields

namespace Folio

/-! ## Optional fields -/

theorem mem_optionalField {key k : String} {value : Json} {field : Option Json} :
    (k, value) ∈ optionalField key field ↔ k = key ∧ field = some value := by
  cases field with
  | none => simp [optionalField]
  | some present =>
    constructor
    · intro h
      cases List.mem_singleton.1 h
      exact ⟨rfl, rfl⟩
    · rintro ⟨rfl, hvalue⟩
      cases hvalue
      exact List.mem_singleton.2 rfl

theorem keys_optionalField_sublist (key : String) (field : Option Json) :
    ((optionalField key field).map Prod.fst).Sublist [key] := by
  cases field with
  | none => exact List.nil_sublist _
  | some present => exact List.Sublist.refl _

theorem Dict.mem_entries {α : Type} {dict : Dict α} {key : String} {value : α} :
    (key, value) ∈ dict.entries ↔ dict.get? key = some value :=
  ⟨lookup_of_mem dict.sorted, mem_of_lookup⟩

theorem Dict.nodup_keys {α : Type} (dict : Dict α) : (dict.entries.map Prod.fst).Nodup :=
  dict.sorted.imp fun hlt => String.ne_of_lt hlt

/-! ## The fields -/

namespace Content

theorem itemsToJson_eq_map (items : List Content) : itemsToJson items = items.map toJson := by
  induction items with
  | nil => rfl
  | cons item rest ih => rw [itemsToJson, List.map_cons, ih]

end Content

/-- A table without its attributes, as JSON. -/
def tableJson (rows : List Content) (headerRows widths : Option Json) : Json :=
  .object (("body", .array (rows.map Content.toJson)) ::
    (optionalField "headerRows" headerRows ++ optionalField "widths" widths))

/-- What is kept under the key of the kind; an image without a source keeps nothing there. -/
def Body.json? : Body Content → Option Json
  | .list _ items => some (.array (items.map Content.toJson))
  | .single only => some only.toJson
  | .runs items => some (.array (items.map Content.toJson))
  | .image source => source
  | .table rows headerRows widths => some (tableJson rows headerRows widths)

namespace Content

theorem bodyFields_eq (body : Body Content) :
    bodyFields body = optionalField body.key body.json? := by
  cases body with
  | image source => rfl
  | single only => rfl
  | list kind items | runs items =>
    rw [bodyFields, itemsToJson_eq_map]
    rfl
  | table rows headerRows widths =>
    rw [bodyFields, itemsToJson_eq_map]
    rfl

/-- The attributes of a fragment that are written: those with another key than its own. -/
def written (body : Body Content) (attributes : Attributes) : List (String × Json) :=
  (attributes.erase body.key).entries

/-- The fields of a fragment: its body under its own key, and then its other attributes. -/
def fields (body : Body Content) (attributes : Attributes) : List (String × Json) :=
  optionalField body.key body.json? ++ written body attributes

/-- **A fragment** is written as the object of its fields. -/
theorem fields_fragment (body : Body Content) (attributes : Attributes) :
    (fragment body attributes).toJson = .object (fields body attributes) := by
  rw [toJson, bodyFields_eq]
  rfl

variable {body : Body Content} {attributes : Attributes}

theorem mem_written {key : String} {value : Json} :
    (key, value) ∈ written body attributes ↔
      key ≠ body.key ∧ attributes.get? key = some value := by
  rw [written, Dict.mem_entries, Dict.get?_erase]
  split
  · rename_i hkey
    simp [← hkey]
  · rename_i hkey
    simp [Ne.symm hkey]

/-- **What is written**: the body under the key of the fragment, and every attribute with another
    key under its own. -/
theorem mem_fields {key : String} {value : Json} :
    (key, value) ∈ fields body attributes ↔
      (key = body.key ∧ body.json? = some value) ∨
      (key ≠ body.key ∧ attributes.get? key = some value) := by
  rw [fields, List.mem_append, mem_optionalField, mem_written]

/-- **No key twice**, whatever the attributes are called. -/
theorem nodup_fields (body : Body Content) (attributes : Attributes) :
    ((fields body attributes).map Prod.fst).Nodup := by
  rw [fields, List.map_append, List.nodup_append]
  refine ⟨?_, Dict.nodup_keys _, ?_⟩
  · exact (List.pairwise_singleton _ _).sublist (keys_optionalField_sublist body.key body.json?)
  · intro own hown other hother heq
    obtain rfl : own = body.key :=
      List.mem_singleton.1 ((keys_optionalField_sublist body.key body.json?).subset hown)
    obtain ⟨⟨key, value⟩, hfield, rfl⟩ := List.mem_map.1 hother
    exact (mem_written.1 hfield).1 heq.symm

end Content

/-! ## Tags -/

namespace TagName

/-- The key under which the primitive of a tag keeps its body. -/
def kind : TagName → String
  | text => "text"
  | columns => "columns"
  | image => "image"
  | table => "table"
  | ul => "ul"
  | ol => "ol"
  | _ => "stack"

/-- The attributes of a tag that its primitive takes into its body, or makes it of. -/
def claimed : TagName → List String
  | image => ["src"]
  | table => ["headerRows", "widths"]
  | _ => []

/-- The body of a tag with compiled children, as JSON.  An image has its source for a body, which
    may be absent, and a text with one child has the child itself. -/
def body? (name : TagName) (attributes : Attributes) (children : List Content) : Option Json :=
  match name, children with
  | image, _ => attributes.get? "src"
  | table, _ =>
    some (tableJson children (attributes.get? "headerRows") (attributes.get? "widths"))
  | text, [only] => some only.toJson
  | _, _ => some (.array (children.map Content.toJson))

end TagName

/-- The primitive keeps the body of the tag under the kind of the tag, and all attributes but the
    ones that are claimed. -/
theorem primitive?_fragment {name : TagName} (hknown : name.isKnown = true)
    (hdocument : name ≠ .document) (hrow : name ≠ .row) (attributes : Attributes)
    (children : List Content) :
    ∃ body others, primitive? name attributes children = some (.fragment body others) ∧
      body.key = name.kind ∧ body.json? = name.body? attributes children ∧
      ∀ key value, others.get? key = some value ↔
        key ∉ name.claimed ∧ attributes.get? key = some value := by
  have hall : ∀ key value, attributes.get? key = some value ↔
      key ∉ [] ∧ attributes.get? key = some value := by
    intro key value
    exact ⟨fun h => ⟨List.not_mem_nil, h⟩, And.right⟩
  cases name with
  | unknown name => cases hknown
  | document => exact absurd rfl hdocument
  | row => exact absurd rfl hrow
  | header | content | footer | stack | group | column | cell | columns | ul | ol =>
    exact ⟨_, attributes, rfl, rfl, rfl, hall⟩
  | text =>
    refine ⟨.ofRuns children, attributes, rfl, ?_, ?_, hall⟩
    · unfold Body.ofRuns
      split <;> rfl
    · match children with
      | [] | [_] | _ :: _ :: _ => rfl
  | image =>
    refine ⟨_, _, rfl, rfl, rfl, fun key value => ?_⟩
    rw [Dict.get?_erase]
    by_cases hkey : "src" = key
    · simp [TagName.claimed, ← hkey]
    · simp [TagName.claimed, hkey, Ne.symm hkey]
  | table =>
    refine ⟨_, _, rfl, rfl, rfl, fun key value => ?_⟩
    rw [Dict.get?_erase, Dict.get?_erase]
    by_cases hwidths : "widths" = key
    · simp [TagName.claimed, ← hwidths]
    · by_cases hheader : "headerRows" = key
      · simp [TagName.claimed, ← hheader]
      · simp [TagName.claimed, hwidths, hheader, Ne.symm hwidths, Ne.symm hheader]

/-! ## From tag to object -/

section Compiler

variable {κ : Type} {m : Type → Type} [Monad m] [LawfulMonad m] [Journal m]

/-- A tag that may not stay where it stands has no content. -/
theorem yields_none_of_placement {pieces : Element κ → ExceptT CompileError m (List Piece)}
    {options : Options} {top : Bool} {tag : Tag κ}
    (h : placement options top tag.head ≠ .keep) :
    Yields (· = none) (compileTagWith pieces options top tag) := by
  unfold compileTagWith
  cases hplacement : placement options top tag.head with
  | reject error => exact .throw error
  | drop name => exact .after fun _ => .pure rfl
  | keep => exact absurd hplacement h

/-- A tag that stays is its primitive, made of its compiled children. -/
theorem compileTag_of_keep (library : Library κ m) {options : Options} (context : Context)
    {top : Bool} {tag : Tag κ} (h : placement options top tag.head = .keep) :
    compileTag library options context top tag =
      primitive? tag.head tag.attributes <$>
        compileChildren library options (Element.heightAll tag.children + library.reach) context
          tag.children := by
  unfold compileTag compileTagWithin compileTagWith
  rw [h, compileChildren, ← comp_map, ← bind_pure_comp]
  rfl

/-- **Attributes are conserved.**  A tag, other than a row, that stays where it stands compiles to
    what is made of its compiled children, and this is written as an object: the body of the tag is
    under the kind of the tag, if it has a body, and every attribute is there, as it is, unless its
    key is the kind of the tag or is claimed for the body; no key is there twice, and nothing else
    is there.  A tag that may not stay compiles to nothing. -/
theorem compileTag_serialized (library : Library κ m) (options : Options) (context : Context)
    (top : Bool) (tag : Tag κ) (hrow : tag.head ≠ .row) :
    (placement options top tag.head ≠ .keep →
      Yields (· = none) (compileTag library options context top tag)) ∧
    (placement options top tag.head = .keep →
      ∃ make : List Content → Content,
        compileTag library options context top tag =
          (fun children => some (make children)) <$>
            compileChildren library options (Element.heightAll tag.children + library.reach) context
              tag.children ∧
        ∀ children, ∃ fields,
          (make children).toJson = .object fields ∧ (fields.map Prod.fst).Nodup ∧
          ∀ key value, (key, value) ∈ fields ↔
            (key = tag.head.kind ∧ tag.head.body? tag.attributes children = some value) ∨
            (key ≠ tag.head.kind ∧ key ∉ tag.head.claimed ∧
              tag.attributes.get? key = some value)) := by
  refine ⟨yields_none_of_placement, fun hkeep => ?_⟩
  have hknown := isKnown_of_keep hkeep
  have hdocument : tag.head ≠ .document := by
    intro hhead
    rw [hhead] at hkeep
    cases hkeep
  have hprimitive := primitive?_fragment hknown hdocument hrow tag.attributes
  choose body others hmade hkind hbody hothers using hprimitive
  refine ⟨fun children => .fragment (body children) (others children), ?_, fun children => ?_⟩
  · rw [compileTag_of_keep library context hkeep, funext hmade]
  · refine ⟨_, Content.fields_fragment .., Content.nodup_fields .., fun key value => ?_⟩
    rw [Content.mem_fields, hkind, hbody, hothers]

end Compiler

/-- A table whose attributes have the names of its own key, of claimed keys and of other keys. -/
def crowdedTable : Tag Empty where
  head := .table
  attributes := .ofList
    [("table", .string "shadowed"), ("widths", .null), ("src", .null), ("body", .bool true)]
  children := []

/-- The crowded table keeps the two attributes that are not claimed and do not have its key. -/
theorem compileTag_serialized_crowdedTable :
    crowdedTable.head ≠ .row ∧ placement .standard false crowdedTable.head = .keep ∧
    ∃ content fields,
      compileTag (Library.none : Library Empty Id) .standard ∅ false crowdedTable =
        pure (some content) ∧
      content.toJson = .object fields ∧ (fields.map Prod.fst).Nodup ∧
      ∀ key value, (key, value) ∈ fields ↔
        (key = "table" ∧ some (tableJson [] none (some .null)) = some value) ∨
        (key ≠ "table" ∧ key ∉ ["headerRows", "widths"] ∧
          crowdedTable.attributes.get? key = some value) := by
  have hrow : crowdedTable.head ≠ .row := by decide
  have hkeep : placement .standard false crowdedTable.head = .keep := by decide
  obtain ⟨make, hmake, hfields⟩ :=
    (compileTag_serialized (Library.none : Library Empty Id) .standard ∅ false crowdedTable hrow).2
      hkeep
  obtain ⟨fields, hobject, hnodup, hmem⟩ := hfields []
  exact ⟨hrow, hkeep, make [], fields, hmake, hobject, hnodup, hmem⟩

end Folio
