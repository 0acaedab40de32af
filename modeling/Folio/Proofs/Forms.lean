/-
  The three forms of a definition.

  A definition is written as compact text, as indented text, or built as a value whose fields are
  sorted.  The first two keep the fields in the order in which they are written and would keep a key
  that is written twice; the third one would keep its last value only.  No key is ever written
  twice, at any depth, so the three are the same but for the order of fields.

  1. **Sorting** — with distinct keys, sorting rearranges the fields and does nothing else
     (`perm_sortFields`, `Json.reordered_normalize`).
  2. **Optional fields** — a field that may be absent is there exactly if it is present
     (`lookup_optionalFields`), be it null.
  3. **Distinct keys** — whatever the attributes are called, at any depth
     (`Content.CarriesNormal.distinctKeys`, `Definition.CarriesNormal.distinctKeys`).
  4. **Fragments** — the body first and then the attributes, in byte order
     (`Content.writtenInOrder`), without what is absent (`Content.writesPresent`).
  5. **Definitions** — the three forms agree (`Definition.forms_agree`).
-/
import Folio.Proofs.ByteOrder
import Folio.Proofs.JsonText
import Folio.Proofs.NormalForm
import Folio.Proofs.Serialized

namespace Folio

/-! ## Sorting -/

theorem perm_insertSorted {α : Type} {key : String} {value : α} {fields : List (String × α)}
    (hkey : key ∉ fields.map Prod.fst) :
    (insertSorted key value fields).Perm ((key, value) :: fields) := by
  induction fields with
  | nil => exact .refl _
  | cons head rest ih =>
    obtain ⟨k, v⟩ := head
    rw [List.map_cons, List.mem_cons, not_or] at hkey
    unfold insertSorted
    split
    · exact .refl _
    · rw [if_neg hkey.1]
      exact ((ih hkey.2).cons _).trans (.swap _ _ _)

/-- **Sorting rearranges** fields with distinct keys. -/
theorem perm_sortFields {α : Type} {fields : List (String × α)}
    (hkeys : (fields.map Prod.fst).Nodup) : (sortFields fields).Perm fields := by
  suffices ∀ sorted : List (String × α), ((sorted ++ fields).map Prod.fst).Nodup →
      (fields.foldl (fun sorted field => insertSorted field.1 field.2 sorted) sorted).Perm
        (sorted ++ fields) from this [] hkeys
  clear hkeys
  induction fields with
  | nil =>
    intro sorted _
    rw [List.append_nil]
    exact .refl _
  | cons head rest ih =>
    intro sorted hkeys
    obtain ⟨key, value⟩ := head
    have hmiddle : (sorted ++ (key, value) :: rest).Perm ((key, value) :: sorted ++ rest) :=
      List.perm_middle
    have hfront := (hmiddle.map Prod.fst).nodup_iff.1 hkeys
    have hnew : key ∉ sorted.map Prod.fst := by
      rw [List.cons_append, List.map_cons, List.nodup_cons, List.map_append] at hfront
      exact fun hmem => hfront.1 (List.mem_append_left _ hmem)
    have hinsert : (insertSorted key value sorted ++ rest).Perm ((key, value) :: sorted ++ rest) :=
      (perm_insertSorted hnew).append_right rest
    have hrest := ih (insertSorted key value sorted) ((hinsert.map Prod.fst).nodup_iff.2 hfront)
    exact hrest.trans (hinsert.trans hmiddle.symm)

namespace Json

mutual

/-- No object in the value has two fields with one key. -/
def DistinctKeys : Json → Prop
  | .array items => DistinctItems items
  | .object fields => (fields.map Prod.fst).Nodup ∧ DistinctFields fields
  | _ => True

def DistinctItems : List Json → Prop
  | [] => True
  | item :: rest => DistinctKeys item ∧ DistinctItems rest

def DistinctFields : List (String × Json) → Prop
  | [] => True
  | (_, value) :: rest => DistinctKeys value ∧ DistinctFields rest

end

mutual

/-- The values are the same but for the order of fields in objects, at any depth. -/
inductive Reordered : Json → Json → Prop
  | null : Reordered .null .null
  | bool (b : Bool) : Reordered (.bool b) (.bool b)
  | number (n : Number) : Reordered (.number n) (.number n)
  | string (s : String) : Reordered (.string s) (.string s)
  | array {items items' : List Json} :
    ReorderedItems items items' → Reordered (.array items) (.array items')
  | object {fields same fields' : List (String × Json)} :
    ReorderedFields fields same → same.Perm fields' → Reordered (.object fields) (.object fields')

inductive ReorderedItems : List Json → List Json → Prop
  | nil : ReorderedItems [] []
  | cons {item item' : Json} {items items' : List Json} :
    Reordered item item' → ReorderedItems items items' →
      ReorderedItems (item :: items) (item' :: items')

inductive ReorderedFields : List (String × Json) → List (String × Json) → Prop
  | nil : ReorderedFields [] []
  | cons {key : String} {value value' : Json} {fields fields' : List (String × Json)} :
    Reordered value value' → ReorderedFields fields fields' →
      ReorderedFields ((key, value) :: fields) ((key, value') :: fields')

end

theorem distinctItems_iff {items : List Json} :
    DistinctItems items ↔ ∀ item ∈ items, item.DistinctKeys := by
  induction items with
  | nil => exact ⟨fun _ _ hitem => absurd hitem List.not_mem_nil, fun _ => trivial⟩
  | cons item rest ih => rw [DistinctItems, ih, List.forall_mem_cons]

theorem distinctFields_iff {fields : List (String × Json)} :
    DistinctFields fields ↔ ∀ field ∈ fields, field.2.DistinctKeys := by
  induction fields with
  | nil => exact ⟨fun _ _ hfield => absurd hfield List.not_mem_nil, fun _ => trivial⟩
  | cons field rest ih => rw [DistinctFields, ih, List.forall_mem_cons]

mutual

/-- Values in normal form have distinct keys. -/
theorem Normal.distinctKeys : ∀ {value : Json}, value.Normal → value.DistinctKeys
  | .null, _ | .bool _, _ | .number _, _ | .string _, _ => trivial
  | .array items, h => distinctItems_of_normalItems items h
  | .object fields, h =>
    ⟨h.1.imp fun hlt => String.ne_of_lt hlt, distinctFields_of_normalFields fields h.2⟩

theorem distinctItems_of_normalItems : ∀ items : List Json, NormalItems items → DistinctItems items
  | [], _ => trivial
  | _ :: rest, h => ⟨Normal.distinctKeys h.1, distinctItems_of_normalItems rest h.2⟩

theorem distinctFields_of_normalFields :
    ∀ fields : List (String × Json), NormalFields fields → DistinctFields fields
  | [], _ => trivial
  | (_, _) :: rest, h => ⟨Normal.distinctKeys h.1, distinctFields_of_normalFields rest h.2⟩

end

theorem keys_normalizeFields (fields : List (String × Json)) :
    (normalizeFields fields).map Prod.fst = fields.map Prod.fst := by
  induction fields with
  | nil => rfl
  | cons field rest ih => rw [normalizeFields, List.map_cons, List.map_cons, ih]

mutual

/-- **Without repeated keys, normalizing only reorders.** -/
theorem reordered_normalize : ∀ value : Json, value.DistinctKeys → value.Reordered value.normalize
  | .null, _ => .null
  | .bool b, _ => .bool b
  | .number n, _ => .number n
  | .string s, _ => .string s
  | .array items, h => by
    rw [normalize]
    exact .array (reordered_normalizeItems items h)
  | .object fields, h => by
    have hkeys : ((normalizeFields fields).map Prod.fst).Nodup := by
      rw [keys_normalizeFields]
      exact h.1
    rw [normalize]
    exact .object (reordered_normalizeFields fields h.2) (perm_sortFields hkeys).symm

theorem reordered_normalizeItems :
    ∀ items : List Json, DistinctItems items → ReorderedItems items (normalizeItems items)
  | [], _ => .nil
  | item :: rest, h => .cons (reordered_normalize item h.1) (reordered_normalizeItems rest h.2)

theorem reordered_normalizeFields : ∀ fields : List (String × Json), DistinctFields fields →
    ReorderedFields fields (normalizeFields fields)
  | [], _ => .nil
  | (_, value) :: rest, h =>
    .cons (reordered_normalize value h.1) (reordered_normalizeFields rest h.2)

end

/-- The values that stand somewhere in a value. -/
inductive Part (whole : Json) : Json → Prop
  | whole : Part whole whole
  | item {items : List Json} {item : Json} :
    Part whole (.array items) → item ∈ items → Part whole item
  | field {fields : List (String × Json)} {key : String} {value : Json} :
    Part whole (.object fields) → (key, value) ∈ fields → Part whole value

end Json

/-! ## Optional fields -/

/-- The fields that are present. -/
def optionalFields (fields : List (String × Option Json)) : List (String × Json) :=
  fields.flatMap fun field => optionalField field.1 field.2

theorem keys_optionalFields_sublist (fields : List (String × Option Json)) :
    ((optionalFields fields).map Prod.fst).Sublist (fields.map Prod.fst) := by
  induction fields with
  | nil => exact .refl _
  | cons field rest ih =>
    rw [optionalFields, List.flatMap_cons, List.map_append, List.map_cons]
    exact (keys_optionalField_sublist field.1 field.2).append ih

theorem mem_optionalFields {key : String} {value : Json} {fields : List (String × Option Json)} :
    (key, value) ∈ optionalFields fields ↔ (key, some value) ∈ fields := by
  rw [optionalFields, List.mem_flatMap]
  constructor
  · rintro ⟨⟨k, field⟩, hfield, hvalue⟩
    obtain ⟨rfl, rfl⟩ := mem_optionalField.1 hvalue
    exact hfield
  · intro hfield
    exact ⟨_, hfield, mem_optionalField.2 ⟨rfl, rfl⟩⟩

/-- **An optional field is there exactly if it is present**, with its value, be that null. -/
theorem lookup_optionalFields {fields : List (String × Option Json)} {key : String}
    {field : Option Json} (hkeys : (fields.map Prod.fst).Nodup) (h : (key, field) ∈ fields) :
    lookup key (optionalFields fields) = field := by
  have hnodup := hkeys.sublist (keys_optionalFields_sublist fields)
  cases field with
  | some value => exact lookup_of_mem_of_nodup hnodup (mem_optionalFields.2 h)
  | none =>
    rw [Option.eq_none_iff_forall_ne_some]
    intro value hvalue
    have hother := mem_optionalFields.1 (mem_of_lookup hvalue)
    have hsame := (lookup_of_mem_of_nodup hkeys h).symm.trans (lookup_of_mem_of_nodup hkeys hother)
    cases hsame

/-- The fields of the metadata, each of which may be absent. -/
def DocumentInfo.fields (info : DocumentInfo) : List (String × Option Json) :=
  [("title", info.title), ("author", info.author), ("subject", info.subject),
    ("keywords", info.keywords)]

/-- The fields of a definition, each of which may be absent. -/
def Definition.fields (definition : Definition) : List (String × Option Json) :=
  [("content", definition.content.map Content.toJson),
    ("header", definition.header.map Content.toJson),
    ("footer", definition.footer.map Content.toJson), ("pageSize", definition.pageSize),
    ("pageMargins", definition.pageMargins), ("info", definition.info.map DocumentInfo.toJson),
    ("defaultStyle", definition.defaultStyle)]

/-- The fields of a table, of which all but the first may be absent. -/
def tableFields (rows : List Content) (headerRows widths : Option Json) :
    List (String × Option Json) :=
  [("body", some (.array (rows.map Content.toJson))), ("headerRows", headerRows),
    ("widths", widths)]

theorem DocumentInfo.toJson_eq (info : DocumentInfo) :
    info.toJson = .object (optionalFields info.fields) := by
  simp [DocumentInfo.toJson, optionalFields, fields]

theorem Definition.toJson_eq (definition : Definition) :
    definition.toJson = .object (optionalFields definition.fields) := by
  simp [Definition.toJson, optionalFields, fields]

theorem tableJson_eq (rows : List Content) (headerRows widths : Option Json) :
    tableJson rows headerRows widths =
      .object (optionalFields (tableFields rows headerRows widths)) := by
  simp [tableJson, optionalFields, optionalField, tableFields]

theorem DocumentInfo.nodup_fields (info : DocumentInfo) : (info.fields.map Prod.fst).Nodup := by
  show ["title", "author", "subject", "keywords"].Nodup
  decide

theorem Definition.nodup_fields (definition : Definition) :
    (definition.fields.map Prod.fst).Nodup := by
  show ["content", "header", "footer", "pageSize", "pageMargins", "info", "defaultStyle"].Nodup
  decide

theorem nodup_tableFields (rows : List Content) (headerRows widths : Option Json) :
    ((tableFields rows headerRows widths).map Prod.fst).Nodup := by
  show ["body", "headerRows", "widths"].Nodup
  decide

/-! ## Distinct keys -/

/-- The JSON values that a body takes over from attributes. -/
def Body.carried {α : Type} : Body α → List Json
  | .image source => source.toList
  | .table _ headerRows widths => headerRows.toList ++ widths.toList
  | _ => []

namespace Content

/-- The JSON values that an entry carries itself. -/
def carried : Content → List Json
  | .fragment body attributes => body.carried ++ attributes.entries.map Prod.snd
  | _ => []

/-- Whatever an entry carries, at any depth, is in normal form; which is all that the values of
    attributes can be. -/
inductive CarriesNormal : Content → Prop
  | intro {content : Content} : (∀ value ∈ content.carried, value.Normal) →
    (∀ entry ∈ content.entries, CarriesNormal entry) → CarriesNormal content

/-- The entries that stand somewhere in an entry. -/
inductive Within (whole : Content) : Content → Prop
  | whole : Within whole whole
  | entry {content entry : Content} :
    Within whole content → entry ∈ content.entries → Within whole entry

end Content

namespace Json

/-- Optional fields that are distinct, and whose values have distinct keys. -/
theorem distinctKeys_optionalFields {fields : List (String × Option Json)}
    (hkeys : (fields.map Prod.fst).Nodup)
    (hvalues : ∀ key value, (key, some value) ∈ fields → value.DistinctKeys) :
    (Json.object (optionalFields fields)).DistinctKeys := by
  refine ⟨hkeys.sublist (keys_optionalFields_sublist fields), distinctFields_iff.2 ?_⟩
  rintro ⟨key, value⟩ hfield
  exact hvalues key value (mem_optionalFields.1 hfield)

theorem distinctKeys_array {contents : List Content}
    (h : ∀ content ∈ contents, content.toJson.DistinctKeys) :
    (Json.array (contents.map Content.toJson)).DistinctKeys := by
  refine distinctItems_iff.2 fun item hitem => ?_
  obtain ⟨content, hcontent, rfl⟩ := List.mem_map.1 hitem
  exact h content hcontent

end Json

/-- A body has distinct keys if its entries and what it carries have. -/
theorem Body.distinctKeys_json? {body : Body Content} {value : Json}
    (hvalue : body.json? = some value)
    (hcarried : ∀ value ∈ body.carried, value.DistinctKeys)
    (hentries : ∀ entry ∈ body.entries, entry.toJson.DistinctKeys) : value.DistinctKeys := by
  cases body with
  | single only =>
    cases hvalue
    exact hentries only List.mem_cons_self
  | list kind items | runs items =>
    cases hvalue
    exact Json.distinctKeys_array hentries
  | image source =>
    have hsource : source = some value := hvalue
    exact hcarried value (by rw [carried, hsource]; exact List.mem_cons_self)
  | table rows headerRows widths =>
    cases hvalue
    rw [tableJson_eq]
    refine Json.distinctKeys_optionalFields (nodup_tableFields ..) fun key value hfield => ?_
    rcases List.mem_cons.1 hfield with heq | hfield
    · cases heq
      exact Json.distinctKeys_array hentries
    rcases List.mem_cons.1 hfield with heq | hfield
    · cases heq
      exact hcarried value (List.mem_append_left _ List.mem_cons_self)
    · cases List.mem_singleton.1 hfield
      exact hcarried value (List.mem_append_right _ List.mem_cons_self)

/-- **No key twice, at any depth**, whatever the attributes are called. -/
theorem Content.CarriesNormal.distinctKeys {content : Content} (h : content.CarriesNormal) :
    content.toJson.DistinctKeys := by
  induction h with
  | @intro content hcarried _ ih =>
    cases content with
    | text value => cases value <;> trivial
    | row cells =>
      rw [toJson, itemsToJson_eq_map]
      exact Json.distinctKeys_array ih
    | fragment body attributes =>
      rw [fields_fragment]
      refine ⟨nodup_fields body attributes, Json.distinctFields_iff.2 ?_⟩
      rintro ⟨key, value⟩ hfield
      rcases mem_fields.1 hfield with ⟨-, hvalue⟩ | ⟨-, hvalue⟩
      · refine Body.distinctKeys_json? hvalue (fun other hother => ?_) ih
        exact (hcarried other (List.mem_append_left _ hother)).distinctKeys
      · have hmem : value ∈ attributes.entries.map Prod.snd :=
          List.mem_map_of_mem (mem_of_lookup hvalue)
        exact (hcarried value (List.mem_append_right _ hmem)).distinctKeys

/-! ## Definitions -/

namespace Content

/-- What stands in an entry is written somewhere in what is written for the entry. -/
theorem part_toJson {content entry : Content} (hentry : entry ∈ content.entries) {whole : Json}
    (h : whole.Part content.toJson) : whole.Part entry.toJson := by
  cases content with
  | text value => cases hentry
  | row cells =>
    rw [toJson, itemsToJson_eq_map] at h
    exact h.item (List.mem_map_of_mem hentry)
  | fragment body attributes =>
    rw [fields_fragment] at h
    have hbody : ∀ {value : Json}, body.json? = some value → whole.Part value :=
      fun hvalue => h.field (mem_fields.2 (.inl ⟨rfl, hvalue⟩))
    cases body with
    | image source => cases hentry
    | single only =>
      obtain rfl := List.mem_singleton.1 hentry
      exact hbody rfl
    | list kind items | runs items => exact (hbody rfl).item (List.mem_map_of_mem hentry)
    | table rows headerRows widths =>
      have hrows : whole.Part (.array (rows.map toJson)) := (hbody rfl).field List.mem_cons_self
      exact hrows.item (List.mem_map_of_mem hentry)

theorem Within.part_toJson {content entry : Content} (h : content.Within entry) {whole : Json}
    (hwhole : whole.Part content.toJson) : whole.Part entry.toJson := by
  induction h with
  | whole => exact hwhole
  | entry _ hentry ih => exact Content.part_toJson hentry ih

end Content

namespace Definition

/-- An entry that stands somewhere in a section. -/
def Holds (definition : Definition) (entry : Content) : Prop :=
  ∃ slot whole, definition.section? slot = some whole ∧ whole.Within entry

/-- Whatever a definition carries, at any depth, is in normal form. -/
structure CarriesNormal (definition : Definition) : Prop where
  sections : ∀ slot whole, definition.section? slot = some whole → whole.CarriesNormal
  pageSize : ∀ value ∈ definition.pageSize, value.Normal
  pageMargins : ∀ value ∈ definition.pageMargins, value.Normal
  defaultStyle : ∀ value ∈ definition.defaultStyle, value.Normal
  info : ∀ info ∈ definition.info, ∀ key value, (key, some value) ∈ info.fields → value.Normal

variable {definition : Definition}

/-- A section is written under the name of its slot. -/
theorem section_mem_fields (definition : Definition) (slot : Slot) :
    (slot.toText, (definition.section? slot).map Content.toJson) ∈ definition.fields := by
  cases slot <;> simp [fields, Slot.toText, section?]

/-- Every entry is written somewhere in what is written for the definition. -/
theorem Holds.part_toJson {entry : Content} (h : definition.Holds entry) :
    definition.toJson.Part entry.toJson := by
  obtain ⟨slot, whole, hwhole, hwithin⟩ := h
  have hfield := section_mem_fields definition slot
  rw [hwhole, Option.map_some] at hfield
  refine hwithin.part_toJson (.field ?_ (mem_optionalFields.2 hfield))
  rw [← toJson_eq]
  exact .whole

/-- **No object in a definition has a repeated key.** -/
theorem CarriesNormal.distinctKeys (h : definition.CarriesNormal) :
    definition.toJson.DistinctKeys := by
  have hsection : ∀ slot value, (definition.section? slot).map Content.toJson = some value →
      value.DistinctKeys := by
    intro slot value hvalue
    obtain ⟨whole, hwhole, rfl⟩ := Option.map_eq_some_iff.1 hvalue
    exact (h.sections slot whole hwhole).distinctKeys
  have hinfo : ∀ value, definition.info.map DocumentInfo.toJson = some value →
      value.DistinctKeys := by
    intro value hvalue
    obtain ⟨info, hpresent, rfl⟩ := Option.map_eq_some_iff.1 hvalue
    rw [DocumentInfo.toJson_eq]
    exact Json.distinctKeys_optionalFields info.nodup_fields
      fun key value hfield => (h.info info hpresent key value hfield).distinctKeys
  rw [toJson_eq]
  refine Json.distinctKeys_optionalFields definition.nodup_fields fun key value hfield => ?_
  simp only [fields, List.mem_cons, Prod.mk.injEq, List.not_mem_nil, or_false] at hfield
  rcases hfield with ⟨-, hvalue⟩ | ⟨-, hvalue⟩ | ⟨-, hvalue⟩ | ⟨-, hvalue⟩ | ⟨-, hvalue⟩ |
    ⟨-, hvalue⟩ | ⟨-, hvalue⟩
  · exact hsection .content value hvalue.symm
  · exact hsection .header value hvalue.symm
  · exact hsection .footer value hvalue.symm
  · exact (h.pageSize value hvalue.symm).distinctKeys
  · exact (h.pageMargins value hvalue.symm).distinctKeys
  · exact hinfo value hvalue.symm
  · exact (h.defaultStyle value hvalue.symm).distinctKeys

/-- A field of a definition is found under its key, if it is present. -/
theorem get?_toJson {key : String} {field : Option Json} (h : (key, field) ∈ definition.fields) :
    definition.toJson.get? key = field := by
  rw [toJson_eq]
  exact lookup_optionalFields definition.nodup_fields h

end Definition

/-! ## Fragments -/

namespace Content

variable {body : Body Content} {attributes : Attributes}

/-- How a fragment is written: first its body, under the key of its kind, unless it is an image
    without a source; then its attributes in the byte order of their names, but for one that has
    the name of the kind. -/
structure WrittenInOrder (body : Body Content) (attributes : Attributes) : Prop where
  sourceless : body.json? = none ↔ body = .image none
  fields : ∃ others, (fragment body attributes).toJson =
      .object (optionalField body.key body.json? ++ others) ∧
    (others.map Prod.fst).Pairwise (fun key later => bytes key < bytes later) ∧
    ∀ key value, (key, value) ∈ others ↔ key ≠ body.key ∧ attributes.get? key = some value

theorem writtenInOrder (body : Body Content) (attributes : Attributes) :
    WrittenInOrder body attributes := by
  constructor
  · cases body with
    | image source =>
      show source = none ↔ _
      constructor
      · rintro rfl
        rfl
      · intro heq
        cases heq
        rfl
    | _ => exact ⟨fun heq => (by cases heq), fun heq => (by cases heq)⟩
  · have hsorted := (attributes.erase body.key).sorted
    exact ⟨written body attributes, fields_fragment body attributes, hsorted.imp bytes_lt_iff.2,
      fun key value => mem_written⟩

/-- What a fragment may have or not is there exactly if it is present: the source of an image, and
    the number of header rows and the widths of a table. -/
structure WritesPresent (body : Body Content) (attributes : Attributes) : Prop where
  image : ∀ source, body = .image source →
    (fragment body attributes).toJson.get? "image" = source
  table : ∀ rows headerRows widths, body = .table rows headerRows widths → ∃ table,
    (fragment body attributes).toJson.get? "table" = some table ∧
    table.get? "headerRows" = headerRows ∧ table.get? "widths" = widths

/-- The body of a fragment is found under the key of the fragment. -/
theorem get?_key (body : Body Content) (attributes : Attributes) :
    (fragment body attributes).toJson.get? body.key = body.json? := by
  rw [fields_fragment]
  ext value
  constructor
  · intro hvalue
    rcases mem_fields.1 (mem_of_lookup hvalue) with ⟨-, hbody⟩ | ⟨hne, -⟩
    · exact hbody
    · exact absurd rfl hne
  · intro hvalue
    exact lookup_of_mem_of_nodup (nodup_fields body attributes) (mem_fields.2 (.inl ⟨rfl, hvalue⟩))

theorem writesPresent (body : Body Content) (attributes : Attributes) :
    WritesPresent body attributes := by
  constructor
  · rintro source rfl
    exact get?_key (.image source) attributes
  · rintro rows headerRows widths rfl
    refine ⟨_, get?_key (.table rows headerRows widths) attributes, ?_⟩
    rw [tableJson_eq]
    have hnodup := nodup_tableFields rows headerRows widths
    exact ⟨lookup_optionalFields hnodup (by simp [tableFields]),
      lookup_optionalFields hnodup (by simp [tableFields])⟩

end Content

/-! ## The three forms -/

/-- A field of the metadata is there exactly if it is present. -/
structure DocumentInfo.WritesPresent (info : DocumentInfo) : Prop where
  title : info.toJson.get? "title" = info.title
  author : info.toJson.get? "author" = info.author
  subject : info.toJson.get? "subject" = info.subject
  keywords : info.toJson.get? "keywords" = info.keywords

theorem DocumentInfo.writesPresent (info : DocumentInfo) : info.WritesPresent := by
  have hget : ∀ {key field}, (key, field) ∈ info.fields → info.toJson.get? key = field := by
    intro key field hfield
    rw [toJson_eq]
    exact lookup_optionalFields info.nodup_fields hfield
  constructor <;> exact hget (by simp [fields])

namespace Definition

/-- A section, a page setting, the metadata or the default style is there exactly if it is
    present. -/
structure WritesPresent (definition : Definition) : Prop where
  sections : ∀ slot : Slot,
    definition.toJson.get? slot.toText = (definition.section? slot).map Content.toJson
  pageSize : definition.toJson.get? "pageSize" = definition.pageSize
  pageMargins : definition.toJson.get? "pageMargins" = definition.pageMargins
  info : definition.toJson.get? "info" = definition.info.map DocumentInfo.toJson
  defaultStyle : definition.toJson.get? "defaultStyle" = definition.defaultStyle

theorem writesPresent (definition : Definition) : definition.WritesPresent where
  sections slot := get?_toJson (section_mem_fields definition slot)
  pageSize := get?_toJson (by simp [fields])
  pageMargins := get?_toJson (by simp [fields])
  info := get?_toJson (by simp [fields])
  defaultStyle := get?_toJson (by simp [fields])

/-- **The three forms of a definition agree.**  Both texts are read back as one value, in which no
    object has a repeated key, and which is the value that is built but for the order of fields.
    Every fragment in the definition is written somewhere in it, body first and then attributes in
    order; and what may be absent is there exactly if it is present, be it null. -/
theorem forms_agree (definition : Definition) (h : definition.CarriesNormal) :
    (∀ layout, Json.read? (definition.toJson.text layout) = some definition.toJson) ∧
    definition.toJson.DistinctKeys ∧
    definition.toJson.Reordered definition.toValue ∧ definition.toValue.Normal ∧
    (∀ body attributes, definition.Holds (.fragment body attributes) →
      definition.toJson.Part (Content.fragment body attributes).toJson ∧
      Content.WrittenInOrder body attributes ∧ Content.WritesPresent body attributes) ∧
    definition.WritesPresent ∧ ∀ info ∈ definition.info, info.WritesPresent := by
  refine ⟨fun layout => Json.read?_text layout _, h.distinctKeys,
    Json.reordered_normalize _ h.distinctKeys, Json.normal_normalize _, ?_,
    definition.writesPresent, fun info _ => info.writesPresent⟩
  intro body attributes hholds
  exact ⟨hholds.part_toJson, Content.writtenInOrder body attributes,
    Content.writesPresent body attributes⟩

end Definition

/-- An image without a source, among whose attributes there is one of that name. -/
def sourcelessImage : Content :=
  .fragment (.image none) (.ofList [("image", .string "shadowed"), ("é", .bool true), ("z", .null)])

/-- A header with a stack that holds such an image, and has an attribute with the name of its own
    key; one page setting is null, and everything else is absent. -/
def shadowedHeader : Definition where
  header := some (.fragment (.list .stack [sourcelessImage]) (.ofList [("stack", .null)]))
  pageSize := some .null

theorem carriesNormal_shadowedHeader : shadowedHeader.CarriesNormal := by
  have himage : sourcelessImage.CarriesNormal := by
    refine .intro (fun value hvalue => ?_) (fun entry hentry => by cases hentry)
    have hcarried : value ∈ [Json.string "shadowed", .null, .bool true] := hvalue
    simp only [List.mem_cons, List.not_mem_nil, or_false] at hcarried
    rcases hcarried with rfl | rfl | rfl <;> trivial
  constructor
  case sections =>
    intro slot whole hwhole
    cases slot with
    | header =>
      cases hwhole
      refine .intro (fun value hvalue => ?_) (fun entry hentry => ?_)
      · obtain rfl : value = .null := List.mem_singleton.1 hvalue
        trivial
      · obtain rfl : entry = sourcelessImage := List.mem_singleton.1 hentry
        exact himage
    | content => cases hwhole
    | footer => cases hwhole
  case pageSize =>
    intro value hvalue
    cases hvalue
    trivial
  all_goals
    intro _ habsent
    cases habsent

/-- The header is read back from both texts, has no key twice, and is the built value but for the
    order of fields; the image in it has its other attributes in order; and the absent content is
    not there, whereas the null page setting is. -/
theorem forms_agree_shadowedHeader :
    shadowedHeader.CarriesNormal ∧
    (∀ layout, Json.read? (shadowedHeader.toJson.text layout) = some shadowedHeader.toJson) ∧
    shadowedHeader.toJson.DistinctKeys ∧
    shadowedHeader.toJson.Reordered shadowedHeader.toValue ∧
    shadowedHeader.toJson.Part (.object [("z", .null), ("é", .bool true)]) ∧
    shadowedHeader.toJson.get? "content" = none ∧
    shadowedHeader.toJson.get? "pageSize" = some .null := by
  have hnormal := carriesNormal_shadowedHeader
  obtain ⟨hread, hdistinct, hreordered, -, hfragment, hpresent, -⟩ :=
    Definition.forms_agree shadowedHeader hnormal
  have hholds : shadowedHeader.Holds sourcelessImage :=
    ⟨.header, _, rfl, .entry .whole List.mem_cons_self⟩
  exact ⟨hnormal, hread, hdistinct, hreordered, (hfragment _ _ hholds).1,
    hpresent.sections .content, hpresent.pageSize⟩

end Folio
