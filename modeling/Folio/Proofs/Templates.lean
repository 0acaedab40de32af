/-
  Which JSON values are templates, and where the others fail.

  Reading a template goes through the items of arrays and the `children` of objects, and never into
  `attributes`.  What matters is what the objects on this way look like.

  1. **JSON pointers** — `Json.at?` finds the value that a pointer leads to, by the text of the
     pointer.  The location in an error message is such a text, with `/` for the whole template
     (`at?_location`).
  2. **Tags and defects** — `IsTag` says of an object that a tag can be read from it, and `Defect`
     what a message says is wrong with it; an object with a defect is no tag.
  3. **Reading judges rightly** (`judged_ofJsonAt`, with one lemma for each part of the reading): a
     value that is read has nothing but tags in it, and one that is not has an object in it with the
     defect of the message, at the location of the message (`ofJson_judges`).
-/
import Folio.Pipeline.Error

namespace Folio

variable {κ α β : Type}

/-! ## JSON pointers -/

namespace Json

/-- A reference token with its escapes undone: `~1` stands for a slash and `~0` for a tilde. -/
def unescape : List Char → List Char
  | '~' :: '1' :: rest => '/' :: unescape rest
  | '~' :: '0' :: rest => '~' :: unescape rest
  | c :: rest => c :: unescape rest
  | [] => []

/-- The index that a reference token is the numeral of, without leading zeros. -/
def index? (token : List Char) : Option Nat :=
  let index := Nat.ofDigitChars 10 token 0
  if Nat.toDigits 10 index = token then some index else none

/-- The value inside another that a reference token leads to. -/
def member? (value : Json) (token : List Char) : Option Json :=
  match value with
  | .array items => do items[← index? token]?
  | .object fields => lookup (String.ofList (unescape token)) fields
  | _ => none

/-- The value that a JSON pointer leads to.  The empty pointer leads to the value itself; any other
    has a slash before each of its tokens. -/
def at? (value : Json) (pointer : String) : Option Json :=
  match pointer.toList.splitOn '/' with
  | [] :: tokens => tokens.foldlM member? value
  | _ => none

theorem index?_toDigits (index : Nat) : index? (Nat.toDigits 10 index) = some index := by
  simp [index?, Nat.ofDigitChars_ten_toDigits]

end Json

namespace Pointer

/-- The JSON pointer that a location in a message stands for. -/
def ofLocation (location : String) : String := if location = "/" then "" else location

/-- The reference token of a step. -/
def token : PointerStep → List Char
  | .item index => Nat.toDigits 10 index
  | .children => "children".toList

theorem toList_stepText (step : PointerStep) : (stepText step).toList = '/' :: token step := by
  cases step with
  | item index =>
    show ("/" ++ index.repr).toList = _
    rw [String.toList_append, Nat.toList_repr]
    rfl
  | children => decide +kernel

theorem token_ne_nil (step : PointerStep) : token step ≠ [] := by
  cases step with
  | item index => exact Nat.toDigits_ne_nil
  | children => decide +kernel

theorem slash_notMem_token (step : PointerStep) : '/' ∉ token step := by
  cases step with
  | item index =>
    intro h
    have hdigit := Nat.isDigit_of_mem_toDigits (by decide) (by decide) h
    cases hdigit
  | children => decide +kernel

theorem intercalate_cons (first : List Char) (tokens : List (List Char)) :
    ['/'].intercalate (first :: tokens) = first ++ tokens.flatMap ('/' :: ·) := by
  induction tokens generalizing first with
  | nil => simp
  | cons token rest ih => simp [List.intercalate_cons_cons, ih]

/-- The tokens of a pointer can be told apart in its text. -/
theorem splitOn_toText {pointer : Pointer} (h : pointer ≠ []) :
    pointer.toText.toList.splitOn '/' = [] :: pointer.map token := by
  have htext : pointer.toText.toList = ['/'].intercalate ([] :: pointer.map token) := by
    have hnonempty : ¬pointer.isEmpty = true := by simpa using h
    rw [intercalate_cons, toText, if_neg hnonempty, String.toList_join, List.flatMap_map,
      List.flatMap_map]
    simp only [toList_stepText, List.nil_append]
  rw [htext]
  refine List.splitOn_intercalate '/' (fun token hmem => ?_) (List.cons_ne_nil _ _)
  rcases List.mem_cons.1 hmem with rfl | hmem
  · exact List.not_mem_nil
  · obtain ⟨step, -, rfl⟩ := List.mem_map.1 hmem
    exact slash_notMem_token step

/-- **A location is a JSON pointer** that takes the steps of the pointer it was made from. -/
theorem at?_location (pointer : Pointer) (value : Json) :
    value.at? (ofLocation pointer.toText) = (pointer.map token).foldlM Json.member? value := by
  by_cases h : pointer = []
  · subst h
    rfl
  · have htext : pointer.toText ≠ "/" := by
      intro heq
      have hsplit := splitOn_toText h
      rw [heq] at hsplit
      obtain ⟨step, rest, rfl⟩ := List.exists_cons_of_ne_nil h
      have hslash : "/".toList.splitOn '/' = [[], []] := by decide
      rw [hslash, List.map_cons] at hsplit
      injection hsplit with _ hsplit
      injection hsplit with hstep _
      exact token_ne_nil step hstep.symm
    rw [ofLocation, if_neg htext, Json.at?, splitOn_toText h]

end Pointer

/-! ## Tags and defects -/

namespace Template

/-- The value at a pointer is reached from another through items and `children`. -/
inductive Reached : Json → Pointer → Json → Prop
  | here {value} : Reached value [] value
  | item {items index item pointer target} :
      items[index]? = some item → Reached item pointer target →
      Reached (.array items) (.item index :: pointer) target
  | children {fields children pointer target} :
      lookup "children" fields = some children → Reached children pointer target →
      Reached (.object fields) (.children :: pointer) target

/-- What is reached is where its pointer leads to. -/
theorem Reached.at? {value target : Json} {pointer : Pointer} (h : Reached value pointer target) :
    value.at? (Pointer.ofLocation pointer.toText) = some target := by
  rw [Pointer.at?_location]
  induction h with
  | here => rfl
  | @item items index item pointer target hitem _ ih =>
    have hmember : (Json.array items).member? (Pointer.token (.item index)) = some item := by
      show (Json.index? (Nat.toDigits 10 index) >>= fun index => items[index]?) = some item
      rw [Json.index?_toDigits]
      exact hitem
    rw [List.map_cons, List.foldlM_cons, hmember]
    exact ih
  | @children fields children pointer target hchildren _ ih =>
    have hmember : (Json.object fields).member? (Pointer.token .children) = some children := by
      have htoken : String.ofList (Json.unescape "children".toList) = "children" := by
        decide +kernel
      show lookup (String.ofList (Json.unescape "children".toList)) fields = some children
      rw [htoken]
      exact hchildren
    rw [List.map_cons, List.foldlM_cons, hmember]
    exact ih

/-- The members that an object may have to be a tag. -/
inductive Fits : String → Json → Prop
  | tag (name) : Fits "tag" (.string name)
  | attributes (fields) : Fits "attributes" (.object fields)
  | noAttributes : Fits "attributes" .null
  | children (value) : Fits "children" value

theorem Fits.eq_string {key : String} {value : Json} (h : Fits key value) (hkey : key = "tag") :
    ∃ name, value = .string name := by
  cases h with
  | tag name => exact ⟨name, rfl⟩
  | attributes | noAttributes | children => exact absurd hkey (by decide +kernel)

theorem Fits.eq_null_or_object {key : String} {value : Json} (h : Fits key value)
    (hkey : key = "attributes") : value = .null ∨ ∃ fields, value = .object fields := by
  cases h with
  | attributes fields => exact .inr ⟨fields, rfl⟩
  | noAttributes => exact .inl rfl
  | tag | children => exact absurd hkey (by decide +kernel)

/-- A tag can be read from the object: it has a name, and no other members than these. -/
structure IsTag (fields : List (String × Json)) : Prop where
  name : ∃ name, lookup "tag" fields = some (.string name)
  members : ∀ key value, lookup key fields = some value → Fits key value

/-- What a message says is wrong with the object at a location. -/
inductive Defect (fields : List (String × Json)) (location : String) : String → Prop
  /-- It has no name. -/
  | missingTag : lookup "tag" fields = none →
      Defect fields location s!"Object at '{location}' has no 'tag'"
  /-- Its name, or its attributes, are of another type. -/
  | wrongType {key found} : key = "tag" ∨ key = "attributes" → lookup key fields = some found →
      ¬Fits key found →
      Defect fields location s!"'{key}' at '{location}' has the wrong type: {found.compact}"
  /-- It has a member that means nothing. -/
  | unexpectedKey {key found} : lookup key fields = some found →
      key ≠ "tag" → key ≠ "attributes" → key ≠ "children" →
      Defect fields location s!"Unexpected key '{key}' at '{location}'"

theorem Defect.not_isTag {fields : List (String × Json)} {location message : String}
    (h : Defect fields location message) : ¬IsTag fields := by
  rintro ⟨⟨name, hname⟩, hmembers⟩
  cases h with
  | missingTag hnone => cases hname.symm.trans hnone
  | wrongType _ hfound hfits => exact hfits (hmembers _ _ hfound)
  | unexpectedKey hfound htag hattributes hchildren =>
    cases hmembers _ _ hfound with
    | tag => exact htag rfl
    | attributes | noAttributes => exact hattributes rfl
    | children => exact hchildren rfl

/-! ## Reading judges rightly -/

/-- Every object that is reached is a tag. -/
def Accepted (value : Json) : Prop :=
  ∀ pointer fields, Reached value pointer (.object fields) → IsTag fields

/-- The error of reading the value at a pointer is true: it is about an object that is reached
    from the value, and tells where that object stands and what is wrong with it. -/
def Blamed (value : Json) (pointer : Pointer) (error : TemplateError) : Prop :=
  ∃ inner fields, Reached value inner (.object fields) ∧
    Defect fields (Pointer.toText (pointer ++ inner)) error.message

/-- The result of reading the value at a pointer is right. -/
def Judged (value : Json) (pointer : Pointer) : Except TemplateError α → Prop
  | .ok _ => Accepted value
  | .error error => Blamed value pointer error

theorem Judged.map {value : Json} {pointer : Pointer} {result : Except TemplateError α}
    (h : Judged value pointer result) (f : α → β) :
    Judged value pointer (result >>= fun read => pure (f read)) := by
  cases result <;> exact h

/-- A defect of the object itself is to be blamed. -/
theorem blamed_of_defect {fields : List (String × Json)} {pointer : Pointer}
    {error : TemplateError} (h : Defect fields pointer.toText error.message) :
    Blamed (.object fields) pointer error :=
  ⟨[], fields, .here, by rwa [List.append_nil]⟩

theorem not_accepted_of_blamed {value : Json} {pointer : Pointer} {error : TemplateError}
    (h : Blamed value pointer error) : ¬Accepted value := by
  obtain ⟨inner, fields, hreached, hdefect⟩ := h
  exact fun haccepted => hdefect.not_isTag (haccepted inner fields hreached)

/-- From a value that is neither an array nor an object, no object is reached. -/
theorem accepted_of_scalar {value : Json} (harray : ∀ items, value ≠ .array items)
    (hobject : ∀ fields, value ≠ .object fields) : Accepted value := by
  intro pointer fields h
  cases h with
  | here => exact absurd rfl (hobject fields)
  | item => exact absurd rfl (harray _)
  | children => exact absurd rfl (hobject _)

/-- The result of reading some of the items of an array, from an index on, is right. -/
def JudgedItems (items : List Json) (pointer : Pointer) (index : Nat) :
    Except TemplateError α → Prop
  | .ok _ => ∀ item ∈ items, Accepted item
  | .error error => ∃ offset item, items[offset]? = some item ∧
      Blamed item (pointer ++ [.item (index + offset)]) error

theorem JudgedItems.array {items : List Json} {pointer : Pointer}
    {result : Except TemplateError α} (h : JudgedItems items pointer 0 result) :
    Judged (.array items) pointer result := by
  cases result with
  | ok read =>
    intro target fields hreached
    cases hreached with
    | item hitem hinner => exact h _ (List.mem_of_getElem? hitem) _ _ hinner
  | error error =>
    obtain ⟨offset, item, hitem, inner, fields, hreached, hdefect⟩ := h
    refine ⟨.item offset :: inner, fields, .item hitem hreached, ?_⟩
    rw [List.append_assoc, Nat.zero_add] at hdefect
    exact hdefect

/-- The result of reading some of the members of an object is right: the members that are read
    are those of a tag, what is in the children is accepted, and there is a name if there is one in
    the draft or among the members. -/
def JudgedFields (fields : List (String × Json)) (pointer : Pointer)
    (members : List (String × Json)) (draft : Draft κ) : Except TemplateError (Draft κ) → Prop
  | .ok result =>
    (∀ key value, (key, value) ∈ members → Fits key value) ∧
    (∀ value, ("children", value) ∈ members → Accepted value) ∧
    (result.name.isSome = true ↔
      draft.name.isSome = true ∨ ∃ value, ("tag", value) ∈ members)
  | .error error => Blamed (.object fields) pointer error

theorem JudgedFields.cons {fields members : List (String × Json)} {pointer : Pointer}
    {draft next : Draft κ} {key : String} {value : Json}
    {result : Except TemplateError (Draft κ)} (h : JudgedFields fields pointer members next result)
    (hfits : Fits key value) (hchildren : key = "children" → Accepted value)
    (hname : next.name.isSome = true ↔ draft.name.isSome = true ∨ key = "tag") :
    JudgedFields fields pointer ((key, value) :: members) draft result := by
  cases result with
  | error error => exact h
  | ok read =>
    obtain ⟨hrest, hinner, hnamed⟩ := h
    refine ⟨fun key' value' hmem => ?_, fun value' hmem => ?_, ?_⟩
    · rcases List.mem_cons.1 hmem with hmem | hmem
      · cases hmem
        exact hfits
      · exact hrest key' value' hmem
    · rcases List.mem_cons.1 hmem with hmem | hmem
      · cases hmem
        exact hchildren rfl
      · exact hinner value' hmem
    · rw [hnamed, hname, or_assoc]
      refine or_congr_right ⟨?_, ?_⟩
      · rintro (rfl | ⟨value', hmem⟩)
        · exact ⟨value, List.mem_cons_self⟩
        · exact ⟨value', List.mem_cons_of_mem _ hmem⟩
      · rintro ⟨value', hmem⟩
        rcases List.mem_cons.1 hmem with hmem | hmem
        · cases hmem
          exact .inl rfl
        · exact .inr ⟨value', hmem⟩

/-- **An object** is judged rightly if its members are. -/
theorem JudgedFields.object {fields : List (String × Json)} {pointer : Pointer}
    {result : Except TemplateError (Draft κ)} (hfields : KeysIncrease fields)
    (h : JudgedFields fields pointer fields {} result) :
    Judged (.object fields) pointer (result >>= fun draft => draft.toElement pointer) := by
  cases result with
  | error error => exact h
  | ok draft =>
    obtain ⟨hfits, hchildren, hname⟩ := h
    show Judged _ _ (draft.toElement pointer)
    have hmembers : ∀ key value, lookup key fields = some value → Fits key value :=
      fun key value hlookup => hfits key value (mem_of_lookup hlookup)
    rw [Draft.toElement]
    cases hdraft : draft.name with
    | none =>
      refine blamed_of_defect (.missingTag ?_)
      refine Option.eq_none_iff_forall_ne_some.2 fun value hlookup => ?_
      have hsome := hname.2 (.inr ⟨value, mem_of_lookup hlookup⟩)
      rw [hdraft] at hsome
      cases hsome
    | some name =>
      rw [hdraft] at hname
      obtain hempty | ⟨value, hvalue⟩ := hname.1 rfl
      · cases hempty
      · intro target inner hreached
        cases hreached with
        | here =>
          refine ⟨?_, hmembers⟩
          obtain ⟨name, rfl⟩ := (hfits _ _ hvalue).eq_string rfl
          exact ⟨name, lookup_of_mem hfields hvalue⟩
        | children hlookup hinner => exact hchildren _ (mem_of_lookup hlookup) _ _ hinner

mutual

/-- **Reading judges a value rightly**, -/
theorem judged_ofJsonAt : ∀ {value : Json}, value.Normal → ∀ pointer : Pointer,
    Judged value pointer (ofJsonAt pointer value : Except TemplateError (Element κ))
  | .array items, h, pointer => (judged_ofItems h pointer 0).array.map Element.fragment
  | .object fields, h, pointer =>
    (judged_ofFields fields h.2 pointer {} fun _ _ => lookup_of_mem h.1).object h.1
  | .null, _, _ | .bool _, _, _ | .number _, _, _ | .string _, _, _ =>
    accepted_of_scalar (fun _ h => by cases h) (fun _ h => by cases h)

/-- the items of an array, -/
theorem judged_ofItems : ∀ {items : List Json}, Json.NormalItems items →
    ∀ (pointer : Pointer) (index : Nat),
    JudgedItems items pointer index
      (ofItems pointer index items : Except TemplateError (List (Element κ)))
  | [], _, _, _ => fun _ hitem => absurd hitem List.not_mem_nil
  | item :: rest, h, pointer, index => by
    have hitem := judged_ofJsonAt h.1 (pointer ++ [.item index])
    have hrest := judged_ofItems h.2 pointer (index + 1)
    rw [ofItems]
    cases hread : (ofJsonAt (pointer ++ [.item index]) item : Except TemplateError (Element κ)) with
    | error error =>
      rw [hread] at hitem
      exact ⟨0, item, rfl, hitem⟩
    | ok element =>
      rw [hread] at hitem
      cases hreads : (ofItems pointer (index + 1) rest :
          Except TemplateError (List (Element κ))) with
      | error error =>
        rw [hreads] at hrest
        obtain ⟨offset, other, hother, hblamed⟩ := hrest
        rw [Nat.add_right_comm] at hblamed
        exact ⟨offset + 1, other, hother, hblamed⟩
      | ok elements =>
        rw [hreads] at hrest
        intro other hother
        rcases List.mem_cons.1 hother with rfl | hother
        · exact hitem
        · exact hrest other hother

/-- the members of an object, -/
theorem judged_ofFields (fields : List (String × Json)) :
    ∀ {members : List (String × Json)}, Json.NormalFields members →
    ∀ (pointer : Pointer) (draft : Draft κ),
    (∀ key value, (key, value) ∈ members → lookup key fields = some value) →
    JudgedFields fields pointer members draft (ofFields pointer members draft)
  | [], _, _, _, _ =>
    ⟨fun _ _ h => absurd h List.not_mem_nil, fun _ h => absurd h List.not_mem_nil, by simp⟩
  | (key, value) :: rest, h, pointer, draft, hmembers => by
    have hrest := fun draft => judged_ofFields fields h.2 pointer draft
      fun key value hmem => hmembers key value (List.mem_cons_of_mem _ hmem)
    have hvalue := judged_childrenOf h.1 (pointer ++ [.children])
    have hlookup := hmembers key value List.mem_cons_self
    unfold ofFields
    by_cases htag : key = "tag"
    · rw [if_pos htag]
      cases value with
      | string name =>
        refine (hrest { draft with name := some name }).cons ?_ ?_ ?_
        · exact htag ▸ .tag name
        · exact fun hchildren => absurd (htag.symm.trans hchildren) (by decide +kernel)
        · simp [htag]
      | _ =>
        refine blamed_of_defect (.wrongType (.inl htag) hlookup fun hfits => ?_)
        obtain ⟨name, hname⟩ := hfits.eq_string htag
        cases hname
    rw [if_neg htag]
    by_cases hattributes : key = "attributes"
    · rw [if_pos hattributes]
      have hkept (next : Draft κ) (hname : next.name = draft.name) :
          next.name.isSome = true ↔ draft.name.isSome = true ∨ key = "tag" := by
        simp [hname, htag]
      have hinner : key = "children" → Accepted value := fun hchildren =>
        absurd (hattributes.symm.trans hchildren) (by decide +kernel)
      cases value with
      | object inner =>
        exact (hrest { draft with attributes := .ofFields inner }).cons
          (hattributes ▸ .attributes inner) hinner (hkept _ rfl)
      | null => exact (hrest draft).cons (hattributes ▸ .noAttributes) hinner (hkept _ rfl)
      | _ =>
        refine blamed_of_defect (.wrongType (.inr hattributes) hlookup fun hfits => ?_)
        obtain hnull | ⟨inner, hobject⟩ := hfits.eq_null_or_object hattributes
        · cases hnull
        · cases hobject
    rw [if_neg hattributes]
    by_cases hchildren : key = "children"
    · rw [if_pos hchildren]
      cases hread : (childrenOf (pointer ++ [.children]) value :
          Except TemplateError (List (Element κ))) with
      | error error =>
        rw [hread] at hvalue
        obtain ⟨inner, target, hreached, hdefect⟩ := hvalue
        rw [List.append_assoc] at hdefect
        exact ⟨.children :: inner, target, .children (hchildren ▸ hlookup) hreached, hdefect⟩
      | ok read =>
        rw [hread] at hvalue
        refine (hrest { draft with children := draft.children ++ read }).cons ?_ ?_ ?_
        · exact hchildren ▸ .children value
        · exact fun _ => hvalue
        · simp [htag]
    rw [if_neg hchildren]
    exact blamed_of_defect (.unexpectedKey hlookup htag hattributes hchildren)

/-- and the children of one. -/
theorem judged_childrenOf : ∀ {value : Json}, value.Normal → ∀ pointer : Pointer,
    Judged value pointer (childrenOf pointer value : Except TemplateError (List (Element κ)))
  | .array items, h, pointer => (judged_ofItems h pointer 0).array
  | .object fields, h, pointer => by
    have hfields := judged_ofFields fields h.2 pointer {} fun _ _ => lookup_of_mem h.1
    have hobject := hfields.object h.1
    have hlist := hobject.map fun element => [element]
    rw [bind_assoc] at hlist
    exact hlist
  | .null, _, _ | .bool _, _, _ | .number _, _, _ | .string _, _, _ =>
    accepted_of_scalar (fun _ h => by cases h) (fun _ h => by cases h)

end

/-- **What a template is, and where a value fails to be one.**  A value is read as a template if and
    only if every object that is reached from it through items and children is a tag.  If it is not
    read, its error is one of templates, and the location in the message is a JSON pointer that
    leads to one of these objects, which has the defect that the message names. -/
theorem ofJson_judges (template : Json) (h : template.Normal) :
    ((∃ element : Element κ, ofJson template = .ok element) ↔
      ∀ pointer fields, Reached template pointer (.object fields) → IsTag fields) ∧
    ∀ failure, (ofJson template : Except TemplateError (Element κ)).mapError .template =
        .error failure →
      ∃ error pointer fields, failure = PipelineError.template error ∧
        Reached template pointer (.object fields) ∧
        template.at? (Pointer.ofLocation pointer.toText) = some (.object fields) ∧
        Defect fields pointer.toText error.message := by
  have hjudged : Judged template [] (ofJsonAt [] template : Except TemplateError (Element κ)) :=
    judged_ofJsonAt h []
  rw [ofJson]
  cases hread : (ofJsonAt [] template : Except TemplateError (Element κ)) with
  | ok element =>
    rw [hread] at hjudged
    refine ⟨⟨fun _ => hjudged, fun _ => ⟨element, rfl⟩⟩, fun failure hfailure => ?_⟩
    cases hfailure
  | error error =>
    rw [hread] at hjudged
    constructor
    · constructor
      · rintro ⟨element, hok⟩
        cases hok
      · exact fun haccepted => absurd haccepted (not_accepted_of_blamed hjudged)
    · intro failure hfailure
      cases hfailure
      obtain ⟨pointer, fields, hreached, hdefect⟩ := hjudged
      exact ⟨error, pointer, fields, rfl, hreached, hreached.at?, hdefect⟩

/-- A template with an object deep inside that has no name. -/
def namelessTemplate : Json :=
  .object [("children", .array [.object [("children", .array [.object [("attributes", .null)]]),
    ("tag", .string "content")]]), ("tag", .string "document")]

/-- The message about the nameless object tells where it stands. -/
theorem ofJson_namelessTemplate :
    namelessTemplate.Normal ∧
    (ofJson namelessTemplate : Except TemplateError (Element Empty)) =
      .error (.missingTag [.children, .item 0, .children, .item 0]) ∧
    ∃ pointer fields, Reached namelessTemplate pointer (.object fields) ∧
      namelessTemplate.at? (Pointer.ofLocation pointer.toText) = some (.object fields) ∧
      Defect fields pointer.toText "Object at '/children/0/children/0' has no 'tag'" := by
  have hnormal : namelessTemplate.Normal := by
    simp only [namelessTemplate, Json.Normal, Json.NormalItems, Json.NormalFields, and_true]
    decide +kernel
  have hread : (ofJson namelessTemplate : Except TemplateError (Element Empty)) =
      .error (.missingTag [.children, .item 0, .children, .item 0]) := rfl
  obtain ⟨error, pointer, fields, herror, hreached, hat, hdefect⟩ :=
    (ofJson_judges namelessTemplate hnormal).2 _
      (congrArg (Except.mapError PipelineError.template) hread)
  cases herror
  exact ⟨hnormal, hread, pointer, fields, hreached, hat, hdefect⟩

end Template

end Folio
