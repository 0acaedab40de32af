/-
  Lone numbers.

  A number of a template that stands alone between the tags of a child list comes out of compiling
  as a number, at the place where it stands: the same integer, if it fits a signed word, or the
  same double.  A larger integer comes out as the nearest double.

  1. **Places** — what a template emits at a place, told from the template alone: arrays are
     spliced, blanks and dropped tags are left out, and leaves that follow one another share an
     entry (`Lone`).  A place of a definition is a section and the way to an entry below it
     (`Content.at?`).
  2. **Emitted values** — the pieces that children yield are one for each emitted value
     (`renders_of_piecesAll`), and so are the sections of a document (`fills_of_entries`).  A child
     list may be cut where no text meets a text (`coalesce_cut`), so what stands before and after a
     lone number is compiled on its own.
  3. **The number** — down the way to its place, one tag at a time (`Lone.at?`), and from the
     section to the document (`compile_loneNumber`).
-/
import Mathlib.Data.List.Forall2
import Folio.Proofs.Assembly
import Folio.Proofs.Doubles
import Folio.Proofs.JsonReader
import Folio.Proofs.Reading
import Folio.Proofs.TextRuns

namespace Folio

variable {options : Options}

/-! ## Places -/

namespace Content

/-- The entry at a place below an entry. -/
def at? : List Nat → Content → Option Content
  | [], content => some content
  | index :: rest, content => content.entries[index]? >>= at? rest

end Content

namespace Template

/-- Whether the value is a leaf. -/
def isLeaf (value : Json) : Bool := (Scalar.ofJson? value).isSome

/-- The name of a tag. -/
def tagName? (value : Json) : Option TagName :=
  (value.get? "tag" >>= Json.asString?).map .ofText

/-- Whether a spliced value is left in a child list: blanks and tags outside the vocabulary are
    not. -/
def isEmitted (options : Options) (value : Json) : Bool :=
  match Scalar.ofJson? value with
  | some scalar => !scalar.isBlank options.dropZero
  | none => (tagName? value).any TagName.isKnown

/-- What the children of an object emit. -/
def emitted (options : Options) (fields : List (String × Json)) : List Json :=
  (childItems fields).filter (isEmitted options)

/-- How many entries emitted values compile to: leaves that follow one another share one. -/
def entryCount (afterLeaf : Bool) : List Json → Nat
  | [] => 0
  | value :: rest => (if afterLeaf && isLeaf value then 0 else 1) + entryCount (isLeaf value) rest

/-- A number that stands alone at a place below a tag, whose children are not thrown away as those
    of an image are: it is no neighbour of another leaf. -/
inductive Lone (options : Options) : Json → List Nat → Number → Prop
  | here {fields name before number after} : lookup "tag" fields = some (.string name) →
      name ≠ "image" → emitted options fields = before ++ .number number :: after →
      (∀ last ∈ before.getLast?, isLeaf last = false) →
      (∀ next ∈ after.head?, isLeaf next = false) →
      Lone options (.object fields) [entryCount false before] number
  | inside {fields name before child after place number} :
      lookup "tag" fields = some (.string name) → name ≠ "image" →
      emitted options fields = before ++ child :: after → Lone options child place number →
      Lone options (.object fields) (entryCount false before :: place) number

/-- A number that stands alone at a place in a section of a document; a later section of the same
    name would replace it. -/
inductive LoneIn (options : Options) : Json → Slot → List Nat → Number → Prop
  | intro {fields before child after slot place number} :
      emitted options fields = before ++ child :: after →
      tagName? child >>= TagName.slot? = some slot →
      (∀ later ∈ after, tagName? later >>= TagName.slot? ≠ some slot) →
      Lone options child place number → LoneIn options (.object fields) slot place number

end Template

/-! ## Emitted values -/

namespace Template

/-- What an emitted value yields in a child list. -/
inductive Renders (options : Options) : Json → Piece → Prop
  | leaf {value scalar} : Scalar.ofJson? value = some scalar → Renders options value (.text scalar)
  | tag {fields name attributes children content} :
      Reads (.object fields) (.tag name attributes children) →
      tagContent options false name attributes (piecesAll options children) = .ok (some content) →
      Renders options (.object fields) (.content content)

/-- What an emitted value adds to a document. -/
inductive Fills (options : Options) : Json → SectionEntry → Prop
  | intro {fields name attributes children slot content} :
      Reads (.object fields) (.tag name attributes children) → name.slot? = some slot →
      tagContent options true name attributes (piecesAll options children) = .ok (some content) →
      Fills options (.object fields) (slot, content)

theorem Renders.isText_eq {value : Json} {piece : Piece} (h : Renders options value piece) :
    piece.isText = isLeaf value := by
  cases h with
  | leaf hleaf => rw [isLeaf, hleaf]; rfl
  | tag => rfl

/-- A text stands for a leaf, piece by piece. -/
theorem map_isText {values : List Json} {pieces : List Piece}
    (h : List.Forall₂ (Renders options) values pieces) :
    pieces.map Piece.isText = values.map isLeaf := by
  induction h with
  | nil => rfl
  | cons hpiece _ ih => rw [List.map_cons, List.map_cons, hpiece.isText_eq, ih]

theorem getLast?_not_isText {values : List Json} {pieces : List Piece}
    (h : List.Forall₂ (Renders options) values pieces)
    (hlast : ∀ last ∈ values.getLast?, isLeaf last = false) :
    ∀ last ∈ pieces.getLast?, last.isText = false := by
  have hmap := congrArg List.getLast? (map_isText h)
  rw [List.getLast?_map, List.getLast?_map] at hmap
  intro last hmem
  rw [Option.mem_def.1 hmem] at hmap
  obtain ⟨value, hvalue, heq⟩ := Option.map_eq_some_iff.1 hmap.symm
  exact heq.symm.trans (hlast value hvalue)

theorem head?_not_isText {values : List Json} {pieces : List Piece}
    (h : List.Forall₂ (Renders options) values pieces)
    (hnext : ∀ next ∈ values.head?, isLeaf next = false) :
    ∀ next ∈ pieces.head?, next.isText = false := by
  cases h with
  | nil => exact fun _ hmem => by cases hmem
  | cons hpiece _ =>
    intro next hmem
    cases hmem
    exact hpiece.isText_eq.trans (hnext _ rfl)

theorem tagName?_of_reads {fields : List (String × Json)} {name : TagName}
    {attributes : Attributes} {children : List (Element Empty)}
    (h : Reads (.object fields) (.tag name attributes children)) :
    tagName? (.object fields) = some name := by
  cases h with
  | tag _ hname _ =>
    show (lookup "tag" fields >>= Json.asString?).map TagName.ofText = _
    rw [hname]
    rfl

/-- Read as a tag, a value is emitted if the tag is of the vocabulary. -/
theorem isEmitted_of_reads {fields : List (String × Json)} {name : TagName}
    {attributes : Attributes} {children : List (Element Empty)}
    (h : Reads (.object fields) (.tag name attributes children)) :
    isEmitted options (.object fields) = name.isKnown := by
  show (tagName? (.object fields)).any TagName.isKnown = _
  rw [tagName?_of_reads h]
  rfl

theorem isEmitted_of_ofJson? {value : Json} {scalar : Scalar}
    (h : Scalar.ofJson? value = some scalar) :
    isEmitted options value = !scalar.isBlank options.dropZero := by
  rw [isEmitted, h]

/-- A child yields a piece if it is emitted. -/
theorem renders_of_pieces {value : Json} {element : Element Empty} (hreads : Reads value element)
    {yielded : List Piece} (h : pieces options element = .ok yielded) :
    List.Forall₂ (Renders options) ([value].filter (isEmitted options)) yielded := by
  cases element with
  | empty =>
    cases hreads
    cases h
    exact .nil
  | leaf scalar =>
    cases hreads with
    | leaf hleaf =>
      cases h
      rw [List.filter_singleton, isEmitted_of_ofJson? hleaf]
      cases scalar.isBlank options.dropZero with
      | true => exact .nil
      | false => exact .cons (.leaf hleaf) .nil
  | tag name attributes children =>
    obtain ⟨compiled, hcompiled, h⟩ := bind_eq_ok_iff.1 h
    cases hreads with
    | tag _ hname hchildren =>
      have htag := Reads.tag attributes hname hchildren
      rw [List.filter_singleton, isEmitted_of_reads htag]
      rcases tagContent_eq_ok hcompiled with ⟨hunknown, rfl⟩ | ⟨_, content, _, rfl, _⟩
      · rw [hunknown]
        cases h
        exact .nil
      · rw [isKnown_of_keep (placement_of_tagContent hcompiled)]
        cases h
        exact .cons (.tag htag hcompiled) .nil
  | composite component => exact component.elim
  | fragment items => cases hreads.isFragment

/-- **The children of a tag** yield a piece for each emitted value. -/
theorem renders_of_piecesAll {values : List Json} {elements : List (Element Empty)}
    (hreads : ReadsAll values elements) {yielded : List Piece}
    (h : piecesAll options elements = .ok yielded) :
    List.Forall₂ (Renders options) (values.filter (isEmitted options)) yielded := by
  induction elements generalizing values yielded with
  | nil =>
    cases hreads
    cases h
    exact .nil
  | cons element rest ih =>
    cases hreads with
    | @cons value _ values _ hvalue hvalues =>
      obtain ⟨first, hfirst, h⟩ := bind_eq_ok_iff.1 h
      obtain ⟨others, hothers, h⟩ := bind_eq_ok_iff.1 h
      cases h
      rw [← List.singleton_append, List.filter_append]
      exact List.rel_append (renders_of_pieces hvalue hfirst) (ih hvalues hothers)

/-- A child of the document that is fine adds an entry if it is emitted. -/
theorem fills_of_entry {value : Json} {element : Element Empty} (hreads : Reads value element)
    (h : placed? options element = .ok (entryOf options element)) :
    List.Forall₂ (Fills options) ([value].filter (isEmitted options))
      (entryOf options element).toList := by
  cases element with
  | empty =>
    cases hreads
    exact .nil
  | leaf scalar =>
    cases hreads with
    | leaf hleaf =>
      rw [placed?] at h
      rw [List.filter_singleton, isEmitted_of_ofJson? hleaf]
      cases hblank : scalar.isBlank options.dropZero with
      | false =>
        rw [hblank] at h
        cases h
      | true =>
        rw [hblank] at h
        rw [← Except.ok.inj h]
        exact .nil
  | tag name attributes children =>
    cases hreads with
    | tag _ hname hchildren =>
      have htag := Reads.tag attributes hname hchildren
      rw [placed?] at h
      obtain ⟨compiled, hcompiled, hadded⟩ := bind_eq_ok_iff.1 h
      rw [← Except.ok.inj hadded, List.filter_singleton, isEmitted_of_reads htag]
      rcases tagContent_eq_ok hcompiled with ⟨hunknown, rfl⟩ | ⟨_, content, _, rfl, _⟩
      · rw [hunknown]
        exact .nil
      · have hkeep := placement_of_tagContent hcompiled
        obtain ⟨slot, hslot⟩ := Option.isSome_iff_exists.1 (isSection_of_keep hkeep)
        rw [isKnown_of_keep hkeep, hslot]
        exact .cons (.intro htag hslot hcompiled) .nil
  | composite component => exact component.elim
  | fragment items => cases hreads.isFragment

/-- **The children of a document** add an entry for each emitted value. -/
theorem fills_of_entries {values : List Json} {elements : List (Element Empty)}
    (hreads : ReadsAll values elements)
    (h : ∀ element ∈ elements, placed? options element = .ok (entryOf options element)) :
    List.Forall₂ (Fills options) (values.filter (isEmitted options))
      (elements.filterMap (entryOf options)) := by
  induction elements generalizing values with
  | nil =>
    cases hreads
    exact .nil
  | cons element rest ih =>
    cases hreads with
    | @cons value _ values _ hvalue hvalues =>
      obtain ⟨helement, hrest⟩ := List.forall_mem_cons.1 h
      rw [← List.singleton_append, List.filter_append]
      show List.Forall₂ _ _ (([element] ++ rest).filterMap (entryOf options))
      rw [List.filterMap_append]
      exact List.rel_append (fills_of_entry hvalue helement) (ih hvalues hrest)

/-- How long a child list gets. -/
theorem length_foldl {values : List Json} {pieces : List Piece}
    (h : List.Forall₂ (Renders options) values pieces) (list : ChildList) :
    (pieces.foldl ChildList.add list).reversed.length =
      list.reversed.length + entryCount list.endsInText values := by
  induction h generalizing list with
  | nil => rfl
  | cons hpiece hrest ih =>
    rw [List.foldl_cons, ih, ChildList.endsInText_add, entryCount, ← hpiece.isText_eq,
      ChildList.length_add, Nat.add_assoc]

theorem length_coalesce {values : List Json} {pieces : List Piece}
    (h : List.Forall₂ (Renders options) values pieces) :
    (coalesce pieces).length = entryCount false values := by
  have hlength := length_foldl h {}
  rw [coalesce, ChildList.finish, List.length_reverse, List.length_map, hlength]
  exact Nat.zero_add _

end Template

/-- One of the left list, with what is before and after it, has a partner on the right. -/
theorem exists_of_forall₂_append_cons {α β : Type} {R : α → β → Prop} {before : List α} {a : α}
    {after : List α} {others : List β} (h : List.Forall₂ R (before ++ a :: after) others) :
    ∃ before' b after', others = before' ++ b :: after' ∧ List.Forall₂ R before before' ∧ R a b ∧
      List.Forall₂ R after after' := by
  induction before generalizing others with
  | nil =>
    obtain ⟨b, after', hb, hafter, rfl⟩ := List.forall₂_cons_left_iff.1 h
    exact ⟨[], b, after', rfl, .nil, hb, hafter⟩
  | cons first rest ih =>
    obtain ⟨first', others', hfirst, hothers, rfl⟩ := List.forall₂_cons_left_iff.1 h
    obtain ⟨before', b, after', rfl, hbefore, hb, hafter⟩ := ih hothers
    exact ⟨first' :: before', b, after', rfl, .cons hfirst hbefore, hb, hafter⟩

/-! ## The number -/

namespace Template

/-- **What stands alone has an entry of its own**, after those of the values before it. -/
theorem exists_entry {before : List Json} {value : Json} {after : List Json} {yielded : List Piece}
    (h : List.Forall₂ (Renders options) (before ++ value :: after) yielded)
    (hapart : isLeaf value = false ∨ (∀ last ∈ before.getLast?, isLeaf last = false) ∧
      ∀ next ∈ after.head?, isLeaf next = false) :
    ∃ piece, Renders options value piece ∧
      (coalesce yielded)[entryCount false before]? = some piece.toContent := by
  obtain ⟨earlier, piece, later, rfl, hearlier, hpiece, hlater⟩ := exists_of_forall₂_append_cons h
  refine ⟨piece, hpiece, ?_⟩
  have hbefore : (∀ last ∈ earlier.getLast?, last.isText = false) ∨
      ∀ next ∈ (piece :: later).head?, next.isText = false := by
    rcases hapart with hvalue | ⟨hlast, -⟩
    · exact .inr (by simp [hpiece.isText_eq, hvalue])
    · exact .inl (getLast?_not_isText hearlier hlast)
  have hafter : (∀ last ∈ [piece].getLast?, last.isText = false) ∨
      ∀ next ∈ later.head?, next.isText = false := by
    rcases hapart with hvalue | ⟨-, hnext⟩
    · exact .inl (by simp [hpiece.isText_eq, hvalue])
    · exact .inr (head?_not_isText hlater hnext)
  have hcut : coalesce (earlier ++ piece :: later) =
      coalesce earlier ++ piece.toContent :: coalesce later := by
    rw [coalesce_cut hbefore, ← List.singleton_append, coalesce_cut hafter]
    cases piece <;> rfl
  rw [hcut, ← length_coalesce hearlier, List.getElem?_append_right (Nat.le_refl _), Nat.sub_self]
  rfl

/-- A tag that is no image has its compiled children for entries. -/
theorem entries_of_primitive? {name : TagName} {attributes : Attributes} {children : List Content}
    {content : Content} (hname : name ≠ .image)
    (h : primitive? name attributes children = some content) : content.entries = children := by
  cases name with
  | document | unknown => cases h
  | image => exact absurd rfl hname
  | text =>
    cases h
    exact Body.entries_ofRuns children
  | _ =>
    cases h
    rfl

/-- What stands alone below a tag is an entry of the content of the tag. -/
theorem exists_entry_of_reads {fields : List (String × Json)} {written : String}
    {before : List Json} {value : Json} {after : List Json}
    (hwritten : lookup "tag" fields = some (.string written)) (himage : written ≠ "image")
    (hemitted : emitted options fields = before ++ value :: after)
    (hapart : isLeaf value = false ∨ (∀ last ∈ before.getLast?, isLeaf last = false) ∧
      ∀ next ∈ after.head?, isLeaf next = false)
    {top : Bool} {name : TagName} {attributes : Attributes} {children : List (Element Empty)}
    {content : Content} (hreads : Reads (.object fields) (.tag name attributes children))
    (hcontent : tagContent options top name attributes (piecesAll options children) =
      .ok (some content)) :
    ∃ piece, Renders options value piece ∧
      content.entries[entryCount false before]? = some piece.toContent := by
  cases hreads with
  | @tag _ name _ _ hname hchildren =>
    obtain rfl : name = written := by
      cases hname.symm.trans hwritten
      rfl
    rcases tagContent_eq_ok hcontent with ⟨-, hnone⟩ | ⟨yielded, _, hyielded, hsome, hprimitive⟩
    · cases hnone
    · cases hsome
      have hnoimage : TagName.ofText name ≠ .image := by
        intro heq
        have htext := TagName.toText_ofText name
        rw [heq] at htext
        exact himage htext.symm
      have hrenders := renders_of_piecesAll hchildren hyielded
      rw [← emitted, hemitted] at hrenders
      rw [entries_of_primitive? hnoimage hprimitive]
      exact exists_entry hrenders hapart

/-- What has a number below it is a tag, so it meets no text. -/
theorem Lone.isLeaf_eq {value : Json} {place : List Nat} {number : Number}
    (h : Lone options value place number) : isLeaf value = false := by
  cases h <;> rfl

/-- **Down to the number.**  Where a number stands alone below a tag, it is in the content of the
    tag, finished by itself. -/
theorem Lone.at? {value : Json} {place : List Nat} {number : Number}
    (h : Lone options value place number) : ∀ {top : Bool} {name : TagName}
    {attributes : Attributes} {children : List (Element Empty)} {content : Content},
    Reads value (.tag name attributes children) →
    tagContent options top name attributes (piecesAll options children) = .ok (some content) →
    content.at? place = some (.text (.ofScalar (.ofNumber number))) := by
  induction h with
  | here hname himage hemitted hbefore hafter =>
    intro top name attributes children content hreads hcontent
    obtain ⟨piece, hpiece, hentry⟩ := exists_entry_of_reads hname himage hemitted
      (.inr ⟨hbefore, hafter⟩) hreads hcontent
    rw [Content.at?, hentry]
    cases hpiece with
    | leaf hleaf =>
      cases hleaf
      rfl
  | inside hname himage hemitted hlone ih =>
    intro top name attributes children content hreads hcontent
    obtain ⟨piece, hpiece, hentry⟩ := exists_entry_of_reads hname himage hemitted
      (.inl hlone.isLeaf_eq) hreads hcontent
    rw [Content.at?, hentry]
    cases hpiece with
    | leaf hleaf =>
      have hnoleaf := hlone.isLeaf_eq
      rw [isLeaf, hleaf] at hnoleaf
      cases hnoleaf
    | tag hread htag => exact ih hread htag

/-- A value fills the slot of its name. -/
theorem Fills.slot?_eq {value : Json} {entry : SectionEntry} (h : Fills options value entry) :
    tagName? value >>= TagName.slot? = some entry.1 := by
  cases h with
  | intro hreads hslot _ =>
    rw [tagName?_of_reads hreads]
    exact hslot

theorem filter_eq_nil_of_fills {values : List Json} {entries : List SectionEntry} {slot : Slot}
    (h : List.Forall₂ (Fills options) values entries)
    (hvalues : ∀ value ∈ values, tagName? value >>= TagName.slot? ≠ some slot) :
    entries.filter (·.1 = slot) = [] := by
  induction h with
  | nil => rfl
  | cons hentry _ ih =>
    obtain ⟨hvalue, hrest⟩ := List.forall_mem_cons.1 hvalues
    have hother : ¬_ = slot := fun heq => hvalue (heq ▸ hentry.slot?_eq)
    rw [List.filter_cons, if_neg (by simpa using hother), ih hrest]

/-- **From the document to the number.**  The last section of its name is the one that stays. -/
theorem LoneIn.at? {fields : List (String × Json)} {slot : Slot} {place : List Nat}
    {number : Number} (h : LoneIn options (.object fields) slot place number)
    {children : List (Element Empty)} (hreads : ReadsAll (childItems fields) children)
    {sections : Definition} (hsections : sectionsAll options children {} = .ok sections) :
    sections.section? slot >>= Content.at? place =
      some (.text (.ofScalar (.ofNumber number))) := by
  obtain ⟨hfine, rfl⟩ := (sectionsAll_eq_ok_iff hreads.isFragment {} sections).1 hsections
  cases h with
  | @intro _ before child after _ _ _ hemitted hslot hafter hlone =>
    have hfills := fills_of_entries hreads hfine
    rw [← emitted, hemitted] at hfills
    obtain ⟨earlier, entry, later, hentries, -, hchild, hlater⟩ :=
      exists_of_forall₂_append_cons hfills
    have hmine : entry.1 = slot := Option.some.inj (hchild.slot?_eq.symm.trans hslot)
    have hsection : (Definition.putAll {} (children.filterMap (entryOf options))).section? slot =
        some entry.2 := by
      rw [section?_putAll, hentries, List.filter_append, List.filter_cons,
        if_pos (decide_eq_true hmine), filter_eq_nil_of_fills hlater hafter, List.getLast?_concat]
      rfl
    rw [hsection]
    cases hchild with
    | intro hread _ hcontent => exact hlone.at? hread hcontent

end Template

/-- An integer that fits a signed word is kept, and so is a double. -/
theorem TextValue.ofScalar_ofNumber {number : Number}
    (h : ∀ value inRange, number = .int value inRange → value < 0x8000000000000000) :
    ofScalar (.ofNumber number) = .number number := by
  cases number with
  | int value inRange =>
    have hlt := h value inRange rfl
    have hvalue : (Int64.ofInt value).toInt = value := Int64.toInt_ofInt_of_le inRange.1 hlt
    rw [Scalar.ofNumber, if_pos hlt, ofScalar, Number.ofInt64]
    simp only [hvalue]
  | float x finite =>
    rw [Scalar.ofNumber, ofScalar, Number.ofDouble?, dif_pos finite]

/-- A larger integer becomes the nearest double. -/
theorem TextValue.ofScalar_ofNumber_int {value : Int} {inRange}
    (h : 0x8000000000000000 ≤ value) :
    ∃ finite, ofScalar (.ofNumber (.int value inRange)) =
      .number (.float (.ofInt value) finite) := by
  have hfinite : (Double.ofInt value).isFinite = true := Double.isFinite_ofInt (by omega)
  refine ⟨hfinite, ?_⟩
  rw [Scalar.ofNumber, if_neg (Int.not_lt.2 h), ofScalar, Number.ofDouble?, dif_pos hfinite]

/-- What a definition shows at a place of a section. -/
def Definition.at? (definition : Definition) (slot : Slot) (place : List Nat) : Option Json :=
  (definition.section? slot >>= Content.at? place).map Content.toJson

/-- **A lone number** of a template that compiles is at its place in the definition.  It is the same
    number exactly if it is no integer beyond the signed words; such an integer is there as the
    nearest double. -/
theorem compile_loneNumber {options : Options} {context : Context} {text : String}
    {template : Json} {element : Element Empty} {definition : Definition} {slot : Slot}
    {place : List Nat} {number : Number} (hparse : Json.parse text = .ok template)
    (hload : Template.ofJson template = .ok element)
    (hcompile : compile (Library.none : Library Empty Id) options context element =
      pure definition)
    (hlone : Template.LoneIn options template slot place number) :
    (definition.at? slot place = some (.number number) ↔
      ∀ value inRange, number = .int value inRange → value < 0x8000000000000000) ∧
    ∀ value inRange, number = .int value inRange → 0x8000000000000000 ≤ value →
      ∃ finite, definition.at? slot place = some (.number (.float (.ofInt value) finite)) := by
  have hat : definition.at? slot place =
      some (TextValue.ofScalar (.ofNumber number)).toJson := by
    obtain ⟨_, _, sections, hroot, hsections, rfl⟩ := compile_eq_iff.1 hcompile
    cases hroot
    cases template with
    | object fields =>
      have hreads := Template.reads_of_ofJson (Json.normal_parse hparse) hload
      rw [Definition.at?, section?_addSettings, hlone.at? hreads.children hsections]
      rfl
    | _ => cases hlone
  have hlarge : ∀ value inRange, number = .int value inRange → 0x8000000000000000 ≤ value →
      ∃ finite, definition.at? slot place = some (.number (.float (.ofInt value) finite)) := by
    rintro value inRange rfl hvalue
    obtain ⟨finite, hnumber⟩ := TextValue.ofScalar_ofNumber_int hvalue
    rw [hat, hnumber]
    exact ⟨finite, rfl⟩
  refine ⟨⟨fun hsame value inRange hnumber => ?_, fun hsmall => ?_⟩, hlarge⟩
  · by_contra hvalue
    obtain ⟨finite, hfloat⟩ := hlarge value inRange hnumber (Int.not_lt.1 hvalue)
    rw [hfloat, hnumber] at hsame
    cases hsame
  · rw [hat, TextValue.ofScalar_ofNumber hsmall]
    rfl

/-! ## A total

  A template with a label, and with a number in a text of its own. -/

/-- The template with this number. -/
def totalTemplate (number : Number) : Json :=
  .object [("children", .object
    [("children", .array [.string "Total", .object
      [("children", .array [.null, .number number]), ("tag", .string "text")]]),
    ("tag", .string "content")]), ("tag", .string "document")]

/-- What it reads as. -/
def totalElement (scalar : Scalar) : Element Empty :=
  .tag .document ∅ [.tag .content ∅ [.text "Total", .tag .text ∅ [.empty, .leaf scalar]]]

/-- What it compiles to. -/
def totalDefinition (number : Number) : Definition where
  content := some (.fragment (.list .stack
    [.text (.string "Total"), .fragment (.single (.text (.number number))) ∅]) ∅)
  defaultStyle := Options.standard.defaultStyle

/-- The number stands alone in the second entry of the content, unless it is blank. -/
theorem loneIn_totalTemplate {number : Number}
    (h : (Scalar.ofNumber number).isBlank true = false) :
    Template.LoneIn .standard (totalTemplate number) .content [1, 0] number := by
  have hnone : ∀ value ∈ ([] : List Json).getLast?, Template.isLeaf value = false :=
    fun _ hvalue => by cases hvalue
  have htext : Template.emitted .standard
      [("children", .array [.null, .number number]), ("tag", .string "text")] =
      [] ++ .number number :: [] := by
    show [Json.number number].filter (Template.isEmitted .standard) = _
    rw [List.filter_singleton, Template.isEmitted_of_ofJson? rfl]
    show (bif !(Scalar.ofNumber number).isBlank true then _ else _) = _
    rw [h]
    rfl
  have hcontent : Template.emitted .standard
      [("children", .array [.string "Total", .object
        [("children", .array [.null, .number number]), ("tag", .string "text")]]),
      ("tag", .string "content")] =
      [.string "Total"] ++ .object
        [("children", .array [.null, .number number]), ("tag", .string "text")] :: [] := rfl
  have hdocument : Template.emitted .standard
      [("children", .object
        [("children", .array [.string "Total", .object
          [("children", .array [.null, .number number]), ("tag", .string "text")]]),
        ("tag", .string "content")]), ("tag", .string "document")] =
      [] ++ .object
        [("children", .array [.string "Total", .object
          [("children", .array [.null, .number number]), ("tag", .string "text")]]),
        ("tag", .string "content")] :: [] := rfl
  refine .intro hdocument rfl (fun _ hlater => absurd hlater List.not_mem_nil) ?_
  refine .inside rfl (by decide +kernel) hcontent ?_
  exact .here rfl (by decide +kernel) htext hnone hnone

/-- A small number. -/
def seven : Number := .ofNat 7

/-- The template with a small number, as it is written. -/
def sevenText : String :=
  "\x7b\"tag\": \"document\", \"children\": \x7b\"tag\": \"content\", \"children\": " ++
    "[\"Total\", \x7b\"tag\": \"text\", \"children\": [null, 7]\x7d]\x7d\x7d"

set_option maxRecDepth 2048 in
theorem parse_sevenText : Json.parse sevenText = .ok (totalTemplate seven) := by rfl

/-- Seven is there as seven. -/
theorem compile_loneNumber_seven :
    Json.parse sevenText = .ok (totalTemplate seven) ∧
    Template.ofJson (totalTemplate seven) = .ok (totalElement (.int 7)) ∧
    compile (Library.none : Library Empty Id) .standard ∅ (totalElement (.int 7)) =
      pure (totalDefinition seven) ∧
    Template.LoneIn .standard (totalTemplate seven) .content [1, 0] seven ∧
    (totalDefinition seven).at? .content [1, 0] = some (.number seven) := by
  have hload : Template.ofJson (totalTemplate seven) = .ok (totalElement (.int 7)) := rfl
  have hcompile : compile (Library.none : Library Empty Id) .standard ∅ (totalElement (.int 7)) =
      pure (totalDefinition seven) := rfl
  have hlone : Template.LoneIn .standard (totalTemplate seven) .content [1, 0] seven :=
    loneIn_totalTemplate rfl
  refine ⟨parse_sevenText, hload, hcompile, hlone,
    (compile_loneNumber parse_sevenText hload hcompile hlone).1.2 fun value inRange hseven => ?_⟩
  cases hseven
  decide

/-- A number beyond the signed words. -/
def large : Number := .int 0x8000000000000001 (by decide)

/-- The double nearest to it, `2 ^ 63`. -/
def rounded : Number := .float (.ofBits 0x43e0000000000000) (by decide)

/-- The template with a large number, as it is written. -/
def largeText : String :=
  "\x7b\"tag\": \"document\", \"children\": \x7b\"tag\": \"content\", \"children\": " ++
    "[\"Total\", \x7b\"tag\": \"text\", \"children\": [null, 9223372036854775809]\x7d]\x7d\x7d"

set_option maxRecDepth 2048 in
theorem parse_largeText : Json.parse largeText = .ok (totalTemplate large) := by rfl

theorem ofNumber_large : Scalar.ofNumber large = .float (.ofBits 0x43e0000000000000) := by
  decide +kernel

/-- A lone number is not there as the same number: a large integer is there as a double. -/
theorem compile_loneNumber_large :
    Json.parse largeText = .ok (totalTemplate large) ∧
    Template.ofJson (totalTemplate large) =
      .ok (totalElement (.float (.ofBits 0x43e0000000000000))) ∧
    compile (Library.none : Library Empty Id) .standard ∅
        (totalElement (.float (.ofBits 0x43e0000000000000))) = pure (totalDefinition rounded) ∧
    Template.LoneIn .standard (totalTemplate large) .content [1, 0] large ∧
    (totalDefinition rounded).at? .content [1, 0] = some (.number rounded) ∧
    (totalDefinition rounded).at? .content [1, 0] ≠ some (.number large) := by
  have hload : Template.ofJson (totalTemplate large) =
      .ok (totalElement (.float (.ofBits 0x43e0000000000000))) := by
    rw [← ofNumber_large]
    rfl
  have hlone : Template.LoneIn .standard (totalTemplate large) .content [1, 0] large := by
    refine loneIn_totalTemplate ?_
    rw [ofNumber_large]
    decide +kernel
  refine ⟨parse_largeText, hload, rfl, hlone, rfl, fun hsame => ?_⟩
  cases hsame

end Folio
