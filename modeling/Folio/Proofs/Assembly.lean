/-
  How a document is put together.

  The children of a document are spliced through fragments and then taken one after the other.
  Blank leaves and dropped tags add nothing; a section puts its content into the slot of its name,
  in place of what an earlier one put there.  So a slot ends up with the last of its sections, and
  sections of different names do not get in each other's way.

  1. **Splicing** — fragments may as well be spliced beforehand (`sectionsAll_flatten`).
  2. **Entries** — what a spliced child adds is nothing or one entry, a slot with a content
     (`placed?`).  The sections are a run of writes: they are there if every child is fine, and are
     then the entries put in one after the other (`sectionsAll_eq_ok_iff`).
  3. **The last entry counts** — a slot holds the last content that is written to it
     (`section?_putAll`), and its entries are those of the sections of its name, in their order
     (`filter_entries`).
  4. **Settings** — an attribute is a setting unless its value counts as not set (`Unset`).
  5. **The document** — both together (`compile_document`).
-/
import Folio.Proofs.NormalForm
import Folio.Proofs.Transparency

namespace Folio

variable {κ : Type} {options : Options}

/-! ## Splicing -/

theorem sectionsAll_append (first second : List (Element Empty)) (definition : Definition) :
    sectionsAll options (first ++ second) definition =
      sectionsAll options first definition >>= sectionsAll options second := by
  induction first generalizing definition with
  | nil => rfl
  | cons item rest ih =>
    rw [List.cons_append, sectionsAll, sectionsAll, bind_assoc]
    exact bind_congr fun next => ih next

mutual

theorem sectionsAll_spliced : ∀ (child : Element Empty) (definition : Definition),
    sectionsAll options child.spliced definition = sections options child definition
  | .fragment items, definition => by
    rw [Element.spliced, sections]
    exact sectionsAll_flatten items definition
  | .empty, definition | .leaf _, definition | .tag _ _ _, definition => by
    rw [Element.spliced, sectionsAll]
    exact bind_pure _
  | .composite component _ _, _ => nomatch component

/-- **Fragments may be spliced beforehand.** -/
theorem sectionsAll_flatten : ∀ (items : List (Element Empty)) (definition : Definition),
    sectionsAll options (Element.flatten items) definition = sectionsAll options items definition
  | [], _ => rfl
  | item :: rest, definition => by
    rw [Element.flatten, sectionsAll_append, sectionsAll, sectionsAll_spliced item definition]
    exact bind_congr fun next => sectionsAll_flatten rest next

end

/-! ## Entries -/

/-- A content with the slot that it goes to. -/
abbrev SectionEntry := Slot × Content

/-- Puts entries into a definition, one after the other. -/
def Definition.putAll (definition : Definition) (entries : List SectionEntry) : Definition :=
  entries.foldl (fun definition entry => definition.setSection entry.1 entry.2) definition

/-- The slot that an element fills in a document, if it is a section. -/
def Element.slot? : Element κ → Option Slot
  | .tag name _ _ => name.slot?
  | _ => none

theorem Element.exists_tag_of_slot? {element : Element κ} {slot : Slot}
    (h : element.slot? = some slot) :
    ∃ tag : Tag κ, element = tag.toElement ∧ tag.head.slot? = some slot := by
  cases element with
  | tag name attributes children => exact ⟨⟨name, attributes, children⟩, rfl, h⟩
  | _ => cases h

/-- What a child of the document that is no fragment adds to it. -/
def placed? (options : Options) : Element Empty → Except CompileError (Option SectionEntry)
  | .leaf scalar =>
    if scalar.isBlank options.dropZero then .ok none
    else throw (.unexpectedTopLevelChild
      ((Element.leaf scalar : Element Empty).describe Empty.elim))
  | .tag name attributes children => do
    let compiled ← tagContent options true name attributes (piecesAll options children)
    return compiled.map (name.slot?.getD .content, ·)
  | _ => .ok none

/-- The entry that a child adds, if it is fine. -/
def entryOf (options : Options) (child : Element Empty) : Option SectionEntry :=
  (placed? options child).toOption.join

theorem sections_eq_placed? {child : Element Empty} (h : child.isFragment = false)
    (definition : Definition) :
    sections options child definition =
      (fun added => definition.putAll added.toList) <$> placed? options child := by
  cases child with
  | empty => rfl
  | leaf scalar =>
    rw [sections, placed?]
    split <;> rfl
  | tag name attributes children =>
    rw [sections, placed?]
    cases tagContent options true name attributes (piecesAll options children) with
    | error error => rfl
    | ok compiled => cases compiled <;> rfl
  | composite component => exact component.elim
  | fragment items => cases h

/-- **A run of writes.**  Children without fragments yield sections exactly if each of them is
    fine, and then their entries are put in one after the other. -/
theorem sectionsAll_eq_ok_iff {items : List (Element Empty)}
    (h : ∀ item ∈ items, item.isFragment = false) (definition result : Definition) :
    sectionsAll options items definition = .ok result ↔
      (∀ item ∈ items, placed? options item = .ok (entryOf options item)) ∧
        result = definition.putAll (items.filterMap (entryOf options)) := by
  induction items generalizing definition with
  | nil =>
    show Except.ok definition = .ok result ↔ _
    rw [Except.ok.injEq, eq_comm]
    exact ⟨fun heq => ⟨fun _ hitem => absurd hitem List.not_mem_nil, heq⟩, fun heq => heq.2⟩
  | cons item rest ih =>
    have hrest := ih fun other hother => h other (List.mem_cons_of_mem _ hother)
    rw [sectionsAll, sections_eq_placed? (h item List.mem_cons_self)]
    rw [List.forall_mem_cons, List.filterMap_cons]
    cases hentry : placed? options item with
    | error error =>
      refine iff_of_false (fun heq => by cases heq) fun hok => ?_
      cases hok.1.1
    | ok added =>
      have hadded : entryOf options item = added := by rw [entryOf, hentry]; rfl
      show sectionsAll options rest (definition.putAll added.toList) = .ok result ↔ _
      rw [hrest, hadded]
      cases added <;> simp [Definition.putAll]

/-- Spliced beforehand, all children of a document are without fragments. -/
theorem sectionsAll_eq_ok_iff_flatten {items : List (Element Empty)} {result : Definition} :
    sectionsAll options items {} = .ok result ↔
      (∀ item ∈ Element.flatten items, placed? options item = .ok (entryOf options item)) ∧
        result = Definition.putAll {} ((Element.flatten items).filterMap (entryOf options)) := by
  rw [← sectionsAll_flatten]
  exact sectionsAll_eq_ok_iff (fun _ => Element.isFragment_of_mem_flatten) {} result

/-- What is added comes from a section, and goes to its slot. -/
theorem slot?_of_entryOf {item : Element Empty} {entry : SectionEntry}
    (h : entryOf options item = some entry) : item.slot? = some entry.1 := by
  have hentry : placed? options item = .ok (some entry) := by
    rw [entryOf] at h
    cases hitem : placed? options item with
    | error error =>
      rw [hitem] at h
      cases h
    | ok added =>
      rw [hitem] at h
      exact congrArg Except.ok h
  cases item with
  | empty => cases hentry
  | leaf scalar =>
    rw [placed?] at hentry
    split at hentry <;> cases hentry
  | tag name attributes children =>
    rw [placed?] at hentry
    obtain ⟨compiled, hcompiled, hadded⟩ := bind_eq_ok_iff.1 hentry
    cases compiled with
    | none => cases hadded
    | some content =>
      cases hadded
      have hsection := isSection_of_keep (placement_of_tagContent hcompiled)
      obtain ⟨slot, hslot⟩ := Option.isSome_iff_exists.1 hsection
      show name.slot? = some (name.slot?.getD .content)
      rw [hslot, Option.getD_some]
  | composite component => exact component.elim
  | fragment items => cases hentry

/-- A section that is fine adds what it compiles to. -/
theorem entryOf_section {tag : Tag Empty} {slot : Slot} (hslot : tag.head.slot? = some slot)
    (h : placed? options tag.toElement = .ok (entryOf options tag.toElement)) (context : Context) :
    ∃ content, entryOf options tag.toElement = some (slot, content) ∧
      compileTag (Library.none : Library Empty Id) options context true tag =
        pure (some content) := by
  have hentry := h
  rw [Tag.toElement, placed?] at hentry
  obtain ⟨compiled, hcompiled, hadded⟩ := bind_eq_ok_iff.1 hentry
  rcases tagContent_eq_ok hcompiled with ⟨hunknown, -⟩ | ⟨-, content, -, rfl, -⟩
  · obtain ⟨text, htext⟩ := TagName.eq_unknown_of_not_isKnown hunknown
    rw [htext] at hslot
    cases hslot
  · have hcontent := Except.ok.inj hadded
    rw [hslot] at hcontent
    exact ⟨content, hcontent.symm, ExceptT.ext ((compileTag_none ..).trans hcompiled)⟩

/-! ## The last entry counts -/

/-- A slot holds the last content that is written to it, or what it held before. -/
theorem section?_putAll (definition : Definition) (entries : List SectionEntry) (slot : Slot) :
    (definition.putAll entries).section? slot =
      ((entries.filter (·.1 = slot)).getLast?.map Prod.snd).or (definition.section? slot) := by
  induction entries generalizing definition with
  | nil => rfl
  | cons entry rest ih =>
    show ((definition.setSection entry.1 entry.2).putAll rest).section? slot = _
    rw [ih, Definition.section?_setSection, List.filter_cons]
    by_cases hslot : entry.1 = slot
    · rw [if_pos hslot, if_pos (decide_eq_true hslot), List.getLast?_cons]
      cases (rest.filter (·.1 = slot)).getLast? <;> rfl
    · rw [if_neg hslot, if_neg (by simpa using hslot)]

/-- The entries of a slot are those of the sections of its name. -/
theorem filter_filterMap_entryOf (items : List (Element Empty)) (slot : Slot) :
    (items.filterMap (entryOf options)).filter (·.1 = slot) =
      (items.filter (·.slot? = some slot)).filterMap (entryOf options) := by
  rw [List.filter_filterMap, List.filterMap_filter]
  refine List.filterMap_congr fun item _ => ?_
  cases hentry : entryOf options item with
  | none => simp
  | some entry => simp [slot?_of_entryOf hentry, Option.filter]

/-- **The sections of a document.**  Children that yield sections fill a slot exactly if a section
    of its name is among them, with the content of the last one; and what they fill it with is
    settled by these sections alone. -/
theorem section?_of_sectionsAll {items : List (Element Empty)} {sections : Definition}
    (h : sectionsAll options items {} = .ok sections) (slot : Slot) :
    sections.section? slot =
      ((((Element.flatten items).filter (·.slot? = some slot)).filterMap
        (entryOf options)).getLast?.map Prod.snd) := by
  obtain ⟨-, hsections⟩ := sectionsAll_eq_ok_iff_flatten.1 h
  rw [hsections, section?_putAll, filter_filterMap_entryOf]
  cases slot <;> exact Option.or_none

/-! ## Settings -/

/-- The values of attributes that count as not set: null, `false`, `""` and the zeros. -/
inductive Unset : Json → Prop where
  | null : Unset .null
  | bool : Unset (.bool false)
  | string : Unset (.string "")
  | int (inRange) : Unset (.number (.int 0 inRange))
  | float (negative : Bool) (finite) : Unset (.number (.float (.zero negative) finite))

theorem unset_of_not_isSet {value : Json} (h : isSet value = false) : Unset value := by
  match value, h with
  | .null, _ => exact .null
  | .bool false, _ => exact .bool
  | .string text, h =>
    have hempty : text = "" := by simpa [isSet] using h
    exact hempty ▸ .string
  | .number (.int n inRange), h =>
    have hzero : n = 0 := by simpa [isSet, Number.isZero] using h
    subst hzero
    exact .int inRange
  | .number (.float ⟨negative, magnitude, hlt⟩ finite), h =>
    have hzero : magnitude = 0 := by simpa [isSet, Number.isZero, Double.isZero] using h
    subst hzero
    exact .float negative finite

/-- The attributes that count are those that are not unset. -/
theorem isSet_iff (value : Json) : isSet value = true ↔ ¬Unset value := by
  constructor
  · rintro hset hunset
    cases hunset <;> cases hset
  · intro h
    by_contra hset
    exact h (unset_of_not_isSet (Bool.eq_false_iff.2 hset))

namespace Definition

/-- The settings of the page, each with the attribute that it comes from. -/
def pageSettings (definition : Definition) : List (String × Option Json) :=
  [("size", definition.pageSize), ("margin", definition.pageMargins)]

/-- The metadata, each with the attribute that it comes from. -/
def metadata (definition : Definition) : List (String × Option Json) :=
  [("title", definition.info >>= DocumentInfo.title),
    ("author", definition.info >>= DocumentInfo.author),
    ("subject", definition.info >>= DocumentInfo.subject),
    ("keywords", definition.info >>= DocumentInfo.keywords)]

end Definition

theorem DocumentInfo.eq_empty {info : DocumentInfo} (h : info.isEmpty = true) : info = {} := by
  obtain ⟨title, author, subject, keywords⟩ := info
  simp only [isEmpty, Bool.and_eq_true, Option.isNone_iff_eq_none] at h
  obtain ⟨⟨⟨rfl, rfl⟩, rfl⟩, rfl⟩ := h
  rfl

/-- Leaving out metadata without parts loses nothing. -/
theorem DocumentInfo.bind_unlessEmpty (info : DocumentInfo) {part : DocumentInfo → Option Json}
    (hpart : part {} = none) :
    ((if info.isEmpty then none else some info) >>= part) = part info := by
  split
  · next h => rw [DocumentInfo.eq_empty h, hpart]; rfl
  · rfl

section Settings

variable (options : Options) (attributes : Attributes) (sections : Definition)

/-- The settings of a document are the attributes that are set. -/
theorem settings_addSettings :
    (addSettings options attributes sections).pageSettings ++
        (addSettings options attributes sections).metadata =
      ["size", "margin", "title", "author", "subject", "keywords"].map fun key =>
        (key, (attributes.get? key).filter isSet) := by
  simp only [Definition.pageSettings, Definition.metadata, addSettings]
  rw [DocumentInfo.bind_unlessEmpty _ rfl, DocumentInfo.bind_unlessEmpty _ rfl,
    DocumentInfo.bind_unlessEmpty _ rfl, DocumentInfo.bind_unlessEmpty _ rfl]
  rfl

/-- The metadata is there exactly if a part of it is. -/
theorem isSome_info_addSettings :
    (addSettings options attributes sections).info.isSome = true ↔
      ∃ part ∈ (addSettings options attributes sections).metadata, part.2.isSome = true := by
  cases hinfo : (addSettings options attributes sections).info with
  | none => simp [Definition.metadata, hinfo]
  | some info =>
    have hfull : info.isEmpty = false := by
      simp only [addSettings] at hinfo
      split at hinfo
      · cases hinfo
      · next hempty =>
        cases hinfo
        exact Bool.eq_false_iff.2 hempty
    refine iff_of_true rfl ?_
    by_contra hnone
    have hempty : info.isEmpty = true := by
      simpa [Definition.metadata, hinfo, DocumentInfo.isEmpty, and_assoc] using hnone
    rw [hfull] at hempty
    cases hempty

/-- Settings and sections are apart: the sections are all that is kept. -/
theorem addSettings_congr {sections sections' : Definition}
    (h : ∀ slot, sections.section? slot = sections'.section? slot) :
    addSettings options attributes sections = addSettings options attributes sections' := by
  have hheader : sections.header = sections'.header := h .header
  have hcontent : sections.content = sections'.content := h .content
  have hfooter : sections.footer = sections'.footer := h .footer
  rw [addSettings, addSettings, hheader, hcontent, hfooter]

end Settings

/-! ## The document -/

/-- What compiles is a document, and it compiles to its settings on top of its sections. -/
theorem compile_eq_iff {context : Context} {root : Element Empty} {definition : Definition} :
    compile (Library.none : Library Empty Id) options context root = pure definition ↔
      ∃ attributes children sections, root = .tag .document attributes children ∧
        sectionsAll options children {} = .ok sections ∧
        definition = addSettings options attributes sections := by
  have hrun := compile_none options context root
  constructor
  · intro h
    rw [h] at hrun
    unfold compilePlain at hrun
    split at hrun
    · next attributes children =>
      obtain ⟨sections, hsections, hdefinition⟩ := bind_eq_ok_iff.1 hrun.symm
      exact ⟨attributes, children, sections, rfl, hsections, (Except.ok.inj hdefinition).symm⟩
    · cases hrun
  · rintro ⟨attributes, children, sections, rfl, hsections, rfl⟩
    rw [compilePlain, hsections] at hrun
    exact ExceptT.ext hrun

/-- **What a document is made of.**  Let a document without components compile, and splice its
    children through fragments.  Each slot is filled exactly if a section of its name is among
    them, namely with what the last of these compiles to; but every section compiles.  The settings
    are the attributes that are set, word for word, and there is metadata exactly if a part of it
    is set.  The default style is that of the options.  And the children may change places as long
    as the sections of each name stay in order. -/
theorem compile_document {options : Options} {context : Context} {attributes : Attributes}
    {children : List (Element Empty)} {definition : Definition}
    (h : compile (Library.none : Library Empty Id) options context
      (.tag .document attributes children) = pure definition) :
    (∀ slot, (definition.section? slot).isSome = true ↔
      ∃ child ∈ Element.flatten children, child.slot? = some slot) ∧
    (∀ slot before (last : Tag Empty) after,
      Element.flatten children = before ++ last.toElement :: after →
      last.head.slot? = some slot → (∀ child ∈ after, child.slot? ≠ some slot) →
      compileTag (Library.none : Library Empty Id) options context true last =
        pure (definition.section? slot)) ∧
    (∀ tag : Tag Empty, tag.toElement ∈ Element.flatten children → tag.head.isSection = true →
      ∃ content, compileTag (Library.none : Library Empty Id) options context true tag =
        pure (some content)) ∧
    (∀ setting ∈ definition.pageSettings ++ definition.metadata, ∀ value,
      setting.2 = some value ↔ attributes.get? setting.1 = some value ∧ ¬Unset value) ∧
    (definition.info.isSome = true ↔ ∃ part ∈ definition.metadata, part.2.isSome = true) ∧
    definition.defaultStyle = options.defaultStyle ∧
    ∀ reordered : List (Element Empty),
      (Element.flatten reordered).Perm (Element.flatten children) →
      (∀ slot, (Element.flatten reordered).filter (·.slot? = some slot) =
        (Element.flatten children).filter (·.slot? = some slot)) →
      compile (Library.none : Library Empty Id) options context
        (.tag .document attributes reordered) = pure definition := by
  obtain ⟨_, _, sections, hroot, hsections, rfl⟩ := compile_eq_iff.1 h
  cases hroot
  have hslot := section?_of_sectionsAll hsections
  obtain ⟨hfine, -⟩ := sectionsAll_eq_ok_iff_flatten.1 hsections
  -- a section adds an entry, so a slot has one if there is a section of its name
  have hadds := fun (tag : Tag Empty) (htag : tag.toElement ∈ Element.flatten children) slot
    (htagslot : tag.head.slot? = some slot) => entryOf_section htagslot (hfine _ htag) context
  refine ⟨?_, ?_, ?_, ?_, isSome_info_addSettings .., rfl, ?_⟩
  · intro slot
    rw [section?_addSettings, hslot, Option.isSome_map, List.getLast?_isSome]
    constructor
    · intro hne
      obtain ⟨entry, hentry⟩ := List.exists_mem_of_ne_nil _ hne
      obtain ⟨child, hchild, -⟩ := List.mem_filterMap.1 hentry
      exact ⟨child, (List.mem_filter.1 hchild).1, of_decide_eq_true (List.mem_filter.1 hchild).2⟩
    · rintro ⟨child, hchild, hchildslot⟩
      obtain ⟨tag, rfl, htagslot⟩ := Element.exists_tag_of_slot? hchildslot
      obtain ⟨content, hcontent, -⟩ := hadds tag hchild slot htagslot
      exact List.ne_nil_of_mem (List.mem_filterMap.2
        ⟨_, List.mem_filter.2 ⟨hchild, decide_eq_true hchildslot⟩, hcontent⟩)
  · intro slot before last after hsplit hlast hafter
    obtain ⟨content, hcontent, hcompiled⟩ := hadds last (by simp [hsplit]) slot hlast
    have hnone : after.filter (·.slot? = some slot) = [] :=
      List.filter_eq_nil_iff.2 fun child hchild => by simpa using hafter child hchild
    have hmine : last.toElement.slot? = some slot := hlast
    rw [hcompiled, section?_addSettings, hslot, hsplit, List.filter_append, List.filter_cons,
      if_pos (decide_eq_true hmine), hnone, List.filterMap_append, List.filterMap_cons, hcontent,
      List.filterMap_nil, List.getLast?_concat]
    rfl
  · intro tag htag hsection
    obtain ⟨slot, htagslot⟩ := Option.isSome_iff_exists.1 hsection
    obtain ⟨content, -, hcompiled⟩ := hadds tag htag slot htagslot
    exact ⟨content, hcompiled⟩
  · intro setting hsetting value
    rw [settings_addSettings] at hsetting
    obtain ⟨key, -, rfl⟩ := List.mem_map.1 hsetting
    show (attributes.get? key).filter isSet = some value ↔ _
    rw [Option.filter_eq_some_iff, isSet_iff]
  · intro reordered hperm hfilter
    have hreordered : sectionsAll options reordered {} =
        .ok (Definition.putAll {} ((Element.flatten reordered).filterMap (entryOf options))) :=
      sectionsAll_eq_ok_iff_flatten.2
        ⟨fun child hchild => hfine child (hperm.mem_iff.1 hchild), rfl⟩
    refine compile_eq_iff.2 ⟨_, _, _, rfl, hreordered, addSettings_congr _ _ fun slot => ?_⟩
    rw [hslot, section?_of_sectionsAll hreordered, hfilter]

/-! ## A report

  A draft of the header stands inside a fragment, next to a tag outside the vocabulary; the header
  that counts comes last. -/

/-- A header with a text. -/
def headerOf (text : String) : Element Empty := .tag .header ∅ [.text text]

/-- The settings of the report: a page size, no margin and a title. -/
def reportAttributes : Attributes :=
  .ofList [("title", .string "Report"), ("size", .string "A5"), ("margin", .number (.ofNat 0))]

/-- The report. -/
def report : Element Empty :=
  .tag .document reportAttributes
    [.fragment [headerOf "draft", .tag (.unknown "note") ∅ []], .tag .content ∅ [.text "body"],
      headerOf "final"]

/-- The report with both headers before the content. -/
def reorderedReport : List (Element Empty) :=
  [headerOf "draft", .fragment [.fragment [headerOf "final"], .tag (.unknown "note") ∅ []],
    .tag .content ∅ [.text "body"]]

/-- What the report compiles to. -/
def reportDefinition : Definition where
  header := some (.fragment (.list .stack [.text (.string "final")]) ∅)
  content := some (.fragment (.list .stack [.text (.string "body")]) ∅)
  pageSize := some (.string "A5")
  info := some { title := some (.string "Report") }
  defaultStyle := Options.standard.defaultStyle

/-- The report compiles, its header to the last one, and so it does with its sections reordered. -/
theorem compile_document_report :
    compile (Library.none : Library Empty Id) .standard ∅ report = pure reportDefinition ∧
    compileTag (Library.none : Library Empty Id) .standard ∅ true ⟨.header, ∅, [.text "final"]⟩ =
      pure (reportDefinition.section? .header) ∧
    compile (Library.none : Library Empty Id) .standard ∅
      (.tag .document reportAttributes reorderedReport) = pure reportDefinition := by
  have hreport : compile (Library.none : Library Empty Id) .standard ∅ report =
      pure reportDefinition := rfl
  obtain ⟨-, hlast, -, -, -, -, hreorder⟩ := compile_document hreport
  refine ⟨hreport, hlast .header
    [headerOf "draft", .tag (.unknown "note") ∅ [], .tag .content ∅ [.text "body"]]
    ⟨.header, ∅, [.text "final"]⟩ [] rfl rfl (fun _ h => by cases h), ?_⟩
  refine hreorder reorderedReport (.cons _ ?_) fun slot => by cases slot <;> rfl
  exact (List.perm_append_singleton (headerOf "final")
    [.tag (.unknown "note") ∅ [], .tag .content ∅ [.text "body"]]).symm

end Folio
