/-
  The signs of zeros do not matter.

  Trees that are equal need not be the same, as a zero has two signs.  What they compile to is equal
  all the same: the sign of a zero is seen neither in running text, nor by what asks whether a
  scalar is blank or an attribute is set, nor in any message.

  1. **Definitions** — two definitions are equal if and only if they have the same canonical form
     (`Definition.eqv_iff`).
  2. **Text** — a zero prints the same with either sign (`Double.text_canonical`), so merging text
     and taking canonical forms can be done in either order (`coalesce_canonical`).
  3. **The walk** — compiling goes through canonical forms: the canonical form of a tree compiles to
     the canonical form of what the tree compiles to, or with the same error
     (`compilePlain_canonical`).
  4. **Equal trees** — so equal trees compile to equal definitions or with the same error
     (`eqv_compile`).
-/
import Folio.Json.Printer
import Folio.Proofs.Equality
import Folio.Proofs.FloatTexts
import Folio.Proofs.Transparency

namespace Folio

/-! ## Definitions -/

theorem eqvOption_iff {α : Type} {eqv : α → α → Bool} {canonical : α → α}
    (h : ∀ a b, eqv a b = true ↔ canonical a = canonical b) (a b : Option α) :
    eqvOption eqv a b = true ↔ a.map canonical = b.map canonical := by
  cases a <;> cases b <;> simp [eqvOption, h]

theorem Json.eqvOption_iff (a b : Option Json) :
    eqvOption eqv a b = true ↔ a.map canonical = b.map canonical :=
  Folio.eqvOption_iff (fun a b => eqv_iff (a := a) (b := b)) a b

namespace TextValue

def canonical : TextValue → TextValue
  | .string s => .string s
  | .number n => .number n.canonical

theorem eqv_iff {a b : TextValue} : a.eqv b = true ↔ a.canonical = b.canonical := by
  cases a <;> cases b <;> simp [eqv, canonical, Number.eqv_iff]

end TextValue

namespace Content

mutual

/-- The content with the sign taken from every zero. -/
def canonical : Content → Content
  | .text value => .text value.canonical
  | .row cells => .row (canonicalAll cells)
  | .fragment body attributes => .fragment (canonicalBody body) attributes.canonical

def canonicalAll : List Content → List Content
  | [] => []
  | entry :: rest => canonical entry :: canonicalAll rest

def canonicalBody : Body Content → Body Content
  | .list kind items => .list kind (canonicalAll items)
  | .single only => .single (canonical only)
  | .runs items => .runs (canonicalAll items)
  | .image source => .image (source.map Json.canonical)
  | .table rows headerRows widths =>
    .table (canonicalAll rows) (headerRows.map Json.canonical) (widths.map Json.canonical)

end

theorem canonicalAll_eq_map (entries : List Content) :
    canonicalAll entries = entries.map canonical := by
  induction entries with
  | nil => rfl
  | cons entry rest ih => rw [canonicalAll, ih, List.map_cons]

mutual

/-- **Content** is equal if it has the same canonical form, -/
theorem eqv_iff : ∀ {a b : Content}, a.eqv b = true ↔ a.canonical = b.canonical
  | .text value, b => by cases b <;> simp [eqv, canonical, TextValue.eqv_iff]
  | .row cells, b => by cases b <;> simp [eqv, canonical, eqvAll_iff]
  | .fragment body attributes, b => by
    cases b <;> simp [eqv, canonical, eqvBody_iff, Attributes.eqv_iff]

/-- and so are child lists -/
theorem eqvAll_iff : ∀ {as bs : List Content},
    eqvAll as bs = true ↔ canonicalAll as = canonicalAll bs
  | [], bs => by cases bs <;> simp [eqvAll, canonicalAll]
  | a :: as, bs => by
    cases bs with
    | nil => simp [eqvAll, canonicalAll]
    | cons b bs => simp [eqvAll, canonicalAll, eqv_iff, eqvAll_iff]

/-- and the bodies of fragments. -/
theorem eqvBody_iff : ∀ {a b : Body Content},
    eqvBody a b = true ↔ canonicalBody a = canonicalBody b
  | .list kind items, b => by cases b <;> simp [eqvBody, canonicalBody, eqvAll_iff]
  | .single only, b => by cases b <;> simp [eqvBody, canonicalBody, eqv_iff]
  | .runs items, b => by cases b <;> simp [eqvBody, canonicalBody, eqvAll_iff]
  | .image source, b => by
    cases b <;> simp [eqvBody, canonicalBody, Json.eqvOption_iff]
  | .table rows headerRows widths, b => by
    cases b <;> simp [eqvBody, canonicalBody, eqvAll_iff, Json.eqvOption_iff, and_assoc]

end

theorem eqvOption_iff (a b : Option Content) :
    eqvOption eqv a b = true ↔ a.map canonical = b.map canonical :=
  Folio.eqvOption_iff (fun a b => eqv_iff (a := a) (b := b)) a b

end Content

/-- The metadata with the sign taken from every zero. -/
def DocumentInfo.canonical (info : DocumentInfo) : DocumentInfo where
  title := info.title.map Json.canonical
  author := info.author.map Json.canonical
  subject := info.subject.map Json.canonical
  keywords := info.keywords.map Json.canonical

theorem DocumentInfo.eqv_iff {a b : DocumentInfo} :
    a.eqv b = true ↔ a.canonical = b.canonical := by
  simp [eqv, canonical, Json.eqvOption_iff, and_assoc]

theorem DocumentInfo.eqvOption_iff (a b : Option DocumentInfo) :
    eqvOption eqv a b = true ↔ a.map canonical = b.map canonical :=
  Folio.eqvOption_iff (fun a b => eqv_iff (a := a) (b := b)) a b

/-- The definition with the sign taken from every zero. -/
def Definition.canonical (definition : Definition) : Definition where
  content := definition.content.map Content.canonical
  header := definition.header.map Content.canonical
  footer := definition.footer.map Content.canonical
  pageSize := definition.pageSize.map Json.canonical
  pageMargins := definition.pageMargins.map Json.canonical
  info := definition.info.map DocumentInfo.canonical
  defaultStyle := definition.defaultStyle.map Json.canonical

theorem Definition.eqv_iff {a b : Definition} : a.eqv b = true ↔ a.canonical = b.canonical := by
  simp [eqv, canonical, Json.eqvOption_iff, Content.eqvOption_iff,
    DocumentInfo.eqvOption_iff, and_assoc]

/-! ## Text -/

@[simp] theorem Double.text_canonical (x : Double) : x.canonical.text = x.text := by
  cases h : x.isZero with
  | true =>
    have hcanonical : x.canonical.isZero = true := by rw [isZero_canonical, h]
    exact String.toList_inj.1 ((text_of_isZero hcanonical).trans (text_of_isZero h).symm)
  | false => rw [canonical_of_not_isZero h]

namespace Scalar

@[simp] theorem text_canonical (scalar : Scalar) : scalar.canonical.text = scalar.text := by
  cases scalar with
  | float x => exact x.text_canonical
  | _ => rfl

@[simp] theorem isBlank_canonical (dropZero : Bool) (scalar : Scalar) :
    scalar.canonical.isBlank dropZero = scalar.isBlank dropZero := by
  cases scalar with
  | float x => simp [canonical, isBlank]
  | _ => rfl

end Scalar

theorem TextValue.ofScalar_canonical (scalar : Scalar) :
    ofScalar scalar.canonical = (ofScalar scalar).canonical := by
  cases scalar with
  | float x =>
    cases h : x.isFinite <;>
      simp [Scalar.canonical, ofScalar, Number.ofDouble?, h, canonical, Number.canonical]
  | _ => rfl

/-- The piece with the sign taken from every zero. -/
def Piece.canonical : Piece → Piece
  | .text scalar => .text scalar.canonical
  | .content other => .content other.canonical

/-- The child list so far with the sign taken from every zero. -/
def ChildList.canonical (list : ChildList) : ChildList := ⟨list.reversed.map Piece.canonical⟩

theorem ChildList.add_canonical (list : ChildList) (piece : Piece) :
    list.canonical.add piece.canonical = (list.add piece).canonical := by
  obtain ⟨reversed⟩ := list
  cases piece with
  | content content => rfl
  | text scalar =>
    match reversed with
    | [] | .content _ :: _ => rfl
    | .text previous :: before =>
      show (⟨.text (.string (previous.canonical.text ++ scalar.canonical.text)) :: _⟩ : ChildList) =
        ⟨.text (.string (previous.text ++ scalar.text)) :: _⟩
      rw [Scalar.text_canonical, Scalar.text_canonical]

/-- Texts merge to the same whatever the signs of zeros are. -/
theorem coalesce_canonical (pieces : List Piece) :
    coalesce (pieces.map Piece.canonical) = Content.canonicalAll (coalesce pieces) := by
  have hfold : ∀ list : ChildList,
      (pieces.map Piece.canonical).foldl ChildList.add list.canonical =
        (pieces.foldl ChildList.add list).canonical := by
    induction pieces with
    | nil => exact fun _ => rfl
    | cons piece rest ih =>
      intro list
      rw [List.map_cons, List.foldl_cons, List.foldl_cons, ChildList.add_canonical]
      exact ih _
  have hpiece : ∀ piece : Piece, piece.canonical.toContent = piece.toContent.canonical := by
    intro piece
    cases piece with
    | text scalar =>
      exact congrArg Content.text (TextValue.ofScalar_canonical scalar)
    | content content => rfl
  have hfinish : ∀ list : ChildList,
      list.canonical.finish = Content.canonicalAll list.finish := by
    intro list
    rw [Content.canonicalAll_eq_map, ChildList.finish, ChildList.finish, ChildList.canonical,
      List.map_map, List.map_reverse, List.map_map]
    exact congrArg List.reverse (List.map_congr_left fun piece _ => hpiece piece)
  rw [coalesce, coalesce, ← hfinish, ← hfold]
  rfl

/-! ## Attributes -/

namespace Attributes

theorem get?_canonical (attributes : Attributes) (key : String) :
    attributes.canonical.get? key = (attributes.get? key).map Json.canonical := by
  have hlookup : ∀ fields, lookup key (Json.canonicalFields fields) =
      (lookup key fields).map Json.canonical := by
    intro fields
    induction fields with
    | nil => rfl
    | cons field rest ih =>
      rw [Json.canonicalFields, lookup, lookup, ih]
      split <;> rfl
  exact hlookup attributes.entries

theorem erase_canonical (attributes : Attributes) (key : String) :
    attributes.canonical.erase key = canonical (attributes.erase key) := by
  apply Dict.ext_get?
  intro other
  rw [Dict.get?_erase, get?_canonical, get?_canonical, Dict.get?_erase]
  split <;> rfl

end Attributes

/-- Neither zero is set. -/
theorem isSet_canonical (value : Json) : isSet value.canonical = isSet value := by
  cases value with
  | number n => exact congrArg (!·) n.isZero_canonical
  | _ => rfl

/-! ## The walk -/

variable {options : Options}

/-- The options with the sign taken from every zero of the default style. -/
def Options.canonical (options : Options) : Options :=
  { options with defaultStyle := options.defaultStyle.map Json.canonical }

theorem primitive?_canonical (name : TagName) (attributes : Attributes) (children : List Content) :
    primitive? name attributes.canonical (Content.canonicalAll children) =
      (primitive? name attributes children).map Content.canonical := by
  have hruns : Body.ofRuns (Content.canonicalAll children) =
      Content.canonicalBody (.ofRuns children) := by
    match children with
    | [] | [_] | _ :: _ :: _ => rfl
  cases name with
  | text =>
    rw [primitive?, hruns]
    rfl
  | image =>
    rw [primitive?, Attributes.get?_canonical, Attributes.erase_canonical]
    rfl
  | table =>
    rw [primitive?, Attributes.get?_canonical, Attributes.get?_canonical,
      Attributes.erase_canonical, Attributes.erase_canonical]
    rfl
  | _ => rfl

theorem tagContent_canonical (top : Bool) (name : TagName) (attributes : Attributes)
    (children : Except CompileError (List Piece)) :
    tagContent options.canonical top name attributes.canonical
        (List.map Piece.canonical <$> children) =
      Option.map Content.canonical <$> tagContent options top name attributes children := by
  have hplacement : placement options.canonical top name = placement options top name := rfl
  rw [tagContent, tagContent, hplacement]
  cases placement options top name with
  | reject error => rfl
  | drop dropped => rfl
  | keep =>
    cases children with
    | error error => rfl
    | ok yielded =>
      have hprimitive := primitive?_canonical name attributes (coalesce yielded)
      rw [← coalesce_canonical] at hprimitive
      exact congrArg Except.ok hprimitive

mutual

/-- **Below a section**, the canonical form of an element yields the canonical forms of the pieces
    that the element yields. -/
theorem pieces_canonical : ∀ element : Element Empty,
    pieces options.canonical element.canonical =
      List.map Piece.canonical <$> pieces options element
  | .empty => rfl
  | .leaf scalar => by
    have hdrop : options.canonical.dropZero = options.dropZero := rfl
    rw [Element.canonical, pieces, pieces, hdrop, Scalar.isBlank_canonical]
    split <;> rfl
  | .tag name attributes children => by
    rw [Element.canonical, pieces, pieces, piecesAll_canonical children, tagContent_canonical,
      bind_map_left, map_bind]
    refine bind_congr fun content => ?_
    cases content <;> rfl
  | .composite component _ _ => nomatch component
  | .fragment items => by
    rw [Element.canonical, pieces, pieces, piecesAll_canonical items]

theorem piecesAll_canonical : ∀ items : List (Element Empty),
    piecesAll options.canonical (Element.canonicalAll items) =
      List.map Piece.canonical <$> piecesAll options items
  | [] => rfl
  | item :: rest => by
    rw [Element.canonicalAll, piecesAll, piecesAll, pieces_canonical item,
      piecesAll_canonical rest]
    simp only [bind_map_left, map_bind, map_pure, List.map_append]

end

theorem setSection_canonical (definition : Definition) (slot : Slot) (content : Content) :
    definition.canonical.setSection slot content.canonical =
      (definition.setSection slot content).canonical := by
  cases slot <;> rfl

theorem describe_canonical (nameOf : Empty → String) (element : Element Empty) :
    element.canonical.describe nameOf = element.describe nameOf := by
  have hlength : ∀ items : List (Element Empty),
      (Element.canonicalAll items).length = items.length := by
    intro items
    induction items with
    | nil => rfl
    | cons item rest ih => rw [Element.canonicalAll, List.length_cons, List.length_cons, ih]
  cases element with
  | composite component => exact component.elim
  | leaf scalar => rw [Element.canonical, Element.describe, Element.describe, Scalar.text_canonical]
  | fragment items => rw [Element.canonical, Element.describe, Element.describe, hlength]
  | _ => rfl

mutual

/-- **Directly in the document**, the same holds of the sections. -/
theorem sections_canonical : ∀ (element : Element Empty) (definition : Definition),
    sections options.canonical element.canonical definition.canonical =
      Definition.canonical <$> sections options element definition
  | .empty, _ => rfl
  | .leaf scalar, definition => by
    have hdrop : options.canonical.dropZero = options.dropZero := rfl
    have hdescribe := describe_canonical Empty.elim (.leaf scalar)
    rw [Element.canonical] at hdescribe
    rw [Element.canonical, sections, sections, hdrop, Scalar.isBlank_canonical, hdescribe]
    split <;> rfl
  | .tag name attributes children, definition => by
    rw [Element.canonical, sections, sections, piecesAll_canonical children, tagContent_canonical,
      bind_map_left, map_bind]
    refine bind_congr fun content => ?_
    cases content with
    | none => rfl
    | some content =>
      exact congrArg pure (setSection_canonical definition (name.slot?.getD .content) content)
  | .composite component _ _, _ => nomatch component
  | .fragment items, definition => by
    rw [Element.canonical, sections, sections, sectionsAll_canonical items]

theorem sectionsAll_canonical : ∀ (items : List (Element Empty)) (definition : Definition),
    sectionsAll options.canonical (Element.canonicalAll items) definition.canonical =
      Definition.canonical <$> sectionsAll options items definition
  | [], _ => rfl
  | item :: rest, definition => by
    rw [Element.canonicalAll, sectionsAll, sectionsAll, sections_canonical item, bind_map_left,
      map_bind]
    exact bind_congr fun next => sectionsAll_canonical rest next

end

theorem addSettings_canonical (attributes : Attributes) (definition : Definition) :
    addSettings options.canonical attributes.canonical definition.canonical =
      (addSettings options attributes definition).canonical := by
  have hsetting : ∀ key, (attributes.canonical.get? key).filter isSet =
      ((attributes.get? key).filter isSet).map Json.canonical := by
    intro key
    rw [Attributes.get?_canonical]
    cases attributes.get? key with
    | none => rfl
    | some value =>
      rw [Option.map_some, Option.filter_some, Option.filter_some, isSet_canonical]
      split <;> rfl
  have hinfo : ∀ info : DocumentInfo,
      (if info.canonical.isEmpty then none else some info.canonical) =
        (if info.isEmpty then none else some info).map DocumentInfo.canonical := by
    intro info
    have hempty : info.canonical.isEmpty = info.isEmpty := by
      simp only [DocumentInfo.isEmpty, DocumentInfo.canonical, Option.isNone_map]
    rw [hempty]
    split <;> rfl
  simp only [addSettings, hsetting, Definition.canonical, Definition.mk.injEq, true_and]
  exact ⟨hinfo ⟨_, _, _, _⟩, rfl⟩

/-- **Compiling goes through canonical forms**, errors included. -/
theorem compilePlain_canonical (root : Element Empty) :
    compilePlain options.canonical root.canonical =
      Definition.canonical <$> compilePlain options root := by
  have hother : ∀ element : Element Empty,
      (throw (.rootElement (element.canonical.describe Empty.elim)) :
          Except CompileError Definition) =
        Definition.canonical <$> throw (.rootElement (element.describe Empty.elim)) := by
    intro element
    rw [describe_canonical]
    rfl
  cases root with
  | composite component => exact component.elim
  | tag name attributes children =>
    cases name with
    | document =>
      have hsections : sectionsAll options.canonical (Element.canonicalAll children) {} =
          Definition.canonical <$> sectionsAll options children {} :=
        sectionsAll_canonical children {}
      rw [Element.canonical, compilePlain, compilePlain, hsections, bind_map_left, map_bind]
      exact bind_congr fun sections => congrArg pure (addSettings_canonical attributes sections)
    | _ => exact hother (.tag _ attributes children)
  | _ => exact hother _

/-! ## Equal trees -/

/-- Equal trees compile to definitions with one canonical form, or with the same error. -/
theorem compilePlain_congr {a b : Element Empty} (h : a.eqv b = true) :
    Definition.canonical <$> compilePlain options a =
      Definition.canonical <$> compilePlain options b := by
  rw [← compilePlain_canonical, ← compilePlain_canonical, (Element.eqv_iff.1 h).1]

/-- **Equality is a partial equivalence that compiling respects.**  Equality of trees is symmetric
    and transitive, and a tree is equal to itself if and only if there is no NaN leaf in it, at any
    depth.  Two trees without components that are equal compile to equal definitions or with the
    same error, under all options. -/
theorem eqv_compile {κ : Type} [DecidableEq κ] (options : Options) (context : Context) :
    (∀ a b : Element κ, a.eqv b = true → b.eqv a = true) ∧
    (∀ a b c : Element κ, a.eqv b = true → b.eqv c = true → a.eqv c = true) ∧
    (∀ a : Element κ,
      a.eqv a = true ↔ ∀ x, a.Within (.leaf (.float x)) → x.isNaN = false) ∧
    ∀ a b : Element Empty, a.eqv b = true →
      (∃ error,
        compile (Library.none : Library Empty Id) options context a = throw error ∧
        compile (Library.none : Library Empty Id) options context b = throw error) ∨
      ∃ definition definition',
        compile (Library.none : Library Empty Id) options context a = pure definition ∧
        compile (Library.none : Library Empty Id) options context b = pure definition' ∧
        definition.eqv definition' = true := by
  refine ⟨fun a b => Element.eqv_symm, fun a b c => Element.eqv_trans,
    fun a => Element.eqv_self_iff, fun a b h => ?_⟩
  have hsame : Definition.canonical <$> compilePlain options a =
      Definition.canonical <$> compilePlain options b := compilePlain_congr h
  have hrun := compile_none options context
  cases ha : compilePlain options a with
  | error error =>
    cases hb : compilePlain options b with
    | error error' =>
      rw [ha, hb] at hsame
      cases hsame
      exact .inl ⟨error, ExceptT.ext ((hrun a).trans ha), ExceptT.ext ((hrun b).trans hb)⟩
    | ok definition' =>
      rw [ha, hb] at hsame
      cases hsame
  | ok definition =>
    cases hb : compilePlain options b with
    | error error' =>
      rw [ha, hb] at hsame
      cases hsame
    | ok definition' =>
      rw [ha, hb] at hsame
      exact .inr ⟨definition, definition', ExceptT.ext ((hrun a).trans ha),
        ExceptT.ext ((hrun b).trans hb), Definition.eqv_iff.2 (Except.ok.inj hsame)⟩

/-- The usual settings, with zeros. -/
def keepingZeros : Options := { Options.standard with dropZero := false }

/-- A page with zeros of one sign in a leaf, in attributes and between texts. -/
def signedPage (negative : Bool) : Element Empty :=
  let zero : Scalar := .float (.zero negative)
  .tag .document (Dict.insert ∅ "keywords" (.array [zero.toJson]))
    [.tag .content (Dict.insert ∅ "lineHeight" zero.toJson)
      [.leaf zero, .tag .text ∅ [.text "from ", .leaf zero, .text " to 1"]]]

/-- What the page compiles to. -/
def signedDefinition (negative : Bool) : Definition where
  content := some (.fragment (.list .stack
      [.text (.ofScalar (.float (.zero negative))),
        .fragment (.single (.text (.string "from 0 to 1"))) ∅])
    (Dict.insert ∅ "lineHeight" (Scalar.float (.zero negative)).toJson))
  info := some { keywords := some (.array [(Scalar.float (.zero negative)).toJson]) }
  defaultStyle := Options.standard.defaultStyle

/-- Pages that differ in the signs of their zeros compile to different definitions, which are
    equal all the same. -/
theorem eqv_compile_signedPage :
    (signedPage true).eqv (signedPage false) = true ∧
    (∀ negative, compile (Library.none : Library Empty Id) keepingZeros ∅ (signedPage negative) =
      pure (signedDefinition negative)) ∧
    signedDefinition true ≠ signedDefinition false ∧
    (signedDefinition true).eqv (signedDefinition false) = true := by
  have hequal : (signedPage true).eqv (signedPage false) = true := by decide +kernel
  have hrun : ∀ negative, compile (Library.none : Library Empty Id) keepingZeros ∅
      (signedPage negative) = pure (signedDefinition negative) := by
    intro negative
    cases negative <;> rfl
  have htexts : (signedDefinition true).toJson.compact ≠
      (signedDefinition false).toJson.compact := by decide +kernel
  refine ⟨hequal, hrun, fun h => htexts (by rw [h]), ?_⟩
  have hcompile := (eqv_compile (κ := Empty) keepingZeros ∅).2.2.2
  rcases hcompile (signedPage true) (signedPage false) hequal with
    ⟨error, herror, -⟩ | ⟨definition, definition', hdefinition, hdefinition', heqv⟩
  · cases (hrun true).symm.trans herror
  · cases (hrun true).symm.trans hdefinition
    cases (hrun false).symm.trans hdefinition'
    exact heqv

end Folio
