/-
  The normal form of what compiles.

  1. **Normal form** — `Content.Normal`: at every depth, no text follows text in a child list, no
     text is empty, numbers are those of scalars (and no zeros, when zeros are dropped), a text
     body is single if and only if it has a single entry, and what a body took from the attributes
     is not among them any more.
  2. **Half-built lists** — `ChildList.Sound` is what adding a piece preserves (`sound_add`): the
     normal form of the entries so far, seen from the last one, with texts still scalars.  Dropped
     blanks and tags add nothing, and the items of fragments are added where the fragment stands,
     so they cannot break it.
  3. **Tags** — normal children make normal primitives (`normal_primitive?`).
  4. **The walk** — whatever components render, and whatever else they do, what is compiled is
     normal (`compile_normal`), by induction on how deep the walk may still go.
-/
import Mathlib.Data.List.Chain
import Folio.Compile.Document
import Folio.Proofs.Expansion
import Folio.Proofs.Yields

namespace Folio

variable {κ α : Type} {m : Type → Type} [Monad m] [Journal m] {dropZero : Bool}

/-! ## Normal form -/

/-- The entries that a body is made of; an image has none. -/
def Body.entries : Body α → List α
  | .list _ items => items
  | .single only => [only]
  | .runs items => items
  | .image _ => []
  | .table rows _ _ => rows

/-- Whether the body is that of a text. -/
def Body.isText : Body α → Bool
  | .single _ | .runs _ => true
  | _ => false

/-- Whether the body is a text with its only entry on its own. -/
def Body.isSingle : Body α → Bool
  | .single _ => true
  | _ => false

/-- The keys that a body takes from the attributes of its tag. -/
def Body.taken : Body α → List String
  | .image _ => ["src"]
  | .table .. => ["headerRows", "widths"]
  | _ => []

namespace Content

/-- The child list of an entry. -/
def entries : Content → List Content
  | .text _ => []
  | .row cells => cells
  | .fragment body _ => body.entries

def isText : Content → Bool
  | .text _ => true
  | _ => false

/-- One of two neighbours at least is no text. -/
def Apart (one next : Content) : Prop := ¬(one.isText = true ∧ next.isText = true)

end Content

/-- A text that is no empty string; if it is a number, then one that a scalar can be. -/
def TextValue.Normal (dropZero : Bool) : TextValue → Prop
  | .string s => s ≠ ""
  | .number n =>
    ((∃ k : Int64, n = .ofInt64 k) ∨ ∃ x finite, n = .float x finite) ∧
      (dropZero = true → n.isZero = false)

/-- The normal form of one entry, its child list included, not what is in the entries of that. -/
structure Content.Tidy (dropZero : Bool) (content : Content) : Prop where
  apart : content.entries.IsChain Content.Apart
  texts : ∀ value, .text value ∈ content.entries → value.Normal dropZero
  single : ∀ body attributes, content = .fragment body attributes → body.isText = true →
    (body.isSingle = true ↔ body.entries.length = 1)
  taken : ∀ body attributes, content = .fragment body attributes →
    ∀ key ∈ body.taken, attributes.get? key = none

/-- The normal form at every depth. -/
inductive Content.Normal (dropZero : Bool) : Content → Prop
  | intro {content} : content.Tidy dropZero →
      (∀ entry ∈ content.entries, Content.Normal dropZero entry) → Content.Normal dropZero content

/-- The fragment that sections are. -/
def Content.IsStack (content : Content) : Prop :=
  ∃ items attributes, content = .fragment (.list .stack items) attributes

/-- Every section is a stack in normal form. -/
def Definition.Normal (dropZero : Bool) (definition : Definition) : Prop :=
  ∀ slot content, definition.section? slot = some content →
    content.IsStack ∧ content.Normal dropZero

/-! ## Texts of scalars -/

theorem NumeralStyle.decimal_ne_nil (style : NumeralStyle) (d : Decimal) :
    style.decimal d ≠ [] := by
  unfold NumeralStyle.decimal
  split
  · unfold positional
    have hdigits : d.digits ≠ [] := Nat.toDigits_ne_nil
    split
    · exact List.cons_ne_nil _ _
    · simp only
      split
      · simp [hdigits]
      · simp
  · simp [scientific]

theorem Double.text_ne_empty (x : Double) : x.text ≠ "" := by
  unfold Double.text
  split
  · decide
  · split
    · split <;> decide
    · have hdigits := NumeralStyle.plain.decimal_ne_nil (x.shortest NumeralStyle.plain.tie)
      have hdouble : NumeralStyle.plain.double x ≠ [] := by
        unfold NumeralStyle.double
        split
        · split <;> decide
        · simp only
          split
          · exact List.cons_ne_nil _ _
          · exact hdigits
      simp [hdouble]

/-- What is not blank has a text. -/
theorem Scalar.text_ne_empty {scalar : Scalar} (h : scalar.isBlank dropZero = false) :
    scalar.text ≠ "" := by
  cases scalar with
  | string s =>
    rintro rfl
    cases h
  | int n =>
    show n.toInt.repr ≠ ""
    cases n.toInt with
    | ofNat k => exact Nat.repr_ne_empty
    | negSucc k => simp [Int.repr]
  | float x => exact x.text_ne_empty
  | bool b => cases h

/-- What is not blank stands alone as a normal text. -/
theorem TextValue.normal_ofScalar {scalar : Scalar} (h : scalar.isBlank dropZero = false) :
    (TextValue.ofScalar scalar).Normal dropZero := by
  cases scalar with
  | string s => exact Scalar.text_ne_empty h
  | int n =>
    refine ⟨.inl ⟨n, rfl⟩, fun hdrop => ?_⟩
    rw [Scalar.isBlank, hdrop, Bool.true_and] at h
    exact h
  | float x =>
    rw [Scalar.isBlank, Bool.or_eq_false_iff] at h
    rw [TextValue.ofScalar, Number.ofDouble?]
    by_cases hfinite : x.isFinite = true
    · rw [dif_pos hfinite]
      refine ⟨.inr ⟨x, hfinite, rfl⟩, fun hdrop => ?_⟩
      rw [hdrop, Bool.true_and] at h
      exact h.2
    · rw [dif_neg hfinite]
      exact x.text_ne_empty
  | bool b => cases h

/-! ## Half-built lists -/

/-- A piece that may be added to a list. -/
def Piece.Normal (dropZero : Bool) : Piece → Prop
  | .text scalar => scalar.isBlank dropZero = false
  | .content entry => entry.isText = false ∧ entry.Normal dropZero

/-- The list so far will finish in normal form. -/
structure ChildList.Sound (dropZero : Bool) (list : ChildList) : Prop where
  apart : (list.reversed.map Piece.toContent).IsChain Content.Apart
  pieces : ∀ piece ∈ list.reversed, piece.Normal dropZero

namespace ChildList

theorem sound_empty : Sound dropZero {} := ⟨.nil, nofun⟩

theorem sound_cons {piece : Piece} {pieces : List Piece} :
    Sound dropZero ⟨piece :: pieces⟩ ↔
      piece.Normal dropZero ∧
      (∀ next ∈ (pieces.map Piece.toContent).head?, Content.Apart piece.toContent next) ∧
      Sound dropZero ⟨pieces⟩ := by
  constructor
  · intro h
    have hapart := h.apart
    rw [List.map_cons, List.isChain_cons] at hapart
    have hpieces := List.forall_mem_cons.1 h.pieces
    exact ⟨hpieces.1, hapart.1, hapart.2, hpieces.2⟩
  · rintro ⟨hpiece, hnext, hpieces⟩
    constructor
    · rw [List.map_cons, List.isChain_cons]
      exact ⟨hnext, hpieces.apart⟩
    · exact List.forall_mem_cons.2 ⟨hpiece, hpieces.pieces⟩

theorem sound_pushText {list : ChildList} {scalar : Scalar} (h : list.Sound dropZero)
    (hscalar : scalar.isBlank dropZero = false) : (list.pushText scalar).Sound dropZero := by
  obtain ⟨reversed⟩ := list
  unfold pushText
  split
  · -- merged with the text before it, which stands apart from its neighbour as before
    rename_i previous rest hreversed
    obtain rfl : reversed = .text previous :: rest := hreversed
    obtain ⟨hprevious, hnext, hrest⟩ := sound_cons.1 h
    have htext : previous.text ≠ "" := Scalar.text_ne_empty hprevious
    have hmerged : (Piece.text (.string (previous.text ++ scalar.text))).Normal dropZero := by
      simp [Piece.Normal, Scalar.isBlank, htext]
    exact sound_cons.2 ⟨hmerged, hnext, hrest⟩
  · -- nothing to merge with: the entry before it, if there is one, is no text
    rename_i hnotText
    refine sound_cons.2 ⟨hscalar, fun next hnext hboth => ?_, h⟩
    cases reversed with
    | nil => cases hnext
    | cons last rest =>
      cases hnext
      cases last with
      | text previous => exact hnotText previous rest rfl
      | content entry =>
        obtain ⟨hentry, -⟩ := sound_cons.1 h
        exact absurd (hentry.1.symm.trans hboth.2) Bool.false_ne_true

theorem sound_push {list : ChildList} {entry : Content} (h : list.Sound dropZero)
    (hentry : (Piece.content entry).Normal dropZero) : (list.push entry).Sound dropZero := by
  refine sound_cons.2 ⟨hentry, fun next _ hboth => ?_, h⟩
  exact absurd (hentry.1.symm.trans hboth.1) Bool.false_ne_true

/-- **Adding a piece** keeps the list sound. -/
theorem sound_add {list : ChildList} {piece : Piece} (h : list.Sound dropZero)
    (hpiece : piece.Normal dropZero) : (list.add piece).Sound dropZero := by
  cases piece with
  | text scalar => exact sound_pushText h hpiece
  | content entry => exact sound_push h hpiece

end ChildList

/-- The entries are those of a list in normal form. -/
structure NormalEntries (dropZero : Bool) (entries : List Content) : Prop where
  apart : entries.IsChain Content.Apart
  texts : ∀ value, .text value ∈ entries → value.Normal dropZero
  normal : ∀ entry ∈ entries, entry.Normal dropZero

theorem normalEntries_nil : NormalEntries dropZero [] :=
  ⟨.nil, fun _ hvalue => absurd hvalue List.not_mem_nil,
    fun _ hentry => absurd hentry List.not_mem_nil⟩

theorem Content.normal_text (value : TextValue) : (Content.text value).Normal dropZero :=
  have hentries : NormalEntries dropZero (Content.text value).entries := normalEntries_nil
  .intro ⟨hentries.apart, hentries.texts, nofun, nofun⟩ hentries.normal

/-- **A sound list** finishes in normal form. -/
theorem ChildList.normalEntries_finish {list : ChildList} (h : list.Sound dropZero) :
    NormalEntries dropZero list.finish := by
  have hmem (entry : Content) (hentry : entry ∈ list.finish) :
      ∃ piece : Piece, piece.Normal dropZero ∧ piece.toContent = entry := by
    obtain ⟨piece, hpiece, heq⟩ := List.mem_map.1 (List.mem_reverse.1 hentry)
    exact ⟨piece, h.pieces piece hpiece, heq⟩
  constructor
  · -- `Apart` does not care for the order
    rw [finish, List.isChain_reverse]
    exact h.apart.imp fun one next hone hboth => hone ⟨hboth.2, hboth.1⟩
  · intro value hvalue
    obtain ⟨piece, hpiece, heq⟩ := hmem _ hvalue
    cases piece with
    | text scalar =>
      cases heq
      exact TextValue.normal_ofScalar hpiece
    | content entry =>
      obtain rfl : entry = .text value := heq
      cases hpiece.1
  · intro entry hentry
    obtain ⟨piece, hpiece, rfl⟩ := hmem _ hentry
    cases piece with
    | text scalar => exact Content.normal_text _
    | content entry => exact hpiece.2

theorem ChildList.sound_foldl {pieces : List Piece} :
    ∀ {list : ChildList}, list.Sound dropZero → (∀ piece ∈ pieces, piece.Normal dropZero) →
      (pieces.foldl ChildList.add list).Sound dropZero := by
  induction pieces with
  | nil => exact fun hlist _ => hlist
  | cons piece rest ih =>
    intro list hlist hpieces
    have hfirst := sound_add hlist (hpieces piece List.mem_cons_self)
    exact ih hfirst fun other hother => hpieces other (List.mem_cons_of_mem _ hother)

/-- **The child list** of normal pieces is in normal form. -/
theorem normalEntries_coalesce {pieces : List Piece} (h : ∀ piece ∈ pieces, piece.Normal dropZero) :
    NormalEntries dropZero (coalesce pieces) :=
  ChildList.normalEntries_finish (ChildList.sound_foldl ChildList.sound_empty h)

/-! ## Tags -/

namespace Body

@[simp] theorem entries_ofRuns (items : List α) : (ofRuns items).entries = items := by
  unfold ofRuns
  split <;> rfl

/-- A text body is single exactly when it is made of one entry. -/
theorem isSingle_ofRuns (items : List α) :
    (ofRuns items).isSingle = true ↔ items.length = 1 := by
  constructor
  · intro h
    unfold ofRuns at h
    split at h
    · rfl
    · cases h
  · intro h
    obtain ⟨only, rfl⟩ := List.length_eq_one_iff.1 h
    rfl

@[simp] theorem taken_ofRuns (items : List α) : (ofRuns items).taken = [] := by
  unfold ofRuns
  split <;> rfl

end Body

theorem Content.normal_row {cells : List Content} (h : NormalEntries dropZero cells) :
    (Content.row cells).Normal dropZero :=
  .intro ⟨h.apart, h.texts, nofun, nofun⟩ h.normal

theorem Content.normal_fragment {body : Body Content} {attributes : Attributes}
    (h : NormalEntries dropZero body.entries)
    (hsingle : body.isText = true → (body.isSingle = true ↔ body.entries.length = 1))
    (htaken : ∀ key ∈ body.taken, attributes.get? key = none) :
    (Content.fragment body attributes).Normal dropZero := by
  refine .intro ⟨h.apart, h.texts, ?_, ?_⟩ h.normal
  · rintro _ _ ⟨⟩
    exact hsingle
  · rintro _ _ ⟨⟩
    exact htaken

theorem Content.normal_list {kind : ListKind} {items : List Content} {attributes : Attributes}
    (h : NormalEntries dropZero items) :
    (Content.fragment (.list kind items) attributes).Normal dropZero :=
  normal_fragment h nofun nofun

/-- **The primitive of a tag** is in normal form if its children are; a section is a stack. -/
theorem normal_primitive? {name : TagName} {attributes : Attributes} {children : List Content}
    {content : Content} (h : NormalEntries dropZero children)
    (hprimitive : primitive? name attributes children = some content) :
    content.isText = false ∧ content.Normal dropZero ∧
      (name.isSection = true → content.IsStack) := by
  cases name with
  | document => cases hprimitive
  | unknown name => cases hprimitive
  | header | content | footer | stack | group | column | cell =>
    cases hprimitive
    exact ⟨rfl, Content.normal_list h, fun _ => ⟨children, attributes, rfl⟩⟩
  | columns | ul | ol =>
    cases hprimitive
    exact ⟨rfl, Content.normal_list h, nofun⟩
  | row =>
    cases hprimitive
    exact ⟨rfl, Content.normal_row h, nofun⟩
  | text =>
    cases hprimitive
    refine ⟨rfl, Content.normal_fragment ?_ ?_ ?_, nofun⟩
    · rw [Body.entries_ofRuns]
      exact h
    · intro _
      rw [Body.entries_ofRuns]
      exact Body.isSingle_ofRuns children
    · rw [Body.taken_ofRuns]
      exact fun _ hkey => absurd hkey List.not_mem_nil
  | image =>
    cases hprimitive
    refine ⟨rfl, Content.normal_fragment normalEntries_nil nofun ?_, nofun⟩
    intro key hkey
    obtain rfl := List.mem_singleton.1 hkey
    simp
  | table =>
    cases hprimitive
    refine ⟨rfl, Content.normal_fragment h nofun ?_, nofun⟩
    intro key hkey
    obtain rfl | hkey := List.mem_cons.1 hkey
    · simp
    · obtain rfl := List.mem_singleton.1 hkey
      simp

/-! ## The walk -/

section Walk

variable [LawfulMonad m] {library : Library κ m} {options : Options}

/-- What the children of a tag yield. -/
def Pieces (dropZero : Bool) (pieces : List Piece) : Prop :=
  ∀ piece ∈ pieces, piece.Normal dropZero

/-- What a tag compiles to, if it is not dropped. -/
def Compiled (dropZero top : Bool) (compiled : Option Content) : Prop :=
  ∀ content ∈ compiled,
    content.isText = false ∧ content.Normal dropZero ∧ (top = true → content.IsStack)

omit [Journal m] in
theorem yields_collect {pieces : α → ExceptT CompileError m (List Piece)}
    (h : ∀ item, Yields (Pieces dropZero) (pieces item)) (items : List α) :
    Yields (Pieces dropZero) (collect pieces items) := by
  induction items with
  | nil => exact .pure fun _ hpiece => absurd hpiece List.not_mem_nil
  | cons item rest ih =>
    refine (h item).bind fun first hfirst => ih.bind fun others hothers => .pure ?_
    intro piece hpiece
    rcases List.mem_append.1 hpiece with hpiece | hpiece
    · exact hfirst piece hpiece
    · exact hothers piece hpiece

theorem yields_compileTagWith
    {pieces : Element κ → ExceptT CompileError m (List Piece)}
    (h : ∀ element, Yields (Pieces options.dropZero) (pieces element)) (top : Bool) (tag : Tag κ) :
    Yields (Compiled options.dropZero top) (compileTagWith pieces options top tag) := by
  unfold compileTagWith
  cases hplacement : placement options top tag.head with
  | reject error => exact .throw error
  | drop name => exact .after fun _ => .pure nofun
  | keep =>
    refine (yields_collect h tag.children).bind fun children hchildren => .pure ?_
    intro content hcontent
    obtain ⟨htext, hnormal, hstack⟩ :=
      normal_primitive? (normalEntries_coalesce hchildren) hcontent
    refine ⟨htext, hnormal, fun htop => hstack ?_⟩
    -- placement lets nothing but sections stand directly in the document
    rw [htop] at hplacement
    exact isSection_of_keep hplacement

/-- **Below a section**, an element yields normal pieces. -/
theorem yields_childPieces (limit : Nat) : ∀ (context : Context) (element : Element κ),
    Yields (Pieces options.dropZero) (childPieces library options limit context element) := by
  induction limit with
  | zero => exact fun _ _ => .throw .tooDeep
  | succ limit ih =>
    intro context element
    -- nothing is known of what a chain of components ends in, and nothing needs to be
    refine .after fun (resolved, inner) => ?_
    cases resolved with
    | empty => exact .pure nofun
    | leaf scalar =>
      refine .pure fun piece hpiece => ?_
      split at hpiece
      · cases hpiece
      · rename_i hblank
        obtain rfl := List.mem_singleton.1 hpiece
        exact Bool.eq_false_iff.2 hblank
    | fragment items => exact yields_collect (ih inner) items
    | tag tag =>
      refine (yields_compileTagWith (ih inner) false tag).bind fun compiled hcompiled => ?_
      cases compiled with
      | none => exact .pure nofun
      | some content =>
        obtain ⟨htext, hnormal, -⟩ := hcompiled content rfl
        refine .pure fun piece hpiece => ?_
        obtain rfl := List.mem_singleton.1 hpiece
        exact ⟨htext, hnormal⟩

theorem Definition.section?_setSection (definition : Definition) (slot slot' : Slot)
    (content : Content) :
    (definition.setSection slot content).section? slot' =
      if slot = slot' then some content else definition.section? slot' := by
  cases slot <;> cases slot' <;> rfl

theorem Definition.normal_setSection (slot : Slot) {definition : Definition} {content : Content}
    (h : definition.Normal dropZero) (hstack : content.IsStack)
    (hcontent : content.Normal dropZero) :
    (definition.setSection slot content).Normal dropZero := by
  intro slot' content' hsection
  rw [Definition.section?_setSection] at hsection
  split at hsection
  · cases hsection
    exact ⟨hstack, hcontent⟩
  · exact h slot' content' hsection

/-- The settings leave the sections as they are. -/
theorem section?_addSettings (attributes : Attributes) (definition : Definition) (slot : Slot) :
    (addSettings options attributes definition).section? slot = definition.section? slot := by
  cases slot <;> rfl

theorem yields_placeSection (slot : Slot) {content : Content} {definition : Definition}
    (h : definition.Normal dropZero) (hstack : content.IsStack)
    (hcontent : content.Normal dropZero) :
    Yields (Definition.Normal dropZero)
      (placeSection slot content definition : ExceptT CompileError m Definition) := by
  have hplaced := Definition.normal_setSection slot h hstack hcontent
  unfold placeSection
  split
  · exact .after fun _ => .pure hplaced
  · exact .pure hplaced

omit [Journal m] in
theorem yields_thread {step : α → Definition → ExceptT CompileError m Definition}
    (h : ∀ item definition, definition.Normal dropZero →
      Yields (Definition.Normal dropZero) (step item definition)) (items : List α) :
    ∀ definition, definition.Normal dropZero →
      Yields (Definition.Normal dropZero) (thread step items definition) := by
  induction items with
  | nil => exact fun definition hdefinition => .pure hdefinition
  | cons item rest ih =>
    intro definition hdefinition
    exact (h item definition hdefinition).bind ih

/-- **Directly in the document**, an element adds sections in normal form. -/
theorem yields_addSections (limit : Nat) : ∀ (context : Context) (element : Element κ)
    (definition : Definition), definition.Normal options.dropZero →
    Yields (Definition.Normal options.dropZero)
      (addSections library options limit context element definition) := by
  induction limit with
  | zero => exact fun _ _ _ _ => .throw .tooDeep
  | succ limit ih =>
    intro context element definition hdefinition
    refine .after fun (resolved, inner) => ?_
    cases resolved with
    | empty => exact .pure hdefinition
    | leaf scalar =>
      show Yields _ (if scalar.isBlank options.dropZero then _ else _)
      split
      · exact .pure hdefinition
      · exact .throw _
    | fragment items => exact yields_thread (ih inner) items definition hdefinition
    | tag tag =>
      have htag : Yields (Compiled options.dropZero true)
          (compileTagWithin library options limit inner true tag) :=
        yields_compileTagWith (yields_childPieces limit inner) true tag
      refine htag.bind fun compiled hcompiled => ?_
      cases compiled with
      | none => exact .pure hdefinition
      | some content =>
        obtain ⟨-, hnormal, hstack⟩ := hcompiled content rfl
        exact yields_placeSection _ hdefinition (hstack rfl) hnormal

theorem Definition.normal_empty : Definition.Normal dropZero {} := by
  intro slot content hsection
  cases slot <;> cases hsection

theorem yields_compileWithin (limit : Nat) (context : Context) (root : Element κ) :
    Yields (Definition.Normal options.dropZero)
      (compileWithin library options limit context root) := by
  refine .after fun (resolved, inner) => ?_
  cases resolved with
  | tag tag =>
    obtain ⟨name, attributes, children⟩ := tag
    cases name with
    | document =>
      have hthread : Yields (Definition.Normal options.dropZero)
          (thread (addSections library options limit inner) children {}) :=
        yields_thread (yields_addSections limit inner) children {} Definition.normal_empty
      refine hthread.bind fun sections hsections => .after fun _ => .pure ?_
      intro slot content hsection
      rw [section?_addSettings] at hsection
      exact hsections slot content hsection
    | _ => exact .throw _
  | _ => exact .throw _

end Walk

/-- **What compiles is in normal form**, with whatever components, in whatever context: the
    definition of a tree, and the content of a tag.  The body of a text is made of the compiled
    children, and is single exactly when there is one of them. -/
theorem compile_normal [LawfulMonad m] (library : Library κ m) (options : Options)
    (context : Context) :
    (∀ root, Yields (Definition.Normal options.dropZero) (compile library options context root)) ∧
    (∀ top tag, Yields (fun compiled => ∀ content ∈ compiled, content.Normal options.dropZero)
      (compileTag library options context top tag)) ∧
    (∀ attributes children,
      compileTag library options context false ⟨.text, attributes, children⟩ =
        (fun items => some (.fragment (.ofRuns items) attributes)) <$>
          compileChildren library options (Element.heightAll children + library.reach) context
            children) ∧
    ∀ items : List Content, (Body.ofRuns items).entries = items ∧
      ((Body.ofRuns items).isSingle = true ↔ items.length = 1) := by
  refine ⟨fun root => yields_compileWithin _ context root, fun top tag => ?_,
    fun attributes children => ?_, fun items => ⟨Body.entries_ofRuns items, ?_⟩⟩
  · have htag : Yields (Compiled options.dropZero top)
        (compileTag library options context top tag) :=
      yields_compileTagWith (yields_childPieces _ context) top tag
    exact htag.mono fun compiled hcompiled content hcontent => (hcompiled content hcontent).2.1
  · rw [compileChildren, ← comp_map, ← bind_pure_comp]
    rfl
  · exact Body.isSingle_ofRuns items

/-- What the themed page compiles to is in normal form. -/
theorem compile_normal_themedPage :
    compile themed { defaultStyle := none } ∅ themedPage = pure themedDefinition ∧
    themedDefinition.Normal true := by
  have hnormal := (compile_normal themed { defaultStyle := none } ∅).1 themedPage
  exact ⟨rfl, yields_id_iff.1 hnormal themedDefinition rfl⟩

end Folio
