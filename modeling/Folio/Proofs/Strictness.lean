/-
  Strictness only adds rejections.

  Under lenient options a tag outside the vocabulary is left out with a message, under strict ones
  it is an error.  The two runs go on differently from there, but up to there they are one: the
  strict run is the lenient run, halted at the first message of that kind.

  1. **Kept messages** — `Noted` is the monad of runs whose messages are kept.  An error ends a
     run, so what such a run has noted came before its error.
  2. **Halting** — `halted strict run` is the run, ended by an error where it first drops a tag if
     that is to be `strict`.  Halting goes through every way to build a run (`halted_bind` and so
     on).
  3. **The walk** — compiling under any options is compiling under lenient ones, halted
     accordingly (`halted_compile`): for options that are lenient themselves this says that
     keeping messages changes nothing, and for strict ones it is the point (`compile_strict`).
-/
import Folio.Proofs.Pruning

namespace Folio

variable {κ α β : Type}

/-! ## Kept messages -/

/-- A run whose messages are kept. -/
structure Noted (α : Type) where
  messages : List Message
  result : α

namespace Noted

instance : Monad Noted where
  pure value := ⟨[], value⟩
  bind run next :=
    ⟨run.messages ++ (next run.result).messages, (next run.result).result⟩

instance : Journal Noted := ⟨fun message => ⟨[message], ()⟩⟩

end Noted

/-- The library of pure components in runs whose messages are kept. -/
def Library.noted (library : Library κ Id) : Library κ Noted where
  name := library.name
  render component props context := pure (library.render component props context)
  reach := library.reach

/-- The tag that a message says is left out. -/
def Message.dropped? : Message → Option String
  | .droppedTag name => some name
  | _ => none

/-- The first tag that is left out in a run. -/
def firstDropped? (run : ExceptT CompileError Noted α) : Option String :=
  run.run.messages.findSome? Message.dropped?

/-! ## Halting -/

/-- The tag that ends a run, if dropping tags is to end it. -/
def haltedAt? (strict : Bool) (run : ExceptT CompileError Noted α) : Option String :=
  if strict then firstDropped? run else none

/-- The run as far as it goes: if it is to be strict, it ends where it first drops a tag. -/
def halted (strict : Bool) (run : ExceptT CompileError Noted α) : ExceptT CompileError Id α :=
  match haltedAt? strict run with
  | some name => throw (.unknownTag name)
  | none => ExceptT.mk run.run.result

variable {strict : Bool} {run : ExceptT CompileError Noted α}

theorem halted_of_some {name : String} (h : haltedAt? strict run = some name) :
    halted strict run = throw (.unknownTag name) := by
  rw [halted, h]

theorem halted_of_none (h : haltedAt? strict run = none) :
    halted strict run = ExceptT.mk run.run.result := by
  rw [halted, h]

/-- A run without messages is not halted. -/
theorem halted_of_silent (h : run.run.messages = []) :
    halted strict run = ExceptT.mk run.run.result := by
  apply halted_of_none
  rw [haltedAt?, firstDropped?, h]
  cases strict <;> rfl

theorem halted_pure (value : α) : halted strict (pure value) = pure value := halted_of_silent rfl

theorem halted_throw (error : CompileError) :
    halted strict (throw error : ExceptT CompileError Noted α) = throw error :=
  halted_of_silent rfl

/-- The messages of two runs in a row; a run that fails does not get to the next one. -/
theorem messages_bind (run : ExceptT CompileError Noted α)
    (next : α → ExceptT CompileError Noted β) :
    (run >>= next).run.messages = run.run.messages ++
      (match run.run.result with
        | .ok value => (next value).run.messages
        | .error _ => []) := by
  show run.run.messages ++ (ExceptT.bindCont next run.run.result).messages = _
  cases run.run.result <;> rfl

theorem result_bind (run : ExceptT CompileError Noted α)
    (next : α → ExceptT CompileError Noted β) :
    (run >>= next).run.result = (run.run.result >>= fun value => (next value).run.result) := by
  show (ExceptT.bindCont next run.run.result).result = _
  cases run.run.result <;> rfl

/-- A tag that ends two runs in a row is dropped in the first, or else in the second. -/
theorem haltedAt?_bind (run : ExceptT CompileError Noted α)
    (next : α → ExceptT CompileError Noted β) :
    haltedAt? strict (run >>= next) = (haltedAt? strict run).or
      (match run.run.result with
        | .ok value => haltedAt? strict (next value)
        | .error _ => none) := by
  cases strict with
  | false => cases run.run.result <;> rfl
  | true =>
    show firstDropped? (run >>= next) = (firstDropped? run).or _
    rw [firstDropped?, messages_bind, List.findSome?_append]
    cases run.run.result <;> rfl

/-- **Halting goes through a sequence of runs.**  A run that is halted, or fails, does not get to
    the next one. -/
theorem halted_bind (run : ExceptT CompileError Noted α)
    (next : α → ExceptT CompileError Noted β) :
    halted strict (run >>= next) = halted strict run >>= fun value => halted strict (next value) := by
  unfold halted
  rw [haltedAt?_bind, result_bind]
  cases haltedAt? strict run with
  | some name => rfl
  | none => cases run.run.result <;> rfl

/-- A message that drops no tag halts nothing. -/
theorem halted_note {message : Message} (h : message.dropped? = none)
    (run : ExceptT CompileError Noted α) :
    halted strict (do note message; run) = halted strict run := by
  have hnote : halted strict (note message : ExceptT CompileError Noted Unit) = pure () := by
    apply halted_of_none
    cases strict with
    | false => rfl
    | true => exact (List.findSome?_singleton).trans h
  rw [halted_bind, hnote]
  rfl

/-! ## The walk -/

section Walk

variable {library : Library κ Id} {options : Options}

/-- The options, but lenient. -/
abbrev Options.relaxed (options : Options) : Options := { options with strictTags := false }

theorem halted_expand (composite : Composite κ) (context : Context) :
    halted strict (liftM (library.noted.expand composite context)) =
      (liftM (library.expand composite context) : ExceptT CompileError Id _) := by
  apply halted_of_none
  cases strict <;> rfl

theorem halted_follow_empty {limit : Nat} (depth : Nat) (context : Context) :
    halted strict (follow library.noted limit depth .empty context) =
      follow library limit depth .empty context := by
  unfold follow
  by_cases hdepth : depth ≠ 0
  · simp only [if_pos hdepth]
    exact (halted_note rfl _).trans (halted_pure _)
  · simp only [if_neg hdepth]
    exact halted_pure _

/-- A chain of components drops no tag. -/
theorem halted_follow (limit : Nat) : ∀ (depth : Nat) (element : Element κ) (context : Context),
    halted strict (follow library.noted limit depth element context) =
      follow library limit depth element context := by
  -- nothing but the links takes up the limit
  induction limit with
  | zero =>
    intro depth element context
    cases element with
    | empty => exact halted_follow_empty depth context
    | composite => exact halted_throw .tooDeep
    | _ => exact halted_pure _
  | succ limit ih =>
    intro depth element context
    cases element with
    | empty => exact halted_follow_empty depth context
    | composite component attributes children =>
      unfold follow
      rw [halted_bind, halted_expand]
      refine bind_congr fun reached => ?_
      obtain ⟨next, inner⟩ := reached
      exact ih (depth + 1) next inner
    | _ => exact halted_pure _

theorem halted_collect {yields : α → ExceptT CompileError Noted (List Piece)}
    {yields' : α → ExceptT CompileError Id (List Piece)}
    (h : ∀ item, halted strict (yields item) = yields' item) (items : List α) :
    halted strict (collect yields items) = collect yields' items := by
  induction items with
  | nil => exact halted_pure []
  | cons item rest ih =>
    unfold collect
    rw [halted_bind, h item]
    refine bind_congr fun first => ?_
    rw [halted_bind, ih]
    exact bind_congr fun others => halted_pure _

/-- **A tag** that is dropped ends the run if the options are strict. -/
theorem halted_compileTagWith {yields : Element κ → ExceptT CompileError Noted (List Piece)}
    {yields' : Element κ → ExceptT CompileError Id (List Piece)}
    (h : ∀ child, halted options.strictTags (yields child) = yields' child) (top : Bool)
    (tag : Tag κ) :
    halted options.strictTags (compileTagWith yields options.relaxed top tag) =
      compileTagWith yields' options top tag := by
  unfold compileTagWith
  cases hknown : tag.head.isKnown with
  | false =>
    obtain ⟨text, hunknown⟩ := TagName.eq_unknown_of_not_isKnown hknown
    rw [hunknown, placement, placement]
    cases options.strictTags with
    | true => exact halted_of_some rfl
    | false => exact halted_of_none rfl
  | true =>
    rw [placement_of_isKnown hknown options.relaxed options]
    cases hplacement : placement options top tag.head with
    | reject error => exact halted_throw error
    | drop name => cases hknown.symm.trans (isKnown_of_drop hplacement)
    | keep =>
      show halted _ (_ >>= _) = (_ >>= _)
      rw [halted_bind, halted_collect h]
      exact bind_congr fun children => halted_pure _

/-- **Below a section.** -/
theorem halted_childPieces (limit : Nat) : ∀ (context : Context) (element : Element κ),
    halted options.strictTags
        (childPieces library.noted options.relaxed limit context element) =
      childPieces library options limit context element := by
  induction limit with
  | zero => exact fun _ _ => halted_throw .tooDeep
  | succ limit ih =>
    intro context element
    unfold childPieces resolve
    rw [halted_bind, halted_follow]
    refine bind_congr fun (resolved, inner) => ?_
    cases resolved with
    | empty => exact halted_pure []
    | leaf scalar => exact halted_pure _
    | fragment items => exact halted_collect (ih inner) items
    | tag tag =>
      show halted _ (_ >>= _) = (_ >>= _)
      rw [halted_bind, halted_compileTagWith (ih inner)]
      refine bind_congr fun compiled => ?_
      cases compiled <;> exact halted_pure _

theorem halted_thread {step : α → Definition → ExceptT CompileError Noted Definition}
    {step' : α → Definition → ExceptT CompileError Id Definition}
    (h : ∀ item definition, halted strict (step item definition) = step' item definition)
    (items : List α) : ∀ definition,
    halted strict (thread step items definition) = thread step' items definition := by
  induction items with
  | nil => exact fun definition => halted_pure definition
  | cons item rest ih =>
    intro definition
    unfold thread
    rw [halted_bind, h item definition]
    exact bind_congr ih

theorem halted_placeSection (slot : Slot) (content : Content) (definition : Definition) :
    halted strict (placeSection slot content definition) =
      placeSection slot content definition := by
  unfold placeSection
  split
  · exact (halted_note rfl _).trans (halted_pure _)
  · exact halted_pure _

/-- **Directly in the document.** -/
theorem halted_addSections (limit : Nat) : ∀ (context : Context) (element : Element κ)
    (definition : Definition),
    halted options.strictTags
        (addSections library.noted options.relaxed limit context element definition) =
      addSections library options limit context element definition := by
  induction limit with
  | zero => exact fun _ _ _ => halted_throw .tooDeep
  | succ limit ih =>
    intro context element definition
    unfold addSections resolve
    rw [halted_bind, halted_follow]
    refine bind_congr fun (resolved, inner) => ?_
    cases resolved with
    | empty => exact halted_pure definition
    | leaf scalar =>
      show halted _ (if scalar.isBlank options.dropZero then _ else _) =
        if scalar.isBlank options.dropZero then _ else _
      split
      · exact halted_pure definition
      · exact halted_throw _
    | fragment items => exact halted_thread (ih inner) items definition
    | tag tag =>
      show halted _ (_ >>= _) = (_ >>= _)
      have htag : halted options.strictTags
          (compileTagWithin library.noted options.relaxed limit inner true tag) =
            compileTagWithin library options limit inner true tag :=
        halted_compileTagWith (halted_childPieces limit inner) true tag
      rw [halted_bind, htag]
      refine bind_congr fun compiled => ?_
      cases compiled with
      | none => exact halted_pure definition
      | some content => exact halted_placeSection _ content definition

/-- **Compiling under any options** is compiling under lenient ones, halted accordingly. -/
theorem halted_compile (library : Library κ Id) (options : Options) (context : Context)
    (root : Element κ) :
    halted options.strictTags (compile library.noted options.relaxed context root) =
      compile library options context root := by
  unfold compile compileWithin resolve
  rw [halted_bind, halted_follow]
  refine bind_congr fun (resolved, inner) => ?_
  cases resolved with
  | tag tag =>
    obtain ⟨name, attributes, children⟩ := tag
    cases name with
    | document =>
      show halted _ (_ >>= _) = (_ >>= _)
      rw [halted_bind, halted_thread (halted_addSections _ inner)]
      refine bind_congr fun sections => ?_
      exact (halted_note rfl _).trans (halted_pure _)
    | _ => exact halted_throw _
  | _ => exact halted_throw _

end Walk

/-- **Strictness only adds rejections.**  Keep the messages of a compilation under lenient options:
    they change nothing, and if they say of no tag that it is left out, compiling under strict
    options comes to the same.  Otherwise it fails with the first of these tags.  So what compiles
    strictly compiles leniently, to the same definition, and what compiles leniently fails strictly
    with an unknown tag if at all. -/
theorem compile_strict (library : Library κ Id) (options : Options) (context : Context)
    (root : Element κ) :
    let lenient := compile library { options with strictTags := false } context root
    let strict := compile library { options with strictTags := true } context root
    let noted := compile library.noted { options with strictTags := false } context root
    noted.run.result = lenient.run ∧
    (firstDropped? noted = none ∧ strict = lenient ∨
      ∃ name, firstDropped? noted = some name ∧ strict = throw (.unknownTag name)) ∧
    (∀ definition, strict = pure definition → lenient = pure definition) ∧
    ∀ definition error, lenient = pure definition → strict = throw error →
      ∃ name, error = .unknownTag name := by
  intro lenient strict noted
  have hlenient : halted false noted = lenient :=
    halted_compile library { options with strictTags := false } context root
  have hstrict : halted true noted = strict :=
    halted_compile library { options with strictTags := true } context root
  have hresult : noted.run.result = lenient.run := congrArg ExceptT.run hlenient
  have hcases : firstDropped? noted = none ∧ strict = lenient ∨
      ∃ name, firstDropped? noted = some name ∧ strict = throw (.unknownTag name) := by
    cases hdropped : firstDropped? noted with
    | none =>
      have hat : haltedAt? true noted = none := hdropped
      refine .inl ⟨rfl, ?_⟩
      rw [← hstrict, halted_of_none hat, hresult]
      rfl
    | some name =>
      have hat : haltedAt? true noted = some name := hdropped
      refine .inr ⟨name, rfl, ?_⟩
      rw [← hstrict, halted_of_some hat]
  refine ⟨hresult, hcases, fun definition hok => ?_, fun definition error hok herror => ?_⟩
  · rcases hcases with ⟨-, hsame⟩ | ⟨name, -, hthrow⟩
    · rw [← hsame, hok]
    · cases hok.symm.trans hthrow
  · rcases hcases with ⟨-, hsame⟩ | ⟨name, -, hthrow⟩
    · cases (herror.symm.trans hsame).trans hok
    · cases herror.symm.trans hthrow
      exact ⟨name, rfl⟩

-- leniently the run goes on to the stray text and fails there; strictly it does not get that far
example :
    let page : Element Empty :=
      .tag .document ∅ [.tag .content ∅ [.tag (.unknown "figure") ∅ []], .text "stray"]
    let noted := compile Library.none.noted { defaultStyle := none } ∅ page
    firstDropped? noted = some "figure" ∧
      halted true noted = throw (.unknownTag "figure") ∧
      halted false noted =
        throw (.unexpectedTopLevelChild ((Element.text "stray").describe Empty.elim)) :=
  ⟨rfl, rfl, rfl⟩

end Folio
