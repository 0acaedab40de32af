/-
  Compiling against the full expansion.

  Let the components of a library be functions, and let someone look on who is told each render as
  it happens (`Library.observed`).  Compiling an element then runs in step with the element's
  expansion, and whoever looks on makes no difference.

  1. **The relation** — `Tracks enough run goal seen`: the run ends as `goal` does, unless it is
     given up because it goes too deep, and that does not happen if there is `enough` depth; and
     if it succeeds, the observer was told `seen`, neither more nor less, in that order.  The end
     and what is told are the same for every observer.
  2. **One lemma for each way to build a run** — `Tracks.pure`, `.throw`, `.bind` and so on.
  3. **The walk** — for a chain of components (`tracks_follow`), for what is below a section
     (`tracks_childPieces`), for what is directly in the document (`tracks_addSections`), and for
     the whole (`tracks_compileWithin`).  The goal is always the expansion without its links,
     compiled by recursion on the tree; what is seen are the links that are not below a tag
     outside the vocabulary (`Expansion.renders`).
-/
import Folio.Proofs.Expansion
import Folio.Proofs.Plain

namespace Folio

variable {κ α β : Type}

/-! ## Observers -/

/-- What a component is rendered with. -/
structure Render (κ : Type) where
  component : κ
  props : Props κ
  context : Context

namespace Expansion

mutual

/-- The renders that yield the tree, from a context: first a component, then what is below it. -/
def renders (context : Context) : Expansion κ → List (Render κ)
  | .empty | .leaf _ => []
  | .tag name _ children => if name.isKnown then rendersAll context children else []
  | .fragment items => rendersAll context items
  | .composite link rendered =>
    ⟨link.component, link.props, context⟩ :: renders (context.insertAll link.provided) rendered

def rendersAll (context : Context) : List (Expansion κ) → List (Render κ)
  | [] => []
  | tree :: rest => renders context tree ++ rendersAll context rest

end

end Expansion

/-- Someone who is told each render, in a monad that keeps no messages. -/
structure Observer (κ : Type) where
  m : Type → Type
  [monad : Monad m]
  [lawful : LawfulMonad m]
  [journal : Journal m]
  silent : ∀ message, (note message : m Unit) = pure ()
  tell : Render κ → m Unit

attribute [instance] Observer.monad Observer.lawful Observer.journal

/-- The library with an observer. -/
def Library.observed (library : Library κ Id) (observer : Observer κ) : Library κ observer.m where
  name := library.name
  render component props context := do
    observer.tell ⟨component, props, context⟩
    return library.render component props context
  reach := library.reach

namespace Observer

/-- Nobody. -/
def nobody : Observer κ where
  m := Id
  silent _ := rfl
  tell _ := return

/-- Writes down what it is told. -/
def recorder : Observer κ where
  m := StateM (List (Render κ))
  silent _ := rfl
  tell render := modify (· ++ [render])

/-- Is told some renders, one after the other, before the run ends. -/
def report (observer : Observer κ) (told : List (Render κ)) (result : Except CompileError α) :
    ExceptT CompileError observer.m α :=
  ExceptT.mk do
    forM told observer.tell
    return result

variable (observer : Observer κ)

theorem report_error_bind (told : List (Render κ)) (error : CompileError)
    (next : α → ExceptT CompileError observer.m β) :
    observer.report told (.error error) >>= next = observer.report told (.error error) := by
  apply ExceptT.ext
  rw [ExceptT.run_bind]
  simp [report]

theorem report_ok_bind (told told' : List (Render κ)) (a : α)
    (next : α → ExceptT CompileError observer.m β) (result : Except CompileError β)
    (h : next a = observer.report told' result) :
    observer.report told (.ok a) >>= next = observer.report (told ++ told') result := by
  apply ExceptT.ext
  rw [ExceptT.run_bind]
  simp [report, h]

theorem report_nil (result : Except CompileError α) : observer.report [] result = settle result :=
  ExceptT.ext (pure_bind () fun _ => pure result)

theorem report_nobody (told : List (Render κ)) (result : Except CompileError α) :
    (nobody.report told result).run = result := by
  induction told with
  | nil => rfl
  | cons render rest ih => exact ih

theorem report_recorder (told before : List (Render κ)) (result : Except CompileError α) :
    (recorder.report told result).run before = (result, before ++ told) := by
  induction told generalizing before with
  | nil => rw [List.append_nil]; rfl
  | cons render rest ih =>
    rw [← List.singleton_append, ← List.append_assoc]
    exact ih (before ++ [render])

end Observer

/-! ## The relation -/

/-- A run that anyone may observe. -/
abbrev Observable (κ α : Type) := (observer : Observer κ) → ExceptT CompileError observer.m α

/-- The run ends as the goal does, or is given up for want of depth; on success `seen` is told. -/
def Tracks (enough : Prop) (run : Observable κ α) (goal : Except CompileError α)
    (seen : List (Render κ)) : Prop :=
  ∃ told result, (∀ observer, run observer = observer.report told result) ∧
    (result = goal ∨ result = .error .tooDeep ∧ ¬enough) ∧
    ∀ a, result = .ok a → told = seen

namespace Tracks

variable {enough : Prop} {seen seen' : List (Render κ)}

theorem pure (a : α) : Tracks enough (fun _ => Pure.pure a : Observable κ α) (.ok a) [] := by
  refine ⟨[], .ok a, fun observer => ?_, .inl rfl, fun _ _ => rfl⟩
  apply ExceptT.ext
  simp [Observer.report]

theorem throw (error : CompileError) :
    Tracks enough (fun _ => MonadExcept.throw error : Observable κ α) (.error error) seen := by
  refine ⟨[], .error error, fun observer => ?_, .inl rfl, fun _ h => nomatch h⟩
  apply ExceptT.ext
  simp [Observer.report]

/-- Giving up is allowed where there is not enough depth. -/
theorem tooDeep {goal : Except CompileError α} (h : ¬enough) :
    Tracks enough (fun _ => MonadExcept.throw .tooDeep) goal seen := by
  refine ⟨[], .error .tooDeep, fun observer => ?_, .inr ⟨rfl, h⟩, fun _ h => nomatch h⟩
  apply ExceptT.ext
  simp [Observer.report]

/-- Less is enough for more. -/
theorem mono {enough' : Prop} {run : Observable κ α} {goal : Except CompileError α}
    (h : Tracks enough' run goal seen) (he : enough → enough') : Tracks enough run goal seen := by
  obtain ⟨told, result, hrun, hgoal, hseen⟩ := h
  refine ⟨told, result, hrun, ?_, hseen⟩
  rcases hgoal with rfl | ⟨rfl, hn⟩
  · exact .inl rfl
  · exact .inr ⟨rfl, fun h => hn (he h)⟩

/-- Runs in sequence.  The second run only matters if the first one succeeds. -/
theorem bind {run : Observable κ α} {goal : Except CompileError α}
    {next : (observer : Observer κ) → α → ExceptT CompileError observer.m β}
    {after : α → Except CompileError β} (h : Tracks enough run goal seen)
    (hnext : ∀ a, goal = .ok a → Tracks enough (fun observer => next observer a) (after a) seen') :
    Tracks enough (fun observer => run observer >>= next observer) (goal >>= after)
      (seen ++ seen') := by
  obtain ⟨told, result, hrun, hgoal, hseen⟩ := h
  cases result with
  | error error =>
    refine ⟨told, .error error, fun observer => ?_, ?_, fun _ h => nomatch h⟩
    · show run observer >>= next observer = _
      rw [hrun observer, observer.report_error_bind]
    · rcases hgoal with rfl | ⟨h, hn⟩
      · exact .inl rfl
      · cases h
        exact .inr ⟨rfl, hn⟩
  | ok a =>
    -- a run that succeeded was not given up
    have hg : Except.ok a = goal := by
      rcases hgoal with h | ⟨h, -⟩
      · exact h
      · cases h
    subst hg
    obtain ⟨told', result', hrun', hgoal', hseen'⟩ := hnext a rfl
    refine ⟨told ++ told', result', fun observer => ?_, hgoal', fun b hb => ?_⟩
    · show run observer >>= next observer = _
      rw [hrun observer, observer.report_ok_bind told told' a _ result' (hrun' observer)]
    · rw [hseen a rfl, hseen' b hb]

/-- A first run that succeeds, and then a second. -/
theorem bind_ok {run : Observable κ α} {a : α} {goal : Except CompileError β}
    {next : (observer : Observer κ) → α → ExceptT CompileError observer.m β}
    (h : Tracks enough run (.ok a) seen)
    (hnext : Tracks enough (fun observer => next observer a) goal seen') :
    Tracks enough (fun observer => run observer >>= next observer) goal (seen ++ seen') := by
  have hbind : (Except.ok a >>= fun _ => goal) = goal := rfl
  rw [← hbind]
  refine h.bind fun b hb => ?_
  cases hb
  exact hnext

/-- A message first. -/
theorem note (message : Message) {run : Observable κ α} {goal : Except CompileError α}
    (h : Tracks enough run goal seen) :
    Tracks enough (fun observer => do Folio.note message; run observer) goal seen := by
  obtain ⟨told, result, hrun, h⟩ := h
  refine ⟨told, result, fun observer => ?_, h⟩
  rw [← hrun observer]
  apply ExceptT.ext
  show (do ExceptT.lift (Folio.note message); run observer : ExceptT _ _ _).run = _
  rw [ExceptT.run_bind_lift, observer.silent message, pure_bind]

/-- Rendering one component: it is seen, and yields what the library says. -/
theorem expand {library : Library κ Id} {component : κ} {attributes : Attributes}
    {children : List (Element κ)} {context : Context} {next : Element κ}
    {provided : List (String × Json)}
    (h : library.render component ⟨attributes, children⟩ context = ⟨next, provided⟩) :
    Tracks enough
      (fun observer =>
        liftM ((library.observed observer).expand ⟨component, attributes, children⟩ context))
      (.ok (next, context.insertAll provided)) [⟨component, ⟨attributes, children⟩, context⟩] := by
  refine ⟨[⟨component, ⟨attributes, children⟩, context⟩], .ok (next, context.insertAll provided),
    fun observer => ?_, .inl rfl, fun _ _ => rfl⟩
  have hexpand : (library.observed observer).expand ⟨component, attributes, children⟩ context =
      (do observer.tell ⟨component, ⟨attributes, children⟩, context⟩
          return (next, context.insertAll provided)) := by
    rw [Library.expand, observer.silent _, pure_bind]
    simp only [Library.observed, bind_assoc, pure_bind]
    rw [h]
  show liftM ((library.observed observer).expand _ _) = _
  rw [hexpand]
  apply ExceptT.ext
  simp [Observer.report, Except.map]

end Tracks

/-! ## Chains -/

section Walk

variable {library : Library κ Id} {options : Options}

/-- **Following a chain.**  It ends in the outcome of the expansion, in the context that the
    links leave; the links are what is seen. -/
theorem tracks_follow {context : Context} {element : Element κ} {tree : Expansion κ}
    (h : Expands library.render context element tree) :
    ∃ resolved inner outcome links,
      Expands library.render inner (Resolved.toElement resolved) outcome ∧
      outcome.element = tree.element ∧ outcome.depth ≤ tree.depth ∧
      tree.renders context = links ++ outcome.renders inner ∧
      ∀ limit depth, Tracks (tree.depth ≤ limit + 1)
        (fun observer => follow (library.observed observer) limit depth element context)
        (.ok (resolved, inner)) links := by
  cases h with
  | empty =>
    refine ⟨.empty, context, .empty, [], .empty, rfl, Nat.le_refl _, rfl, fun limit depth => ?_⟩
    unfold follow
    by_cases hd : depth ≠ 0
    · simp only [if_pos hd]
      exact Tracks.note _ (Tracks.pure _)
    · simp only [if_neg hd]
      exact Tracks.pure _
  | leaf =>
    refine ⟨.leaf _, context, .leaf _, [], .leaf, rfl, Nat.le_refl _, rfl, fun limit depth => ?_⟩
    unfold follow
    exact Tracks.pure _
  | tag hs =>
    refine ⟨.tag ⟨_, _, _⟩, context, .tag _ _ _, [], .tag hs, rfl, Nat.le_refl _, rfl,
      fun limit depth => ?_⟩
    unfold follow
    exact Tracks.pure _
  | fragment hs =>
    refine ⟨.fragment _, context, .fragment _, [], .fragment hs, rfl, Nat.le_refl _, rfl,
      fun limit depth => ?_⟩
    unfold follow
    exact Tracks.pure _
  | @composite _ component attributes children next provided rendered hr h =>
    obtain ⟨resolved, inner, outcome, links, hout, helement, hdepth, hrenders, hfollow⟩ :=
      tracks_follow h
    -- the link is seen before those of the rest of the chain, and takes one level of depth
    refine ⟨resolved, inner, outcome, ⟨component, ⟨attributes, children⟩, context⟩ :: links,
      hout, helement, Nat.le_succ_of_le hdepth, ?_, fun limit depth => ?_⟩
    · rw [Expansion.renders, hrenders, List.cons_append]
    · cases limit with
      | zero =>
        have hpos := rendered.depth_pos
        refine Tracks.tooDeep ?_
        rw [Expansion.depth]
        omega
      | succ limit =>
        unfold follow
        rw [← List.singleton_append]
        refine Tracks.bind_ok (Tracks.expand hr) ?_
        refine (hfollow limit (depth + 1)).mono fun he => ?_
        rw [Expansion.depth] at he
        omega

/-! ## Below a section -/

/-- Compiling a tag: what its children show is seen, unless the tag is dropped. -/
theorem tracks_compileTagWith {enough : Prop} {top : Bool} {tag : Tag κ}
    {yields : (observer : Observer κ) → Element κ → ExceptT CompileError observer.m (List Piece)}
    {children : Except CompileError (List Piece)} {seen : List (Render κ)}
    (h : Tracks enough (fun observer => collect (yields observer) tag.children) children seen) :
    Tracks enough (fun observer => compileTagWith (yields observer) options top tag)
      (tagContent options top tag.head tag.attributes children)
      (if tag.head.isKnown then seen else []) := by
  unfold compileTagWith tagContent
  cases hp : placement options top tag.head with
  | reject error => exact Tracks.throw error
  | drop name =>
    rw [isKnown_of_drop hp]
    exact Tracks.note _ (Tracks.pure none)
  | keep =>
    rw [isKnown_of_keep hp, if_pos rfl, ← List.append_nil seen]
    exact h.bind fun pieces _ => Tracks.pure _

/-- Compiling siblings, each of which is tracked. -/
theorem tracks_collect {limit : Nat} {context : Context}
    {yields : (observer : Observer κ) → Element κ → ExceptT CompileError observer.m (List Piece)}
    (h : ∀ {element tree}, Expands library.render context element tree →
      Tracks (tree.depth ≤ limit) (fun observer => yields observer element)
        (pieces options tree.element) (tree.renders context)) :
    ∀ {elements : List (Element κ)} {trees : List (Expansion κ)},
      ExpandsAll library.render context elements trees →
      Tracks (Expansion.depthAll trees ≤ limit)
        (fun observer => collect (yields observer) elements)
        (piecesAll options (Expansion.elements trees)) (Expansion.rendersAll context trees) := by
  intro elements
  induction elements with
  | nil =>
    intro trees hs
    cases hs
    exact Tracks.pure []
  | cons element rest ih =>
    intro trees hs
    cases hs with
    | @cons _ _ _ tree trees hfirst hrest =>
      rw [Expansion.depthAll_cons_le]
      refine ((h hfirst).mono And.left).bind fun first _ => ?_
      rw [← List.append_nil (Expansion.rendersAll context trees)]
      exact ((ih hrest).mono And.right).bind fun others _ => Tracks.pure _

/-- **Compiling what is below a section.** -/
theorem tracks_childPieces :
    ∀ {limit : Nat} {context : Context} {element : Element κ} {tree : Expansion κ},
      Expands library.render context element tree →
      Tracks (tree.depth ≤ limit)
        (fun observer => childPieces (library.observed observer) options limit context element)
        (pieces options tree.element) (tree.renders context) := by
  intro limit
  -- the walk gives up one level of depth for each step down, so the induction is on the limit
  induction limit with
  | zero =>
    intro context element tree h
    have hpos := tree.depth_pos
    exact Tracks.tooDeep (by omega)
  | succ limit ih =>
    intro context element tree h
    obtain ⟨resolved, inner, outcome, links, hout, helement, hdepth, hrenders, hfollow⟩ :=
      tracks_follow h
    rw [← helement, hrenders]
    refine Tracks.bind_ok ((hfollow (limit + 1) 0).mono fun he => by omega) ?_
    cases resolved with
    | empty =>
      cases hout
      exact Tracks.pure []
    | leaf scalar =>
      cases hout
      exact Tracks.pure _
    | fragment items =>
      cases hout with
      | fragment hs =>
        refine (tracks_collect ih hs).mono fun he => ?_
        exact Expansion.depth_fragment_le.1 (Nat.le_trans hdepth he)
    | tag tag =>
      cases hout with
      | @tag _ _ _ _ trees hs =>
        have hchildren (he : tree.depth ≤ limit + 1) : Expansion.depthAll trees ≤ limit :=
          Expansion.depth_tag_le.1 (Nat.le_trans hdepth he)
        have hcollect := (tracks_collect ih hs).mono hchildren
        rw [Expansion.element, pieces, ← List.append_nil (Expansion.renders _ _)]
        refine (tracks_compileTagWith hcollect).bind fun content _ => ?_
        cases content with
        | none => exact Tracks.pure []
        | some content => exact Tracks.pure [Piece.content content]

/-! ## Directly in the document -/

/-- Going through a list of children of the document, each of which is tracked. -/
theorem tracks_thread {limit : Nat} {context : Context}
    {step : (observer : Observer κ) → Element κ → Definition →
      ExceptT CompileError observer.m Definition}
    (h : ∀ {element tree}, Expands library.render context element tree → ∀ definition,
      Tracks (tree.depth ≤ limit) (fun observer => step observer element definition)
        (sections options tree.element definition) (tree.renders context)) :
    ∀ {elements : List (Element κ)} {trees : List (Expansion κ)},
      ExpandsAll library.render context elements trees → ∀ definition,
      Tracks (Expansion.depthAll trees ≤ limit)
        (fun observer => thread (step observer) elements definition)
        (sectionsAll options (Expansion.elements trees) definition)
        (Expansion.rendersAll context trees) := by
  intro elements
  induction elements with
  | nil =>
    intro trees hs definition
    cases hs
    exact Tracks.pure definition
  | cons element rest ih =>
    intro trees hs definition
    cases hs with
    | @cons _ _ _ tree trees hfirst hrest =>
      rw [Expansion.depthAll_cons_le]
      refine ((h hfirst definition).mono And.left).bind fun next _ => ?_
      exact (ih hrest next).mono And.right

theorem tracks_placeSection {enough : Prop} (slot : Slot) (content : Content)
    (definition : Definition) :
    Tracks enough (fun _ => placeSection slot content definition : Observable κ Definition)
      (.ok (definition.setSection slot content)) [] := by
  unfold placeSection
  by_cases h : (definition.section? slot).isSome
  · simp only [if_pos h]
    exact Tracks.note _ (Tracks.pure _)
  · simp only [if_neg h]
    exact Tracks.pure _

/-- A tag with its children expanded, compiled from their context. -/
theorem tracks_compileTagWithin {limit : Nat} {context : Context} (top : Bool) (name : TagName)
    (attributes : Attributes) {children : List (Element κ)} {trees : List (Expansion κ)}
    (h : ExpandsAll library.render context children trees) :
    Tracks (Expansion.depthAll trees ≤ limit)
      (fun observer => compileTagWithin (library.observed observer) options limit context top
        ⟨name, attributes, children⟩)
      (tagContent options top name attributes (piecesAll options (Expansion.elements trees)))
      (if name.isKnown then Expansion.rendersAll context trees else []) :=
  tracks_compileTagWith (tracks_collect tracks_childPieces h)

/-- **Compiling what is directly in the document.** -/
theorem tracks_addSections :
    ∀ {limit : Nat} {context : Context} {element : Element κ} {tree : Expansion κ},
      Expands library.render context element tree → ∀ definition,
      Tracks (tree.depth ≤ limit)
        (fun observer =>
          addSections (library.observed observer) options limit context element definition)
        (sections options tree.element definition) (tree.renders context) := by
  intro limit
  induction limit with
  | zero =>
    intro context element tree h definition
    have hpos := tree.depth_pos
    exact Tracks.tooDeep (by omega)
  | succ limit ih =>
    intro context element tree h definition
    obtain ⟨resolved, inner, outcome, links, hout, helement, hdepth, hrenders, hfollow⟩ :=
      tracks_follow h
    rw [← helement, hrenders]
    refine Tracks.bind_ok ((hfollow (limit + 1) 0).mono fun he => by omega) ?_
    cases resolved with
    | empty =>
      cases hout
      exact Tracks.pure definition
    | leaf scalar =>
      cases hout
      rw [Expansion.element, sections]
      by_cases hblank : scalar.isBlank options.dropZero
      · simp only [if_pos hblank]
        exact Tracks.pure definition
      · simp only [if_neg hblank]
        exact Tracks.throw _
    | fragment items =>
      cases hout with
      | fragment hs =>
        refine (tracks_thread ih hs definition).mono fun he => ?_
        exact Expansion.depth_fragment_le.1 (Nat.le_trans hdepth he)
    | tag tag =>
      cases hout with
      | @tag _ _ _ _ trees hs =>
        have hchildren (he : tree.depth ≤ limit + 1) : Expansion.depthAll trees ≤ limit :=
          Expansion.depth_tag_le.1 (Nat.le_trans hdepth he)
        rw [Expansion.element, sections, ← List.append_nil (Expansion.renders _ _)]
        refine ((tracks_compileTagWithin true tag.head tag.attributes hs).mono hchildren).bind ?_
        intro content _
        cases content with
        | none => exact Tracks.pure definition
        | some content => exact tracks_placeSection _ content definition

/-- **Compiling a whole tree.** -/
theorem tracks_compileWithin (options : Options) (limit : Nat) {context : Context} {root : Element κ}
    {tree : Expansion κ} (h : Expands library.render context root tree) :
    Tracks (tree.depth ≤ limit + 1)
      (fun observer => compileWithin (library.observed observer) options limit context root)
      (compilePlain options tree.element) (tree.renders context) := by
  obtain ⟨resolved, inner, outcome, links, hout, helement, hdepth, hrenders, hfollow⟩ :=
    tracks_follow h
  rw [← helement, hrenders]
  refine Tracks.bind_ok (hfollow limit 0) ?_
  cases resolved with
  | empty =>
    cases hout
    exact Tracks.throw _
  | leaf scalar =>
    cases hout
    exact Tracks.throw _
  | fragment items =>
    cases hout with
    | @fragment _ _ trees hs =>
      have hlength : (Expansion.elements trees).length = items.length := by
        rw [Expansion.elements_length, hs.length]
      rw [Expansion.element, compilePlain, Element.describe, hlength]
      · exact Tracks.throw _
      · intro attributes children h
        cases h
  | tag tag =>
    obtain ⟨name, attributes, children⟩ := tag
    cases hout with
    | @tag _ _ _ _ trees hs =>
      cases name with
      | document =>
        have hchildren (he : tree.depth ≤ limit + 1) : Expansion.depthAll trees ≤ limit :=
          Expansion.depth_tag_le.1 (Nat.le_trans hdepth he)
        rw [Expansion.element, compilePlain, ← List.append_nil (Expansion.renders _ _)]
        refine ((tracks_thread tracks_addSections hs {}).mono hchildren).bind ?_
        intro sections _
        exact Tracks.note _ (Tracks.pure _)
      | _ => exact Tracks.throw _

end Walk

end Folio
