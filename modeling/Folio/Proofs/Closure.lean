/-
  What every step of a compilation does, the whole does.

  Compiling is put together from four kinds of runs, one after another: results, errors, messages,
  and the renderings of components.  A property of runs that all of these have, and that goes from
  runs to their sequence (`Compositional`), is a property of every compilation
  (`Compositional.compile`), whatever monad it runs in.
-/
import Folio.Compile.Document
import Folio.Proofs.Outcomes

namespace Folio

variable {κ α β : Type} {m : Type → Type} [Monad m] [Journal m]

/-- A property of everything that compilations with this library are put together from. -/
structure Compositional (library : Library κ m)
    (holds : ∀ {α : Type}, ExceptT CompileError m α → Prop) : Prop where
  pure {α : Type} (value : α) : holds (Pure.pure value)
  throw {α : Type} (error : CompileError) : holds (MonadExcept.throw error : ExceptT _ m α)
  note (message : Message) : holds (Folio.note message)
  expand (composite : Composite κ) (context : Context) :
    holds (liftM (library.expand composite context))
  bind {α β : Type} {run : ExceptT CompileError m α} {next : α → ExceptT CompileError m β} :
    holds run → (∀ value, holds (next value)) → holds (run >>= next)

namespace Compositional

variable {library : Library κ m} {options : Options}
  {holds : ∀ {α : Type}, ExceptT CompileError m α → Prop}
  (h : Compositional library @holds)

include h

/-- A message in front changes nothing. -/
theorem noting {run : ExceptT CompileError m α} (hrun : holds run) (message : Message) :
    holds (do Folio.note message; run) :=
  h.bind (h.note message) fun _ => hrun

theorem follow_empty {limit : Nat} (depth : Nat) (context : Context) :
    holds (follow library limit depth .empty context) := by
  unfold follow
  by_cases hdepth : depth ≠ 0
  · simp only [if_pos hdepth]
    exact h.noting (h.pure _) _
  · simp only [if_neg hdepth]
    exact h.pure _

theorem follow (limit : Nat) : ∀ (depth : Nat) (element : Element κ) (context : Context),
    holds (Folio.follow library limit depth element context) := by
  induction limit with
  | zero =>
    intro depth element context
    cases element with
    | empty => exact h.follow_empty depth context
    | composite => exact h.throw .tooDeep
    | _ => exact h.pure _
  | succ limit ih =>
    intro depth element context
    cases element with
    | empty => exact h.follow_empty depth context
    | composite component attributes children =>
      unfold Folio.follow
      exact h.bind (h.expand _ context) fun (next, inner) => ih (depth + 1) next inner
    | _ => exact h.pure _

theorem collect {pieces : α → ExceptT CompileError m (List Piece)}
    (hpieces : ∀ item, holds (pieces item)) (items : List α) :
    holds (Folio.collect pieces items) := by
  induction items with
  | nil => exact h.pure []
  | cons item rest ih =>
    unfold Folio.collect
    exact h.bind (hpieces item) fun _ => h.bind ih fun _ => h.pure _

theorem compileTagWith {pieces : Element κ → ExceptT CompileError m (List Piece)}
    (hpieces : ∀ child, holds (pieces child)) (top : Bool) (tag : Tag κ) :
    holds (Folio.compileTagWith pieces options top tag) := by
  unfold Folio.compileTagWith
  cases placement options top tag.head with
  | reject error => exact h.throw error
  | drop name => exact h.noting (h.pure none) _
  | keep => exact h.bind (h.collect hpieces tag.children) fun _ => h.pure _

theorem childPieces (limit : Nat) : ∀ (context : Context) (child : Element κ),
    holds (Folio.childPieces library options limit context child) := by
  induction limit with
  | zero => exact fun _ _ => h.throw .tooDeep
  | succ limit ih =>
    intro context child
    unfold Folio.childPieces
    refine h.bind (h.follow _ 0 child context) fun (resolved, inner) => ?_
    cases resolved with
    | empty => exact h.pure []
    | leaf scalar => exact h.pure _
    | fragment items => exact h.collect (ih inner) items
    | tag tag =>
      refine h.bind (h.compileTagWith (ih inner) false tag) fun compiled => ?_
      cases compiled <;> exact h.pure _

theorem thread {step : α → Definition → ExceptT CompileError m Definition}
    (hstep : ∀ item definition, holds (step item definition)) (items : List α) :
    ∀ definition, holds (Folio.thread step items definition) := by
  induction items with
  | nil => exact fun definition => h.pure definition
  | cons item rest ih => exact fun definition => h.bind (hstep item definition) ih

theorem placeSection (slot : Slot) (content : Content) (definition : Definition) :
    holds (Folio.placeSection slot content definition) := by
  unfold Folio.placeSection
  split
  · exact h.noting (h.pure _) _
  · exact h.pure _

theorem addSections (limit : Nat) : ∀ (context : Context) (child : Element κ)
    (definition : Definition),
    holds (Folio.addSections library options limit context child definition) := by
  induction limit with
  | zero => exact fun _ _ _ => h.throw .tooDeep
  | succ limit ih =>
    intro context child definition
    unfold Folio.addSections
    refine h.bind (h.follow _ 0 child context) fun (resolved, inner) => ?_
    cases resolved with
    | empty => exact h.pure definition
    | leaf scalar =>
      show holds (if scalar.isBlank options.dropZero then _ else _)
      split
      · exact h.pure definition
      · exact h.throw _
    | fragment items => exact h.thread (ih inner) items definition
    | tag tag =>
      refine h.bind (h.compileTagWith (h.childPieces limit inner) true tag) fun compiled => ?_
      cases compiled with
      | none => exact h.pure definition
      | some content => exact h.placeSection _ content definition

/-- **What every step does, the whole does.** -/
theorem compile (options : Options) (context : Context) (root : Element κ) :
    holds (Folio.compile library options context root) := by
  unfold Folio.compile compileWithin
  refine h.bind (h.follow _ 0 root context) fun (resolved, inner) => ?_
  cases resolved with
  | tag tag =>
    obtain ⟨name, attributes, children⟩ := tag
    cases name with
    | document =>
      exact h.bind (h.thread (h.addSections _ inner) children {}) fun _ => h.noting (h.pure _) _
    | _ => exact h.throw _
  | _ => exact h.throw _

end Compositional

end Folio
