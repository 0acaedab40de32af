/-
  How deep a compilation may go.

  Rendering components is limited in depth, and a walk that meets the limit gives up.  That is all
  the limit does: a walk that was not given up comes to the same with any higher limit.

  1. **The order of runs** — `Extends run further`: the run was given up, or the further one is the
     same.  It is a preorder that goes through sequences of runs (`Extends.bind`).
  2. **The walk** — with a higher limit, every walk of the compiler extends the one with a lower
     limit (`extends_follow`, `extends_childPieces`, `extends_addSections`).
  3. **Agreement in depth** — two families of limited runs agree if they are the same wherever there
     is depth enough, and never come to two different ends (`AgreeInDepth`).  It is enough that each
     run of the one family is extended by some run of the other (`AgreeInDepth.of_extends`).
-/
import Folio.Compile.Document

namespace Folio

variable {κ α β : Type}

/-! ## The order of runs -/

/-- Either the run was given up, or the further run is the same. -/
def Extends (run further : ExceptT CompileError Id α) : Prop :=
  run = throw .tooDeep ∨ further = run

namespace Extends

variable {run further furthest : ExceptT CompileError Id α}

theorem refl (run : ExceptT CompileError Id α) : Extends run run := .inr rfl

/-- What was given up is extended by anything. -/
theorem of_tooDeep : Extends (throw .tooDeep : ExceptT CompileError Id α) further := .inl rfl

theorem trans (h : Extends run further) (h' : Extends further furthest) :
    Extends run furthest := by
  rcases h with h | rfl
  · exact .inl h
  · exact h'

/-- Runs in sequence: what follows the first one only matters where it succeeds. -/
theorem bind {next next' : α → ExceptT CompileError Id β} (h : Extends run further)
    (hnext : ∀ value, Extends (next value) (next' value)) :
    Extends (run >>= next) (further >>= next') := by
  rcases h with rfl | rfl
  · exact .of_tooDeep
  · cases further with
    | error error => exact .refl _
    | ok value => exact hnext value

theorem map (h : Extends run further) (f : α → β) : Extends (f <$> run) (f <$> further) := by
  rcases h with rfl | rfl
  · exact .of_tooDeep
  · exact .refl _

/-- A run that was not given up is the same as what extends it. -/
theorem eq_of_ne (h : Extends run further) (hne : run ≠ throw .tooDeep) : further = run :=
  h.resolve_left hne

/-- What extends to a run that was given up was given up. -/
theorem eq_tooDeep (h : Extends run further) (hfurther : further = throw .tooDeep) :
    run = throw .tooDeep := by
  rcases h with h | h
  · exact h
  · exact h.symm.trans hfurther

end Extends

/-! ## The walk -/

section Walk

variable {library : Library κ Id} {options : Options}

theorem extends_follow : ∀ {limit limit' : Nat}, limit ≤ limit' →
    ∀ (depth : Nat) (element : Element κ) (context : Context),
      Extends (follow library limit depth element context)
        (follow library limit' depth element context)
  | 0, _, _, _, .composite _ _ _, _ => .of_tooDeep
  | limit + 1, limit', h, depth, .composite component attributes children, context => by
    obtain ⟨rest, rfl⟩ : ∃ rest, limit' = rest + 1 := ⟨limit' - 1, by omega⟩
    have hrest : limit ≤ rest := by omega
    unfold follow
    exact (Extends.refl _).bind fun reached => extends_follow hrest _ reached.1 reached.2
  | _, _, _, _, .empty, _ => by
    unfold follow
    exact .refl _
  | _, _, _, _, .leaf _, _ | _, _, _, _, .tag _ _ _, _ | _, _, _, _, .fragment _, _ => by
    unfold follow
    exact .refl _

theorem extends_collect {yields yields' : α → ExceptT CompileError Id (List Piece)}
    (h : ∀ item, Extends (yields item) (yields' item)) (items : List α) :
    Extends (collect yields items) (collect yields' items) := by
  induction items with
  | nil => exact .refl _
  | cons item rest ih =>
    unfold collect
    exact (h item).bind fun _ => ih.bind fun _ => .refl _

theorem extends_compileTagWith {yields yields' : Element κ → ExceptT CompileError Id (List Piece)}
    {tag : Tag κ} (h : Extends (collect yields tag.children) (collect yields' tag.children))
    (top : Bool) :
    Extends (compileTagWith yields options top tag) (compileTagWith yields' options top tag) := by
  unfold compileTagWith
  cases placement options top tag.head with
  | reject error => exact .refl _
  | drop name => exact .refl _
  | keep => exact h.bind fun _ => .refl _

/-- **Below a section**, a higher limit changes nothing that was not given up. -/
theorem extends_childPieces {limit limit' : Nat} (h : limit ≤ limit') (context : Context)
    (child : Element κ) :
    Extends (childPieces library options limit context child)
      (childPieces library options limit' context child) := by
  -- each step down takes one off both limits
  induction limit generalizing limit' context child with
  | zero => exact .of_tooDeep
  | succ limit ih =>
    obtain ⟨rest, rfl⟩ : ∃ rest, limit' = rest + 1 := ⟨limit' - 1, by omega⟩
    have hrest : limit ≤ rest := by omega
    unfold childPieces
    refine (extends_follow h 0 child context).bind fun (resolved, inner) => ?_
    cases resolved with
    | empty => exact .refl _
    | leaf scalar => exact .refl _
    | fragment items => exact extends_collect (ih hrest inner) items
    | tag tag =>
      have hchildren := extends_collect (ih hrest inner) tag.children
      exact (extends_compileTagWith hchildren false).bind fun _ => .refl _

theorem extends_thread {step step' : α → Definition → ExceptT CompileError Id Definition}
    (h : ∀ item definition, Extends (step item definition) (step' item definition))
    (items : List α) (definition : Definition) :
    Extends (thread step items definition) (thread step' items definition) := by
  induction items generalizing definition with
  | nil => exact .refl _
  | cons item rest ih =>
    unfold thread
    exact (h item definition).bind ih

/-- **Directly in the document**, a higher limit changes nothing that was not given up. -/
theorem extends_addSections {limit limit' : Nat} (h : limit ≤ limit') (context : Context)
    (child : Element κ) (definition : Definition) :
    Extends (addSections library options limit context child definition)
      (addSections library options limit' context child definition) := by
  induction limit generalizing limit' context child definition with
  | zero => exact .of_tooDeep
  | succ limit ih =>
    obtain ⟨rest, rfl⟩ : ∃ rest, limit' = rest + 1 := ⟨limit' - 1, by omega⟩
    have hrest : limit ≤ rest := by omega
    unfold addSections
    refine (extends_follow h 0 child context).bind fun (resolved, inner) => ?_
    cases resolved with
    | empty => exact .refl _
    | leaf scalar => exact .refl _
    | fragment items => exact extends_thread (ih hrest inner) items definition
    | tag tag =>
      have hbelow : ∀ child, Extends (childPieces library options limit inner child)
          (childPieces library options rest inner child) := extends_childPieces hrest inner
      exact (extends_compileTagWith (extends_collect hbelow tag.children) true).bind
        fun _ => .refl _

end Walk

/-! ## Agreement in depth -/

/-- Two families of limited runs: with enough depth they are the same, and with whatever depth they
    do not come to different ends unless one of them is given up. -/
def AgreeInDepth (run run' : Nat → ExceptT CompileError Id α) : Prop :=
  (∃ enough, ∀ limit limit', enough ≤ limit → enough ≤ limit' → run limit = run' limit') ∧
  ∀ limit limit', run limit = run' limit' ∨ run limit = throw .tooDeep ∨
    run' limit' = throw .tooDeep

/-- A run that the limit has no say in. -/
theorem AgreeInDepth.refl (run : ExceptT CompileError Id α) :
    AgreeInDepth (fun _ => run) (fun _ => run) :=
  ⟨⟨0, fun _ _ _ _ => rfl⟩, fun _ _ => .inl rfl⟩

/-- **Each extends the other.**  Families that go on from limit to limit agree if each run of the
    first is extended by the second at the same limit, and each run of the second by the first at
    some limit. -/
theorem AgreeInDepth.of_extends {run run' : Nat → ExceptT CompileError Id α}
    (hrun : ∀ {limit limit'}, limit ≤ limit' → Extends (run limit) (run limit'))
    (hrun' : ∀ {limit limit'}, limit ≤ limit' → Extends (run' limit) (run' limit'))
    (hto : ∀ limit, Extends (run limit) (run' limit))
    (hfrom : ∀ limit, ∃ further, Extends (run' limit) (run further)) : AgreeInDepth run run' := by
  constructor
  · by_cases hgiven : ∀ limit, run limit = throw .tooDeep
    · -- given up at every limit, and then so is the other
      refine ⟨0, fun limit limit' _ _ => ?_⟩
      obtain ⟨further, hfurther⟩ := hfrom limit'
      rw [hgiven, hfurther.eq_tooDeep (hgiven further)]
    · obtain ⟨enough, hne⟩ := Classical.not_forall.1 hgiven
      refine ⟨enough, fun limit limit' hlimit hlimit' => ?_⟩
      have hone : run limit = run enough := (hrun hlimit).eq_of_ne hne
      have hother : run' limit' = run enough := ((hto enough).trans (hrun' hlimit')).eq_of_ne hne
      rw [hone, hother]
  · intro limit limit'
    by_cases hone : run limit = throw .tooDeep
    · exact .inr (.inl hone)
    by_cases hother : run' limit' = throw .tooDeep
    · exact .inr (.inr hother)
    -- neither was given up, so both are what the second comes to at the higher limit
    have hhigher : run' (max limit limit') = run limit :=
      ((hto limit).trans (hrun' (Nat.le_max_left ..))).eq_of_ne hone
    have hhigher' : run' (max limit limit') = run' limit' :=
      (hrun' (Nat.le_max_right ..)).eq_of_ne hother
    exact .inl (hhigher.symm.trans hhigher')

end Folio
