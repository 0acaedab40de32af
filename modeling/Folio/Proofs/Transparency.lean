/-
  Components are transparent.

  Compiling renders components lazily, in the middle of placing tags, dropping blanks and merging
  text.  The result is the same as if every component had been rendered beforehand: compiling a
  tree is compiling its expansion (`compile_eq_compile_expansion`), so only the nesting of tags
  counts, and never which of them a component rendered.

  Also, compiling a tree or a tag without components is the recursion on the tree (`compile_none`,
  `compileTag_none`).
-/
import Folio.Proofs.Simulation

namespace Folio

variable {κ α : Type}

/-! ## Runs that nobody looks at -/

/-- Without anyone looking on, a tracked run is its goal, or was given up. -/
theorem Tracks.run_nobody {enough : Prop} {run : Observable κ α} {goal : Except CompileError α}
    {seen : List (Render κ)} (h : Tracks enough run goal seen) :
    (run Observer.nobody).run = goal ∨
      (run Observer.nobody).run = Except.error CompileError.tooDeep ∧ ¬enough := by
  obtain ⟨told, result, hrun, hgoal, -⟩ := h
  rw [hrun, Observer.report_nobody]
  exact hgoal

/-- Compiling within a depth is compiling the expansion, unless it goes too deep. -/
theorem compileWithin_expansion (library : Library κ Id) (options : Options) (limit : Nat)
    {context : Context} {root : Element κ} {tree : Expansion κ}
    (h : Expands library.render context root tree) :
    (compileWithin library options limit context root).run = compilePlain options tree.element ∨
      (compileWithin library options limit context root).run = Except.error CompileError.tooDeep ∧
        ¬tree.depth ≤ limit + 1 :=
  (tracks_compileWithin options limit h).run_nobody

/-- Whoever looks on sees nothing of a tree without components. -/
theorem Library.observed_none (observer : Observer Empty) :
    (Library.none : Library Empty Id).observed observer = Library.none := by
  unfold Library.observed Library.none
  congr
  funext component
  exact component.elim

/-- **Trees without components need no limit**, and they compile to the same in any monad that
    keeps no messages. -/
theorem compile_none_silent {m : Type → Type} [Monad m] [LawfulMonad m] [Journal m]
    (hsilent : ∀ message, (note message : m Unit) = pure ()) (options : Options)
    (context : Context) (root : Element Empty) :
    compile (Library.none : Library Empty m) options context root =
      settle (compilePlain options root) := by
  let nobody : Observer Empty := { m, silent := hsilent, tell := fun _ => pure () }
  have hrender : Expands (Library.none : Library Empty Id).render context root
      (Expansion.plain root) := expands_plain context root
  obtain ⟨told, result, hrun, hgoal, -⟩ := tracks_compileWithin options root.height hrender
  have hresult : result = compilePlain options root := by
    rcases hgoal with hgoal | ⟨-, hdepth⟩
    · rw [hgoal, Expansion.element_plain]
    · exact absurd (Nat.le_succ_of_le (Expansion.depth_plain root)) hdepth
  have htold : told = [] := List.eq_nil_iff_forall_not_mem.2 fun render _ => render.component.elim
  have hnobody : compileWithin (Library.none.observed nobody) options root.height context root =
      nobody.report told result := hrun nobody
  rw [Library.observed_none, hresult, htold] at hnobody
  exact hnobody.trans (nobody.report_nil _)

theorem compile_none (options : Options) (context : Context) (root : Element Empty) :
    (compile (Library.none : Library Empty Id) options context root).run =
      compilePlain options root :=
  congrArg ExceptT.run (compile_none_silent (fun _ => rfl) options context root)

/-- A single tag without components needs no limit either. -/
theorem compileTag_none (options : Options) (context : Context) (top : Bool) (tag : Tag Empty) :
    (compileTag (Library.none : Library Empty Id) options context top tag).run =
      tagContent options top tag.head tag.attributes (piecesAll options tag.children) := by
  have hrender : ExpandsAll (Library.none : Library Empty Id).render context tag.children
      (Expansion.plainAll tag.children) := expandsAll_plainAll context tag.children
  have hdepth := Expansion.depthAll_plainAll tag.children
  rcases (tracks_compileTagWithin top tag.head tag.attributes hrender).run_nobody with h | ⟨-, h⟩
  · rw [Expansion.elements_plainAll] at h
    exact h
  · exact absurd hdepth h

/-! ## Lazy and eager -/

/-- **Lazy expansion is eager expansion.**  Whatever a tree expands to, compiling the tree is
    compiling that, with the same definition or the same error; all it takes is that the library
    reaches deep enough, and one that does not reach that deep only ever gives up. -/
theorem compile_eq_compile_expansion (library : Library κ Id) (options : Options)
    {context : Context} {root : Element κ} {tree : Expansion κ}
    (h : Expands library.render context root tree) :
    (∃ enough, ∀ reach, enough ≤ reach →
      compile { library with reach := reach } options context root =
        compile Library.none options ∅ tree.element) ∧
    (compile library options context root = compile Library.none options ∅ tree.element ∨
      compile library options context root = throw CompileError.tooDeep) := by
  have heager := compile_none options ∅ tree.element
  constructor
  · refine ⟨tree.depth, fun reach hreach => ?_⟩
    apply ExceptT.ext
    rw [heager]
    rcases compileWithin_expansion { library with reach := reach } options (root.height + reach) h
      with hlazy | ⟨-, hdepth⟩
    · exact hlazy
    · exact absurd (by omega) hdepth
  · rcases compileWithin_expansion library options (root.height + library.reach) h
      with hlazy | ⟨hlazy, -⟩
    · left
      apply ExceptT.ext
      rw [heager]
      exact hlazy
    · right
      apply ExceptT.ext
      exact hlazy

/-- The themed page compiles as if its parts had been rendered beforehand. -/
theorem compile_themedPage_eagerly :
    Expands themed.render ∅ themedPage themedExpansion ∧
    (∃ enough, ∀ reach, enough ≤ reach →
      compile { themed with reach := reach } .standard ∅ themedPage =
        compile Library.none .standard ∅ themedExpansion.element) ∧
    (compile themed .standard ∅ themedPage =
        compile Library.none .standard ∅ themedExpansion.element ∨
      compile themed .standard ∅ themedPage = throw CompileError.tooDeep) :=
  ⟨expands_themedPage, compile_eq_compile_expansion themed .standard expands_themedPage⟩

end Folio
