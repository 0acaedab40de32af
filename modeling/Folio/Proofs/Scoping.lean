/-
  Where the values that components provide are seen.

  A context is scoped like a variable: a component is rendered against the starting context and
  what was provided on its own path, that is by the components of the chains above it and by the
  earlier links of its own chain.  Nothing that is provided beside the path or below it counts.

  1. **Occurrences** — the links of an expansion in depth-first order, each with the links on its
     path (`Expansion.occurrences`).  Those below a tag outside the vocabulary are left out.
  2. **Branching is scoping** — handing a context down the tree, from branch to branch, gives each
     occurrence the context of its path (`renders_eq_map_occurrences`).
  3. **The run** — a compilation that succeeds renders the occurrences, each once, in this order,
     and nothing else (`compile_recorded`).
-/
import Folio.Proofs.Transparency

namespace Folio

variable {κ : Type}

/-! ## Occurrences -/

/-- A component in an expansion, with the components on the path from the root to it. -/
structure Occurrence (κ : Type) where
  path : List (Link κ)
  link : Link κ

/-- The render of an occurrence: against the starting context and what its path provides. -/
def Occurrence.render (start : Context) (occurrence : Occurrence κ) : Render κ where
  component := occurrence.link.component
  props := occurrence.link.props
  context := start.insertAll (occurrence.path.flatMap Link.provided)

namespace Expansion

mutual

/-- The components met in the tree from the root down, left to right, below a path. -/
def occurrences (path : List (Link κ)) : Expansion κ → List (Occurrence κ)
  | .empty | .leaf _ => []
  | .tag name _ children => if name.isKnown then occurrencesAll path children else []
  | .fragment items => occurrencesAll path items
  | .composite link rendered => ⟨path, link⟩ :: occurrences (path ++ [link]) rendered

def occurrencesAll (path : List (Link κ)) : List (Expansion κ) → List (Occurrence κ)
  | [] => []
  | tree :: rest => occurrences path tree ++ occurrencesAll path rest

end

end Expansion

/-! ## Branching is scoping -/

mutual

/-- **Branching is scoping.**  The contexts handed down the tree are those of the paths. -/
theorem renders_eq_map_occurrences (start : Context) (path : List (Link κ)) :
    ∀ tree : Expansion κ, tree.renders (start.insertAll (path.flatMap Link.provided)) =
      (tree.occurrences path).map (Occurrence.render start)
  | .empty | .leaf _ => rfl
  | .tag name _ children => by
    rw [Expansion.renders, Expansion.occurrences]
    split
    · exact rendersAll_eq_map_occurrencesAll start path children
    · rfl
  | .fragment items => by
    rw [Expansion.renders, Expansion.occurrences]
    exact rendersAll_eq_map_occurrencesAll start path items
  | .composite link rendered => by
    have hpath : (path ++ [link]).flatMap Link.provided =
        path.flatMap Link.provided ++ link.provided := by
      rw [List.flatMap_append, List.flatMap_singleton]
    have hrendered := renders_eq_map_occurrences start (path ++ [link]) rendered
    rw [hpath, Context.insertAll_append] at hrendered
    rw [Expansion.renders, Expansion.occurrences, List.map_cons, hrendered]
    rfl

theorem rendersAll_eq_map_occurrencesAll (start : Context) (path : List (Link κ)) :
    ∀ trees : List (Expansion κ),
      Expansion.rendersAll (start.insertAll (path.flatMap Link.provided)) trees =
        (Expansion.occurrencesAll path trees).map (Occurrence.render start)
  | [] => rfl
  | tree :: rest => by
    rw [Expansion.rendersAll, Expansion.occurrencesAll, List.map_append,
      renders_eq_map_occurrences start path tree, rendersAll_eq_map_occurrencesAll start path rest]

end

/-! ## The run -/

/-- The library with every render written down. -/
def Library.recorded (library : Library κ Id) : Library κ (StateM (List (Render κ))) :=
  library.observed Observer.recorder

/-- What the recorder has written down when a tracked run succeeds. -/
theorem Tracks.run_recorder {α : Type} {enough : Prop} {run : Observable κ α}
    {goal : Except CompileError α} {seen : List (Render κ)} {a : α}
    (h : Tracks enough run goal seen) (hok : (run Observer.nobody).run = Except.ok a) :
    (run Observer.recorder).run [] = (Except.ok a, seen) := by
  obtain ⟨told, result, hrun, -, hseen⟩ := h
  have hresult : result = .ok a := by
    rw [← hok, hrun, Observer.report_nobody]
  rw [hrun, Observer.report_recorder, hresult, hseen a hresult]
  rfl

/-- **Lexical scoping.**  A compilation that succeeds renders exactly the components that are met
    in the full expansion, leaving out those below a tag outside the vocabulary: each once, in
    depth-first order, and against the starting context updated by what is provided on its path. -/
theorem compile_recorded (library : Library κ Id) (options : Options) {context : Context}
    {root : Element κ} {tree : Expansion κ} {definition : Definition}
    (h : Expands library.render context root tree)
    (hok : compile library options context root = pure definition) :
    (compile library.recorded options context root).run.run [] =
      (.ok definition, (tree.occurrences []).map (Occurrence.render context)) := by
  have hrun := (tracks_compileWithin options (root.height + library.reach) h).run_recorder
    (congrArg ExceptT.run hok)
  rw [← renders_eq_map_occurrences context [] tree]
  exact hrun

/-- Compiling the themed page renders its four parts, each in the context of its path. -/
theorem compile_recorded_themedPage :
    Expands themed.render ∅ themedPage themedExpansion ∧
    compile themed { defaultStyle := none } ∅ themedPage = pure themedDefinition ∧
    (compile themed.recorded { defaultStyle := none } ∅ themedPage).run.run [] =
      (.ok themedDefinition, (themedExpansion.occurrences []).map (Occurrence.render ∅)) :=
  ⟨expands_themedPage, rfl,
    compile_recorded themed { defaultStyle := none } expands_themedPage rfl⟩

example :
    ((themedExpansion.occurrences []).map fun occurrence =>
      ((occurrence.render ∅).context.getString? "theme")) =
    [none, some "dark", some "dark", none] := by decide

end Folio
