/-
  The default font is checked once and for all.

  Building a pipeline checks the font that its options name, rendering a definition checks the font
  that the definition names.  These are one and the same font, because compiling hands the default
  style on.

  1. **The handed-on style** — a compiled definition has the default style of the options
     (`defaultStyle_of_compile`).
  2. **Plans** — how a plan can end does not depend on its sink (`Plan.Ends.run`); with a font that
     is admitted, the JSON renderer never ends for want of it (`ends_json`), and with one that is
     not it ends so at once (`json_missing`).
  3. **Pipelines** — so what the checks have in common is handed up through writing, files and
     compiling (`avoids_renderToFile`).
  4. **Settings** — whatever settings were made in whatever order, both checks agree
     (`build_checks_fonts`).
-/
import Folio.Pipeline.Builder
import Folio.Proofs.FileOutput

namespace Folio

variable {m : Type → Type} [Monad m] [Journal m] {κ φ σ : Type} [Stateful m σ]

/-! ## The handed-on style -/

/-- A compiled definition has the default style of its options. -/
theorem defaultStyle_of_compile {library : Library κ m} {options : Options} {context : Context}
    {root : Element κ} {definition : Definition} {s s' : σ}
    (h : outcome (compile library options context root) s = (.ok definition, s')) :
    definition.defaultStyle = options.defaultStyle := by
  unfold compile compileWithin at h
  obtain ⟨⟨resolved, inner⟩, resolving, -, h⟩ := outcome_bind_eq_ok h
  cases resolved with
  | tag tag =>
    obtain ⟨name, attributes, children⟩ := tag
    cases name with
    | document =>
      obtain ⟨sections, placed, -, h⟩ := outcome_bind_eq_ok h
      obtain ⟨_, noted, -, h⟩ := outcome_bind_eq_ok h
      rw [outcome_pure] at h
      cases h
      rfl
    | _ =>
      rw [outcome_throw] at h
      cases h
  | _ =>
    rw [outcome_throw] at h
    cases h

/-! ## Plans -/

namespace Plan

variable {bad : RenderError → Prop}

/-- However the plan goes, it does not end in one of these errors. -/
def Spares (bad : RenderError → Prop) : Plan → Prop
  | done result => ∀ error, result = .error error → ¬bad error
  | write _ next => ∀ answer, (next answer).Spares bad
  | flush next => ∀ answer, (next answer).Spares bad
  | report _ next => next.Spares bad

/-- **Whatever the sink**, a plan ends in one of its own ways. -/
theorem Spares.avoids {plan : Plan} (h : plan.Spares bad) (sink : Sink m) :
    Avoids bad (plan.run sink) := by
  induction plan with
  | done result =>
    intro s error herror
    rw [outcome_run_done] at herror
    exact h error herror
  | write bytes next ih =>
    intro s error herror
    rw [outcome_run_write] at herror
    exact ih _ (h _) _ error herror
  | flush next ih =>
    intro s error herror
    rw [outcome_run_flush] at herror
    exact ih _ (h _) _ error herror
  | report message next ih =>
    intro s error herror
    rw [outcome_run_report] at herror
    exact ih h _ error herror

theorem spares_unlessFailed {blame : IoError → RenderError} {next : Plan}
    (hblame : ∀ error, ¬bad (blame error)) (hnext : next.Spares bad)
    (answer : Except IoError Unit) : (unlessFailed blame next answer).Spares bad := by
  cases answer with
  | ok _ => exact hnext
  | error failure =>
    intro error herror
    cases herror
    exact hblame failure

theorem spares_writeTexts {blame : IoError → RenderError} {next : Plan}
    (hblame : ∀ error, ¬bad (blame error)) (hnext : next.Spares bad) (texts : List String) :
    (writeTexts blame texts next).Spares bad := by
  induction texts with
  | nil => exact hnext
  | cons text rest ih => exact spares_unlessFailed hblame ih

end Plan

/-- Whether a rendering failed for want of a font. -/
def RenderError.isMissingFont : RenderError → Bool
  | .missingFont _ => true
  | _ => false

/-- The font that a style names, unless the registry admits it. -/
def missingFont? (style : Option Json) (fonts : FontRegistry) : Option String :=
  (fontOfStyle style).filter fun font => !fonts.admits font

variable {layout : Layout} {definition : Definition} {fonts : FontRegistry}

theorem spares_json (h : missingFont? definition.defaultStyle fonts = none) :
    ((Renderer.json layout).plan definition fonts).Spares fun error =>
      error.isMissingFont = true := by
  unfold missingFont? at h
  simp only [Renderer.json, h]
  -- the writes fail as `serialize`, the flush fails as `io`
  refine Plan.spares_writeTexts (fun _ herror => by cases herror) ?_ _
  refine Plan.spares_unlessFailed (fun _ herror => by cases herror) ?_
  intro error herror
  cases herror

/-- A font that is missing ends the rendering before anything is written. -/
theorem json_missing {font : String}
    (h : missingFont? definition.defaultStyle fonts = some font) :
    (Renderer.json layout).plan definition fonts = .done (.error (.missingFont font)) := by
  unfold missingFont? at h
  simp only [Renderer.json, h]

/-! ## Pipelines -/

/-- Whether a pipeline failed for want of a font. -/
def PipelineError.isMissingFont : PipelineError → Bool
  | .render error => error.isMissingFont
  | _ => false

namespace Pipeline

variable {pipeline : Pipeline} {library : Library κ m} {root : Element κ} {disk : Disk φ m}

/-- No rendering of this definition fails for want of a font. -/
def HasFont (pipeline : Pipeline) (definition : Definition) : Prop :=
  (pipeline.renderer.plan definition pipeline.fonts).Spares fun error => error.isMissingFont = true

theorem avoids_write (h : pipeline.HasFont definition) (sink : Sink m) :
    Avoids (fun error => error.isMissingFont = true) (pipeline.write definition sink) := by
  unfold Pipeline.write
  exact avoids_bind (avoids_adapt (h.avoids sink)) fun _ _ _ _ => avoids_note _

theorem avoids_writeAndFlush (h : pipeline.HasFont definition) (sink : Sink m) :
    Avoids (fun error => error.isMissingFont = true) (pipeline.writeAndFlush definition sink) := by
  unfold writeAndFlush
  refine avoids_bind (avoids_write h sink) fun _ _ _ _ => ?_
  exact avoids_adapt_of_forall fun _ herror => by cases herror

theorem avoids_writeToFile (h : pipeline.HasFont definition) (disk : Disk φ m) (file : φ) :
    Avoids (fun error => error.isMissingFont = true)
      (pipeline.writeToFile definition disk file) := by
  intro s error herror
  rw [fst_outcome_writeToFile] at herror
  exact avoids_writeAndFlush h (Sink.bufferedFile disk file) (.empty, s) error herror

theorem avoids_fillFile (h : pipeline.HasFont definition) (disk : Disk φ m) (path : Path)
    (file : φ) : Avoids (fun error => error.isMissingFont = true)
      (pipeline.fillFile definition disk path file) := by
  intro s error herror
  rw [fst_outcome_fillFile] at herror
  exact avoids_writeToFile h disk file s error herror

theorem avoids_compile (pipeline : Pipeline) (library : Library κ m) (root : Element κ) :
    Avoids (fun error => error.isMissingFont = true) (pipeline.compile library root) :=
  avoids_adapt_of_forall fun _ herror => by cases herror

section Compiled

variable (h : ∀ definition, definition.defaultStyle = pipeline.options.defaultStyle →
  pipeline.HasFont definition)

include h

/-- What a pipeline compiles has the default style that was checked. -/
theorem hasFont_of_compile {s s' : σ}
    (hcompile : outcome (pipeline.compile library root) s = (.ok definition, s')) :
    pipeline.HasFont definition :=
  h definition (defaultStyle_of_compile (outcome_adapt_eq_ok hcompile))

/-- **Into any sink.** -/
theorem avoids_render (library : Library κ m) (root : Element κ) (sink : Sink m) :
    Avoids (fun error => error.isMissingFont = true) (pipeline.render library root sink) := by
  unfold render
  refine avoids_bind (avoids_compile pipeline library root) fun definition s s' hcompile => ?_
  exact avoids_write (hasFont_of_compile h hcompile) sink

/-- **Into any file.** -/
theorem avoids_renderToFile (library : Library κ m) (root : Element κ) (disk : Disk φ m)
    (path : Path) : Avoids (fun error => error.isMissingFont = true)
      (pipeline.renderToFile library root disk path) := by
  unfold renderToFile
  refine avoids_bind (avoids_compile pipeline library root) fun definition s s' hcompile => ?_
  refine avoids_bind (avoids_adapt_of_forall fun _ herror => by cases herror) fun _ _ _ _ => ?_
  refine avoids_bind (avoids_adapt_of_forall fun _ herror => by cases herror) fun file _ _ _ => ?_
  exact avoids_fillFile (hasFont_of_compile h hcompile) disk path file

end Compiled

end Pipeline

/-! ## Settings -/

/-- A change to a pipeline to be. -/
inductive Setting where
  | options (options : Options)
  | defaultStyle (style : Json)
  | noDefaultStyle
  | strictTags (strictTags : Bool)
  | dropZero (dropZero : Bool)
  | fontFamily (name : String) (family : FontFamily)
  | fonts (fonts : FontRegistry)
  | renderer (renderer : Renderer)
  | context (context : Context)

namespace PipelineBuilder

/-- Makes one change. -/
def set (builder : PipelineBuilder) : Setting → m PipelineBuilder
  | .options options => return builder.withOptions options
  | .defaultStyle style => return builder.withDefaultStyle style
  | .noDefaultStyle => return builder.withoutDefaultStyle
  | .strictTags strictTags => return builder.withStrictTags strictTags
  | .dropZero dropZero => return builder.withDropZero dropZero
  | .fontFamily name family => builder.withFontFamily name family
  | .fonts fonts => return builder.withFonts fonts
  | .renderer renderer => return builder.withRenderer renderer
  | .context context => return builder.withContext context

/-- Makes changes one after the other, starting from the usual settings. -/
def configure (settings : List Setting) : m PipelineBuilder :=
  settings.foldlM set {}

variable {builder : PipelineBuilder} {s s' : σ}

/-- Building fails for want of the default font, and for nothing else. -/
theorem outcome_build (builder : PipelineBuilder) (s : σ) :
    outcome (builder.build : ExceptT PipelineError m Pipeline) s =
      match missingFont? builder.options.defaultStyle builder.fonts with
      | some font => (.error (.unknownDefaultFont font builder.fonts.keys), s)
      | none => (.ok ⟨builder.options, builder.fonts, builder.renderer, builder.context⟩,
          (steps (note (.buildingPipeline builder.renderer.name builder.fonts.size
            builder.options.strictTags) : m Unit) s).2) := by
  unfold build missingFont?
  simp only [Options.defaultFont?]
  cases (fontOfStyle builder.options.defaultStyle).filter
    fun font => !builder.fonts.admits font with
  | some font => exact outcome_throw _ s
  | none =>
    simp only
    rw [outcome_bind, outcome_note]
    exact outcome_pure _ _

/-- What is built has checked the font that its renderer is going to check. -/
theorem hasFont_of_build {pipeline : Pipeline} (hjson : builder.renderer = .json layout)
    (hbuild : (outcome (builder.build : ExceptT PipelineError m Pipeline) s).1 = .ok pipeline)
    (hstyle : definition.defaultStyle = pipeline.options.defaultStyle) :
    pipeline.HasFont definition := by
  rw [outcome_build] at hbuild
  cases hfont : missingFont? builder.options.defaultStyle builder.fonts with
  | some font =>
    rw [hfont] at hbuild
    cases hbuild
  | none =>
    rw [hfont] at hbuild
    cases hbuild
    unfold Pipeline.HasFont
    rw [hjson]
    exact spares_json (hstyle ▸ hfont)

/-- What cannot be built would fail for want of the same font. -/
theorem missingFont_of_build {error : PipelineError} (hjson : builder.renderer = .json layout)
    (hbuild : (outcome (builder.build : ExceptT PipelineError m Pipeline) s).1 = .error error) :
    ∃ font, error = .unknownDefaultFont font builder.fonts.keys ∧
      ∀ definition : Definition, definition.defaultStyle = builder.options.defaultStyle →
        builder.renderer.plan definition builder.fonts = .done (.error (.missingFont font)) := by
  rw [outcome_build] at hbuild
  cases hfont : missingFont? builder.options.defaultStyle builder.fonts with
  | none =>
    rw [hfont] at hbuild
    cases hbuild
  | some font =>
    rw [hfont] at hbuild
    cases hbuild
    refine ⟨font, rfl, fun definition hstyle => ?_⟩
    rw [hjson]
    exact json_missing (hstyle ▸ hfont)

end PipelineBuilder

/-- **Both checks agree.**  Make any settings in any order, and leave a JSON renderer.  If the
    pipeline can be built, then nothing it renders, into whatever sink or file, fails for want of a
    font.  If it cannot, its default font is unknown, and rendering anything that is compiled with
    these options fails for want of that font. -/
theorem build_checks_fonts (settings : List Setting) (s : σ) (layout : Layout)
    (hjson : (steps (PipelineBuilder.configure settings : m PipelineBuilder) s).1.renderer =
      .json layout) :
    let configured := steps (PipelineBuilder.configure settings : m PipelineBuilder) s
    let builder := configured.1
    let built := (outcome (builder.build : ExceptT PipelineError m Pipeline) configured.2).1
    (∀ pipeline, built = .ok pipeline →
      ∀ (κ φ : Type) (library : Library κ m) (root : Element κ) (t : σ) (family : String),
        (∀ sink : Sink m, (outcome (pipeline.render library root sink) t).1 ≠
          .error (.render (.missingFont family))) ∧
        ∀ (disk : Disk φ m) (path : Path),
          (outcome (pipeline.renderToFile library root disk path) t).1 ≠
            .error (.render (.missingFont family))) ∧
    ∀ error, built = .error error →
      ∃ font, error = .unknownDefaultFont font builder.fonts.keys ∧
        ∀ (κ : Type) (library : Library κ m) (context : Context) (root : Element κ) (t t' : σ)
          (definition : Definition),
          outcome (compile library builder.options context root) t = (.ok definition, t') →
          ∀ (sink : Sink m) (u : σ),
            outcome ((builder.renderer.plan definition builder.fonts).run sink) u =
              (.error (.missingFont font), u) := by
  intro configured builder built
  constructor
  · intro pipeline hbuild κ φ library root t family
    have hfont (definition : Definition)
        (hstyle : definition.defaultStyle = pipeline.options.defaultStyle) :
        pipeline.HasFont definition :=
      PipelineBuilder.hasFont_of_build hjson hbuild hstyle
    constructor
    · intro sink hmissing
      exact Pipeline.avoids_render hfont library root sink t _ hmissing rfl
    · intro disk path hmissing
      exact Pipeline.avoids_renderToFile hfont library root disk path t _ hmissing rfl
  · intro error hbuild
    obtain ⟨font, herror, hplan⟩ := PipelineBuilder.missingFont_of_build hjson hbuild
    refine ⟨font, herror, fun κ library context root t t' definition hcompile sink u => ?_⟩
    rw [hplan definition (defaultStyle_of_compile hcompile), outcome_run_done]

/-- A pipeline with one font family that is not the usual one cannot be built, until the default
    style names that family. -/
theorem build_checks_fonts_mono :
    let mono : Setting := .fontFamily "Mono" (.single ⟨"mono.ttf"⟩)
    let monoStyle : Setting := .defaultStyle (Options.styleOfFont "Mono")
    let build (settings : List Setting) : Except PipelineError Pipeline :=
      let builder := (steps (PipelineBuilder.configure settings : StateM Unit PipelineBuilder) ()).1
      (outcome (builder.build : ExceptT PipelineError (StateM Unit) Pipeline) ()).1
    build [mono] = .error (.unknownDefaultFont "OpenSans" ["Mono"]) ∧
      ∃ pipeline, build [mono, monoStyle] = .ok pipeline ∧
        ∀ (root : Element Empty) (sink : Sink (StateM Unit)) (family : String),
          (outcome (pipeline.render Library.none root sink) ()).1 ≠
            .error (.render (.missingFont family)) := by
  intro mono monoStyle build
  obtain ⟨hbuilt, -⟩ := build_checks_fonts (m := StateM Unit) [mono, monoStyle] () .compact rfl
  have hok : ∃ pipeline, build [mono, monoStyle] = .ok pipeline := ⟨_, rfl⟩
  obtain ⟨pipeline, hpipeline⟩ := hok
  refine ⟨rfl, pipeline, hpipeline, fun root sink family => ?_⟩
  exact (hbuilt pipeline hpipeline Empty Unit Library.none root () family).1 sink

end Folio
