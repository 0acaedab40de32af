/-
  Configuring pipelines.

  A builder starts from the usual settings and is changed step by step.  Building checks that the
  default font is among the registered ones, so that no document of the pipeline lacks it later.
-/
import Folio.Pipeline.Basic

namespace Folio

/-- The settings of a pipeline to be. -/
structure PipelineBuilder where
  options : Options := .standard
  fonts : FontRegistry := ∅
  renderer : Renderer := .json .compact
  context : Context := ∅

namespace PipelineBuilder

variable {m : Type → Type} [Monad m] [Journal m]

/-- Replaces all compile options. -/
def withOptions (builder : PipelineBuilder) (options : Options) : PipelineBuilder :=
  { builder with options }

/-- Sets the default style. -/
def withDefaultStyle (builder : PipelineBuilder) (style : Json) : PipelineBuilder :=
  { builder with options.defaultStyle := some style }

/-- Leaves out the default style. -/
def withoutDefaultStyle (builder : PipelineBuilder) : PipelineBuilder :=
  { builder with options.defaultStyle := none }

/-- Says whether unknown tags are errors. -/
def withStrictTags (builder : PipelineBuilder) (strictTags : Bool) : PipelineBuilder :=
  { builder with options.strictTags := strictTags }

/-- Says whether zeros are blank. -/
def withDropZero (builder : PipelineBuilder) (dropZero : Bool) : PipelineBuilder :=
  { builder with options.dropZero := dropZero }

/-- Registers one font family. -/
def withFontFamily (builder : PipelineBuilder) (name : String) (family : FontFamily) :
    m PipelineBuilder := do
  return { builder with fonts := ← FontRegistry.register builder.fonts name family }

/-- Replaces all font families. -/
def withFonts (builder : PipelineBuilder) (fonts : FontRegistry) : PipelineBuilder :=
  { builder with fonts }

/-- Chooses the renderer. -/
def withRenderer (builder : PipelineBuilder) (renderer : Renderer) : PipelineBuilder :=
  { builder with renderer }

/-- Sets the context that components start from. -/
def withContext (builder : PipelineBuilder) (context : Context) : PipelineBuilder :=
  { builder with context }

/-- Builds the pipeline, unless its default font is not registered. -/
def build (builder : PipelineBuilder) : ExceptT PipelineError m Pipeline := do
  let { options, fonts, renderer, context } := builder
  match options.defaultFont?.filter fun font => !FontRegistry.admits fonts font with
  | some font => throw (.unknownDefaultFont font fonts.keys)
  | none =>
    note (.buildingPipeline renderer.name fonts.size options.strictTags)
    return { options, fonts, renderer, context }

end PipelineBuilder

end Folio
