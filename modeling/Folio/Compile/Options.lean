/-
  Settings of a compilation.
-/
import Folio.Definition

namespace Folio

/-- Settings of a compilation. -/
structure Options where
  /-- The style that definitions carry. -/
  defaultStyle : Option Json
  /-- Whether tags outside the vocabulary are errors; else they are left out. -/
  strictTags : Bool := false
  /-- Whether zeros are blank. -/
  dropZero : Bool := true

namespace Options

/-- The style that names a font family, at size 10. -/
def styleOfFont (family : String) : Json :=
  .object [("font", .string family), ("fontSize", .number (.ofNat 10))]

/-- The usual settings: lenient, without zeros, in OpenSans. -/
def standard : Options where
  defaultStyle := some (styleOfFont "OpenSans")

/-- The font family that the default style names. -/
def defaultFont? (options : Options) : Option String := fontOfStyle options.defaultStyle

end Options

end Folio
