/-
  Paths to files.

  A path is kept as it was written.  Two paths are equal when they have the same components: runs of
  slashes, a slash at the end and single dots inside make no difference, while a dot at the very
  start and double dots do.
-/

namespace Folio

/-- A path as it was written. -/
structure Path where
  text : String
  deriving Repr

namespace Path

/-- One component of a path. -/
inductive Part where
  | root
  | here
  | up
  | name (name : String)
  deriving DecidableEq, Repr

/-- The segments between the slashes of a path. -/
def segments : List Char → List String
  | [] => [""]
  | c :: rest =>
    if c = '/' then "" :: segments rest
    else match segments rest with
      | [] => [String.singleton c]
      | first :: others => String.ofList (c :: first.toList) :: others

/-- Whether the path starts at the root. -/
def isAbsolute (path : Path) : Bool := path.text.toList.head? == some '/'

/-- Whether the path ends in a slash. -/
def endsInSlash (path : Path) : Bool := path.text.toList.getLast? == some '/'

def isEmpty (path : Path) : Bool := path.text.isEmpty

/-- The components of a path. -/
def parts (path : Path) : List Part :=
  let segments := segments path.text.toList
  let names := (segments.filter fun s => s != "" && s != ".").map fun s =>
    if s = ".." then Part.up else .name s
  if path.isAbsolute then .root :: names
  else if segments.head? == some "." then .here :: names
  else names

instance : BEq Path := ⟨fun a b => a.parts == b.parts⟩

/-- The path from `base` on: an absolute path stands for itself, and a slash is put between the two
    unless the base is empty or ends in one. -/
def join (base other : Path) : Path :=
  if other.isAbsolute then other
  else if base.isEmpty || base.endsInSlash then ⟨base.text ++ other.text⟩
  else ⟨base.text ++ "/" ++ other.text⟩

/-- The paths to the components of a path, innermost first and before those in `found`: each is
    what is written up to the end of its component.  The segments in `read` stand before the others. -/
def upTo (read : List String) (found : List Path) : List String → List Path
  | [] => found
  | segment :: rest =>
    let written := read ++ [segment]
    if segment = "" || segment = "." && !read.isEmpty then upTo written found rest
    else upTo written (⟨"/".intercalate written⟩ :: found) rest

/-- The directories above what the path names, innermost first and as they are written in it.  The
    root has none above it, and the working directory is left out. -/
def above (path : Path) : List Path :=
  match upTo [] [] (segments path.text.toList) with
  | [] => []
  | _ :: directories => if path.isAbsolute then directories ++ [⟨"/"⟩] else directories

end Path

example : (Path.mk "a//b/./c/" == ⟨"a/b/c"⟩) = true := by decide +kernel
example : (Path.mk "./a" == ⟨"a"⟩) = false := by decide +kernel
example : (Path.mk "./a//b/./c/").above.map Path.text = ["./a//b", "./a", "."] := by
  decide +kernel
example : (Path.mk "/a/b/../c").above.map Path.text = ["/a/b/..", "/a/b", "/a", "/"] := by
  decide +kernel

end Folio
