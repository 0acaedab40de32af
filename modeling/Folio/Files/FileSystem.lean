/-
  A file system as a value.

  Names stand at locations, which are the names on the way from the root.  A name is that of a
  directory, of a file or of a link.  A file is told by a number and may have several names, so its
  bytes are kept apart from them; a link stands for another path.

  A path leads to a location step by step, and every step needs a directory to start from; what the
  path ends at need not exist.  Links on the way are followed.  If the last name of the path is that
  of a link, then some operations mean what it leads to, and others the link itself (`LastName`).
  `FileSystem.disk` makes the operations of a `Disk` of it.
-/
import Folio.Files.Disk

namespace Folio

/-- What a name stands for. -/
inductive Entry where
  | directory
  /-- A file by its number; two names with one number are names of one file. -/
  | file (number : Nat)
  /-- A link, with the path that is followed in its place. -/
  | link (target : Path)

/-- The names on the way from the root. -/
abbrev Location := List String

/-- Names, the bytes of files, and the working directory. -/
structure FileSystem where
  entries : List (Location × Entry) := []
  /-- The bytes of each file, by its number. -/
  contents : List ByteArray := []
  workingDirectory : Location := []
  /-- How large files may get, if there is a limit. -/
  sizeLimit : Option Nat := none
  allocated : ∀ named ∈ entries, ∀ number, named.2 = .file number → number < contents.length := by
    simp

namespace FileSystem

/-- Nothing but the root. -/
def empty : FileSystem := {}

/-- What stands at a location; the root is always a directory. -/
def at? (files : FileSystem) (location : Location) : Option Entry :=
  if location = [] then some .directory
  else (files.entries.find? fun named => named.1 = location).map Prod.snd

/-- Removes what stands at a location.  The bytes of a file stay with its other names, and with
    those who have it open. -/
def erase (files : FileSystem) (location : Location) : FileSystem where
  entries := files.entries.filter fun named => named.1 ≠ location
  contents := files.contents
  workingDirectory := files.workingDirectory
  sizeLimit := files.sizeLimit
  allocated named h := files.allocated named (List.mem_filter.1 h).1

/-- Puts a directory or a link at a location, or a file that there is, in place of what was there. -/
def put (files : FileSystem) (location : Location) (entry : Entry)
    (h : ∀ number, entry = .file number → number < files.contents.length := by simp) :
    FileSystem where
  entries := (location, entry) :: (files.erase location).entries
  contents := files.contents
  workingDirectory := files.workingDirectory
  sizeLimit := files.sizeLimit
  allocated := List.forall_mem_cons.2 ⟨h, (files.erase location).allocated⟩

/-- Puts a new file at a location, in place of what was there. -/
def addFile (files : FileSystem) (location : Location) (bytes : ByteArray) : FileSystem where
  entries := (location, .file files.contents.length) :: (files.erase location).entries
  contents := files.contents ++ [bytes]
  workingDirectory := files.workingDirectory
  sizeLimit := files.sizeLimit
  allocated := by
    rw [List.length_append, List.length_singleton]
    refine List.forall_mem_cons.2 ⟨?_, fun named hnamed number hnumber => ?_⟩
    · rintro number ⟨⟩
      exact Nat.lt_succ_self _
    · exact Nat.lt_succ_of_lt ((files.erase location).allocated named hnamed number hnumber)

/-- Replaces the bytes of a file. -/
def fill (files : FileSystem) (number : Nat) (bytes : ByteArray) : FileSystem where
  entries := files.entries
  contents := files.contents.set number bytes
  workingDirectory := files.workingDirectory
  sizeLimit := files.sizeLimit
  allocated := by
    rw [List.length_set]
    exact files.allocated

/-! ## Following paths -/

/-- How many bytes a name has at most. -/
def nameLimit : Nat := 255

/-- How many bytes a path has at most. -/
def pathLimit : Nat := 4095

/-- How many links are followed at most. -/
def linkLimit : Nat := 40

/-- What is meant by the last name of a path, if it is that of a link. -/
inductive LastName where
  /-- What the link leads to. -/
  | followed
  /-- What the link leads to, which has to be a file: a slash behind the name is refused. -/
  | created
  /-- The link. -/
  | kept
  deriving DecidableEq

/-- Where some segments lead, as far as that can be told without following a link. -/
inductive Way where
  | ends (location : Location)
  /-- A link is met in a directory; behind it there are further segments. -/
  | turns (directory : Location) (target : Path) (rest : List String)

/-- The target of the link at a location, if there is a link. -/
def link? (files : FileSystem) (location : Location) : Option Path :=
  match files.at? location with
  | some (.link target) => some target
  | _ => none

/-- Goes to a name in a directory.  A link is followed, unless it is the last name and meant itself;
    `rest` is what stands behind the name. -/
def arrive (files : FileSystem) (last : LastName) (directory : Location) (name : String)
    (rest : List String) : Way :=
  match files.link? (directory ++ [name]) with
  | none => .ends (directory ++ [name])
  | some target =>
    if last = .kept ∧ rest.all (· = "") then .ends (directory ++ [name])
    else .turns directory target rest

/-- Takes one step from a location, which has to be a directory. -/
def enter (files : FileSystem) (last : LastName) (location : Location) (segment : String)
    (rest : List String) : Except IoError Way :=
  match files.at? location with
  | none => .error .notFound
  | some .directory =>
    if segment = "" ∨ segment = "." then .ok (.ends location)
    else if segment = ".." then .ok (.ends location.dropLast)
    else if last = .created ∧ rest ≠ [] ∧ rest.all (· = "") then .error .isADirectory
    else if nameLimit < segment.utf8ByteSize then .error .nameTooLong
    else .ok (files.arrive last location segment rest)
  | some _ => .error .notADirectory

/-- Follows segments from a location, up to the first link that is to be followed. -/
def follow (files : FileSystem) (last : LastName) (location : Location) :
    List String → Except IoError Way
  | [] => .ok (.ends location)
  | segment :: rest =>
    match files.enter last location segment rest with
    | .error error => .error error
    | .ok (.ends next) => files.follow last next rest
    | .ok (.turns directory target rest) => .ok (.turns directory target rest)

/-- Where a path starts that is found in a directory. -/
def startIn (directory : Location) (path : Path) : Location :=
  if path.isAbsolute then [] else directory

/-- Follows segments from a location, and so many links at most. -/
def resolve (files : FileSystem) (last : LastName) (links : Nat) (location : Location)
    (segments : List String) : Except IoError Location :=
  match files.follow last location segments with
  | .error error => .error error
  | .ok (.ends place) => .ok place
  | .ok (.turns directory target rest) =>
    match links with
    | 0 => .error .tooManyLinks
    | links + 1 => files.resolve last links (startIn directory target)
        (Path.segments target.text.toList ++ rest)

/-- The segments of a path without the slashes at its end. -/
def trimmed (path : Path) : List String :=
  ((Path.segments path.text.toList).reverse.dropWhile (· = "")).reverse

/-- Follows some segments of a path from where it starts, if it can be a path at all. -/
def followPath (files : FileSystem) (last : LastName) (path : Path) (segments : List String) :
    Except IoError Location :=
  if path.text.toList.contains '\x00' then .error .nulInPath
  else if pathLimit < path.text.utf8ByteSize then .error .nameTooLong
  else if path.isEmpty then .error .notFound
  else files.resolve last linkLimit (startIn files.workingDirectory path) segments

/-- The location that a path leads to; a slash at its end demands a directory. -/
def locate (files : FileSystem) (last : LastName) (path : Path) : Except IoError Location :=
  files.followPath last path (Path.segments path.text.toList)

/-! ## Operations -/

def read (files : FileSystem) (path : Path) : Except IoError ByteArray := do
  match files.at? (← files.locate .followed path) with
  | some (.file number) => .ok (files.contents.getD number ByteArray.empty)
  | some .directory => .error .isADirectory
  | _ => .error .notFound

def isDirectory (files : FileSystem) (path : Path) : Bool :=
  match files.locate .followed path with
  | .error _ => false
  | .ok location =>
    match files.at? location with
    | some .directory => true
    | _ => false

/-- Makes a directory; slashes at the end of the path make no difference. -/
def makeDirectory (files : FileSystem) (path : Path) : Except IoError FileSystem := do
  let location ← files.followPath .kept path (trimmed path)
  match files.at? location with
  | some _ => .error .alreadyExists
  | none => .ok (files.put location .directory)

/-- Creates a file or makes it empty, and says which it is. -/
def create (files : FileSystem) (path : Path) : Except IoError (Nat × FileSystem) := do
  let location ← files.locate .created path
  match files.at? location with
  | none => return (files.contents.length, files.addFile location ByteArray.empty)
  | some (.file number) => return (number, files.fill number ByteArray.empty)
  | some .directory => throw .isADirectory
  | some (.link _) => throw .tooManyLinks

/-- How many of these bytes there is room for behind those that a file holds. -/
def room (files : FileSystem) (held bytes : ByteArray) : Nat :=
  match files.sizeLimit with
  | none => bytes.size
  | some limit => limit - held.size

/-- Adds bytes at the end of a file, as many as there is room for. -/
def write (files : FileSystem) (number : Nat) (bytes : ByteArray) :
    Except WriteFailure Unit × FileSystem :=
  match files.contents[number]? with
  | none => (.error ⟨0, .notFound⟩, files)
  | some held =>
    let room := files.room held bytes
    if bytes.size ≤ room then (.ok (), files.fill number (held ++ bytes))
    else
      (.error ⟨room, .other "File too large (os error 27)"⟩,
        files.fill number (held ++ bytes.extract 0 room))

/-- Removes a file or a link. -/
def remove (files : FileSystem) (path : Path) : Except IoError FileSystem := do
  let location ← files.locate .kept path
  match files.at? location with
  | none => .error .notFound
  | some .directory => .error .isADirectory
  | some _ => .ok (files.erase location)

/-! ## As a disk -/

variable {m : Type → Type} [Monad m] [MonadStateOf FileSystem m]

/-- Changes the file system if that succeeds. -/
def changing (change : FileSystem → Except IoError FileSystem) : ExceptT IoError m Unit := do
  set (← settle (change (← get)))

/-- The operations of a disk on a file system that is kept as state. -/
def disk : Disk Nat m where
  read path := do settle (FileSystem.read (← get) path)
  isDirectory path := do return FileSystem.isDirectory (← get) path
  makeDirectory path := changing fun files => files.makeDirectory path
  create path := do
    let (number, files) ← settle (FileSystem.create (← get) path)
    set files
    return number
  write number bytes := do
    let (result, files) := FileSystem.write (← get) number bytes
    set files
    settle result
  remove path := changing fun files => files.remove path

end FileSystem

end Folio
