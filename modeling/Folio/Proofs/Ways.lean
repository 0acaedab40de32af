/-
  Where paths lead.

  1. **Names** — putting something at a location and erasing it change that location only.
  2. **Ways** — a step is taken from a directory, and what it leads to depends on whether a link is
     met (`enter_eq_ok_iff`).  As long as no directory is taken away and no link is made (`Grows`),
     a path still leads where it led (`locate_of_grows`).
  3. **Last names** — what is meant by the last name of a path makes a difference only if it is that
     of a link (`locate_followed_of_created`, `locate_of_followPath_trimmed`).
  4. **Vacant paths** — where the name that a path ends in is erased, nothing stands where the path
     leads.  The way there is compared, step by step, with the one that is left (`follow_erase`,
     `vacant_erase`).
-/
import Folio.Files.FileSystem
import Mathlib.Data.List.TakeWhile

namespace Folio

namespace FileSystem

variable {files old new : FileSystem} {location place : Location} {entry : Entry} {path : Path}
  {last : LastName} {links number : Nat} {segments : List String} {bytes : ByteArray}

/-! ## Names -/

theorem find?_erased (entries : List (Location × Entry)) (location place : Location) :
    (entries.filter fun named => named.1 ≠ location).find? (fun named => named.1 = place) =
      if place = location then none else entries.find? fun named => named.1 = place := by
  rw [List.find?_filter]
  split
  · next h =>
    subst h
    refine List.find?_eq_none.2 fun named _ => ?_
    simp
  · next h =>
    congr 1
    funext named
    by_cases hplace : named.1 = place
    · simp [hplace, h]
    · simp [hplace]

theorem at?_erase (h : location ≠ []) :
    (files.erase location).at? place = if place = location then none else files.at? place := by
  unfold at? erase
  rw [find?_erased]
  by_cases hroot : place = []
  · rw [if_pos hroot, if_pos hroot, if_neg (hroot ▸ h.symm)]
  · rw [if_neg hroot, if_neg hroot]
    split <;> rfl

theorem at?_erase_self (h : location ≠ []) : (files.erase location).at? location = none := by
  rw [at?_erase h, if_pos rfl]

/-- A name that is put before all others that are not erased is what stands at its location. -/
theorem at?_of_entries (h : location ≠ [])
    (hentries : new.entries = (location, entry) :: (files.erase location).entries) :
    new.at? place = if place = location then some entry else files.at? place := by
  by_cases hplace : place = location
  · subst hplace
    rw [if_pos rfl, at?, if_neg h, hentries, List.find?_cons_of_pos (by simp)]
    rfl
  · have herased : (files.erase location).at? place = files.at? place := by
      rw [at?_erase h, if_neg hplace]
    rw [if_neg hplace, ← herased, at?, at?, hentries]
    rw [List.find?_cons_of_neg (by simpa using fun heq => hplace heq.symm)]

theorem at?_put (h : location ≠ []) (hallocated) :
    (files.put location entry hallocated).at? place =
      if place = location then some entry else files.at? place :=
  at?_of_entries h rfl

theorem at?_addFile (h : location ≠ []) :
    (files.addFile location bytes).at? place =
      if place = location then some (.file files.contents.length) else files.at? place :=
  at?_of_entries h rfl

@[simp] theorem at?_fill : (files.fill number bytes).at? place = files.at? place := rfl

theorem fill_fill (files : FileSystem) (number : Nat) (bytes bytes' : ByteArray) :
    (files.fill number bytes).fill number bytes' = files.fill number bytes' := by
  simp [fill]

theorem fill_self (h : files.contents[number]? = some bytes) : files.fill number bytes = files := by
  obtain ⟨hlt, hbytes⟩ := List.getElem?_eq_some_iff.1 h
  unfold fill
  congr 1
  rw [← hbytes, List.set_getElem_self]

theorem ne_root_of_not_directory (h : files.at? location ≠ some .directory) : location ≠ [] := by
  intro hroot
  rw [hroot] at h
  exact h rfl

theorem not_directory_of_none (h : files.at? location = none) :
    files.at? location ≠ some .directory := by simp [h]

theorem link?_of_none (h : files.at? location = none) : files.link? location = none := by
  rw [link?, h]

theorem link?_of_file (h : files.at? location = some (.file number)) :
    files.link? location = none := by
  rw [link?, h]

theorem link?_of_directory (h : files.at? location = some .directory) :
    files.link? location = none := by
  rw [link?, h]

/-! ## Ways -/

/-- What is a directory stays one, links stay as they are, and paths start where they did. -/
structure Grows (old new : FileSystem) : Prop where
  directories (place : Location) :
    old.at? place = some .directory → new.at? place = some .directory
  links (place : Location) : new.link? place = old.link? place
  workingDirectory : new.workingDirectory = old.workingDirectory

theorem Grows.refl (files : FileSystem) : Grows files files := ⟨fun _ h => h, fun _ => rfl, rfl⟩

theorem Grows.trans {between : FileSystem} (h : Grows old between) (h' : Grows between new) :
    Grows old new where
  directories place hold := h'.directories place (h.directories place hold)
  links place := (h'.links place).trans (h.links place)
  workingDirectory := h'.workingDirectory.trans h.workingDirectory

/-- A directory may be put where nothing stood. -/
theorem grows_put_directory (h : files.at? location = none) :
    Grows files (files.put location .directory) := by
  have hroot := ne_root_of_not_directory (not_directory_of_none h)
  have hnew (place : Location) : (files.put location .directory).at? place =
      if place = location then some .directory else files.at? place := at?_put hroot _
  refine ⟨fun place hplace => ?_, fun place => ?_, rfl⟩
  · rw [hnew]
    split
    · rfl
    · exact hplace
  · by_cases hplace : place = location
    · rw [hplace, link?_of_none h, link?_of_directory (by rw [hnew, if_pos rfl])]
    · rw [link?, link?, hnew, if_neg hplace]

theorem arrive_of_grows (h : Grows old new) (directory : Location) (name : String)
    (rest : List String) :
    new.arrive last directory name rest = old.arrive last directory name rest := by
  rw [arrive, arrive, h.links]

theorem arrive_of_no_link {directory : Location} {name : String} {rest : List String}
    (h : files.link? (directory ++ [name]) = none) :
    files.arrive last directory name rest = .ends (directory ++ [name]) := by
  rw [arrive, h]

theorem arrive_of_link {directory : Location} {name : String} {rest : List String} {target : Path}
    (h : files.link? (directory ++ [name]) = some target) :
    files.arrive last directory name rest =
      if last = .kept ∧ rest.all (· = "") then .ends (directory ++ [name])
      else .turns directory target rest := by
  rw [arrive, h]

/-- Where a step leads: it stays in the directory, goes up, or goes to a name. -/
def step (files : FileSystem) (last : LastName) (location : Location) (segment : String)
    (rest : List String) : Way :=
  if segment = "" ∨ segment = "." then .ends location
  else if segment = ".." then .ends location.dropLast
  else files.arrive last location segment rest

/-- Whether there is nothing but slashes behind a name. -/
def Blank (rest : List String) : Prop := rest.all (· = "") = true

/-- A step that can be taken from any directory. -/
def IsStep (last : LastName) (segment : String) (rest : List String) : Prop :=
  (segment = "" ∨ segment = ".") ∨ segment = ".." ∨
    (last = .created → Blank rest → rest = []) ∧ segment.utf8ByteSize ≤ nameLimit

/-- What it takes to take a step. -/
theorem enter_eq_ok_iff {segment : String} {rest : List String} {way : Way} :
    files.enter last location segment rest = .ok way ↔ files.at? location = some .directory ∧
      IsStep last segment rest ∧ files.step last location segment rest = way := by
  unfold enter step IsStep Blank
  cases files.at? location with
  | none => simp
  | some entry =>
    cases entry with
    | file number => simp
    | link target => simp
    | directory =>
      simp only [true_and]
      split_ifs with hstay hup hslash hlong
      · simp only [hstay, true_or, true_and, Except.ok.injEq]
      · simp only [hup, true_or, or_true, true_and, Except.ok.injEq]
      · simp only [hstay, hup, false_or, false_iff]
        exact fun h => hslash.2.1 (h.1.1 hslash.1 hslash.2.2)
      · simp only [hstay, hup, false_or, false_iff]
        exact fun h => absurd h.1.2 (by omega)
      · have hfile : last = .created → rest.all (· = "") = true → rest = [] := by
          intro hlast hblank
          by_contra hrest
          exact hslash ⟨hlast, hrest, hblank⟩
        have hshort : segment.utf8ByteSize ≤ nameLimit := by omega
        rw [Except.ok.injEq, iff_and_self]
        exact fun _ => .inr (.inr ⟨hfile, hshort⟩)

/-- A step depends on nothing but the directory it is taken from, and the link that is met. -/
theorem enter_of_grows (h : Grows old new) {segment : String} {rest : List String} {way : Way}
    (hold : old.enter last location segment rest = .ok way) :
    new.enter last location segment rest = .ok way := by
  obtain ⟨hdirectory, hstep, rfl⟩ := enter_eq_ok_iff.1 hold
  refine enter_eq_ok_iff.2 ⟨h.directories location hdirectory, hstep, ?_⟩
  rw [step, step, arrive_of_grows h]

/-- What is left to do after a step: on from where it ends, or nothing at a turn. -/
def goOn (files : FileSystem) (last : LastName) (rest : List String) : Way → Except IoError Way
  | .ends next => files.follow last next rest
  | .turns directory target behind => .ok (.turns directory target behind)

theorem follow_cons_eq_ok_iff {segment : String} {rest : List String} {way : Way} :
    files.follow last location (segment :: rest) = .ok way ↔
      ∃ first, files.enter last location segment rest = .ok first ∧
        files.goOn last rest first = .ok way := by
  rw [follow, ← bind_eq_ok_iff]
  rcases files.enter last location segment rest with error | next | ⟨directory, target, behind⟩
  · exact Iff.rfl
  · exact Iff.rfl
  · exact Iff.rfl

/-- A step is taken from a directory only. -/
theorem directory_of_follow_cons {segment : String} {rest : List String} {way : Way}
    (h : files.follow last location (segment :: rest) = .ok way) :
    files.at? location = some .directory := by
  obtain ⟨first, hstep, -⟩ := follow_cons_eq_ok_iff.1 h
  exact (enter_eq_ok_iff.1 hstep).1

/-- Where all steps can be taken, the whole way can be gone. -/
theorem follow_of_enter {files' : FileSystem} {last' : LastName} {way : Way}
    (hsteps : ∀ location segment rest first, files.enter last location segment rest = .ok first →
      files'.enter last' location segment rest = .ok first) :
    ∀ {location : Location}, files.follow last location segments = .ok way →
      files'.follow last' location segments = .ok way := by
  induction segments with
  | nil => exact fun h => h
  | cons segment rest ih =>
    intro location h
    obtain ⟨first, hstep, hrest⟩ := follow_cons_eq_ok_iff.1 h
    refine follow_cons_eq_ok_iff.2 ⟨first, hsteps location segment rest first hstep, ?_⟩
    cases first with
    | ends next => exact ih hrest
    | turns directory target behind => exact hrest

/-- Segments lead to a place, through so many links at most. -/
inductive Leads (files : FileSystem) (last : LastName) (place : Location) :
    Nat → Location → List String → Prop
  | ends {links : Nat} {location : Location} {segments : List String} :
      files.follow last location segments = .ok (.ends place) →
      Leads files last place links location segments
  | turns {links : Nat} {location directory : Location} {target : Path}
      {segments rest : List String} :
      files.follow last location segments = .ok (.turns directory target rest) →
      Leads files last place links (startIn directory target)
        (Path.segments target.text.toList ++ rest) →
      Leads files last place (links + 1) location segments

/-- Where segments lead is what resolving them comes to. -/
theorem leads_iff : ∀ {links : Nat} {location : Location} {segments : List String},
    Leads files last place links location segments ↔
      files.resolve last links location segments = .ok place := by
  intro links location segments
  constructor
  · intro h
    induction h with
    | ends hfollow => rw [resolve, hfollow]
    | turns hfollow _ ih => rw [resolve, hfollow]; exact ih
  · intro h
    induction links generalizing location segments with
    | zero =>
      rw [resolve] at h
      split at h
      · cases h
      · next hfollow => cases h; exact .ends hfollow
      · cases h
    | succ links ih =>
      rw [resolve] at h
      split at h
      · cases h
      · next hfollow => cases h; exact .ends hfollow
      · next hfollow => exact .turns hfollow (ih h)

theorem Leads.of_enter {files' : FileSystem} {last' : LastName}
    (hsteps : ∀ location segment rest first, files.enter last location segment rest = .ok first →
      files'.enter last' location segment rest = .ok first)
    (h : Leads files last place links location segments) :
    Leads files' last' place links location segments := by
  induction h with
  | ends hfollow => exact .ends (follow_of_enter hsteps hfollow)
  | turns hfollow _ ih => exact .turns (follow_of_enter hsteps hfollow) ih

/-- Whether the text can be a path. -/
def CanBePath (path : Path) : Prop :=
  '\x00' ∉ path.text.toList ∧ path.text.utf8ByteSize ≤ pathLimit ∧ path.isEmpty = false

theorem followPath_eq_ok_iff :
    files.followPath last path segments = .ok place ↔
      CanBePath path ∧
        Leads files last place linkLimit (startIn files.workingDirectory path) segments := by
  rw [leads_iff]
  unfold followPath CanBePath
  split
  · next h =>
    have hnul : '\x00' ∈ path.text.toList := by simpa using h
    simp [hnul]
  · next h =>
    have hnul : '\x00' ∉ path.text.toList := by simpa using h
    split
    · next hlimit =>
      have hlong : ¬path.text.utf8ByteSize ≤ pathLimit := by omega
      simp [hlong]
    · next hlimit =>
      have hshort : path.text.utf8ByteSize ≤ pathLimit := by omega
      split
      · next hempty => simp [hempty]
      · next hempty => simp [hnul, hshort, hempty]

theorem followPath_of_grows (h : Grows old new)
    (hold : old.followPath last path segments = .ok place) :
    new.followPath last path segments = .ok place := by
  obtain ⟨hpath, hleads⟩ := followPath_eq_ok_iff.1 hold
  rw [← h.workingDirectory] at hleads
  exact followPath_eq_ok_iff.2 ⟨hpath, hleads.of_enter fun _ _ _ _ => enter_of_grows h⟩

/-- **Where a path led it still leads.** -/
theorem locate_of_grows (h : Grows old new) (hold : old.locate last path = .ok place) :
    new.locate last path = .ok place :=
  followPath_of_grows h hold

/-! ## Last names -/

theorem arrive_followed_of_created (directory : Location) (name : String) (rest : List String) :
    files.arrive .followed directory name rest = files.arrive .created directory name rest := by
  unfold arrive
  simp only [reduceCtorEq, false_and, if_false]

theorem IsStep.of_ne_created {last last' : LastName} {segment : String}
    {rest rest' : List String} (h : IsStep last segment rest) (hlast' : last' ≠ .created) :
    IsStep last' segment rest' :=
  h.imp_right (Or.imp_right fun hname => ⟨fun hlast => absurd hlast hlast', hname.2⟩)

theorem enter_followed_of_created {segment : String} {rest : List String} {way : Way}
    (h : files.enter .created location segment rest = .ok way) :
    files.enter .followed location segment rest = .ok way := by
  obtain ⟨hdirectory, hstep, rfl⟩ := enter_eq_ok_iff.1 h
  refine enter_eq_ok_iff.2 ⟨hdirectory, hstep.of_ne_created (by decide), ?_⟩
  rw [step, step, arrive_followed_of_created]

/-- A file is created where the path leads. -/
theorem locate_followed_of_created (h : files.locate .created path = .ok place) :
    files.locate .followed path = .ok place := by
  obtain ⟨hpath, hleads⟩ := followPath_eq_ok_iff.1 h
  exact followPath_eq_ok_iff.2
    ⟨hpath, hleads.of_enter fun _ _ _ _ => enter_followed_of_created⟩

/-- The same way, with further segments behind it. -/
def Way.behind (rest : List String) : Way → Way
  | ends location => ends location
  | turns directory target further => turns directory target (further ++ rest)

/-- Only from a directory can anything be reached. -/
theorem directory_of_follow {way : Way} (h : files.follow last location segments = .ok way)
    (hends : ∀ place, way = .ends place → files.at? place = some .directory) :
    files.at? location = some .directory := by
  cases segments with
  | nil =>
    cases h
    exact hends location rfl
  | cons segment rest => exact directory_of_follow_cons h

theorem arrive_followed_of_kept {name : String} {rest : List String}
    (hends : ∀ next, files.arrive .kept location name rest = .ends next →
      files.at? next = some .directory) (behind : List String) :
    files.arrive .followed location name (rest ++ behind) =
      (files.arrive .kept location name rest).behind behind := by
  cases hlink : files.link? (location ++ [name]) with
  | none => rw [arrive_of_no_link hlink, arrive_of_no_link hlink, Way.behind]
  | some target =>
    rw [arrive_of_link hlink, if_neg fun hlast => by cases hlast.1]
    rw [arrive_of_link hlink] at hends ⊢
    split at hends
    · -- the link would have been meant itself, but it is no directory
      have hdirectory := link?_of_directory (hends _ rfl)
      rw [hlink] at hdirectory
      cases hdirectory
    · next hlast => rw [if_neg hlast, Way.behind]

theorem enter_followed_of_kept {segment : String} {rest : List String} {way : Way}
    (h : files.enter .kept location segment rest = .ok way)
    (hends : ∀ next, way = .ends next → files.at? next = some .directory) (behind : List String) :
    files.enter .followed location segment (rest ++ behind) = .ok (way.behind behind) := by
  obtain ⟨hdirectory, hstep, rfl⟩ := enter_eq_ok_iff.1 h
  refine enter_eq_ok_iff.2 ⟨hdirectory, hstep.of_ne_created (by decide), ?_⟩
  unfold step at hends ⊢
  split_ifs at hends ⊢
  · rfl
  · rfl
  · exact arrive_followed_of_kept hends behind

section Slashes

variable {blanks : List String} (hblanks : Blank blanks)

include hblanks

/-- Slashes behind the name of a directory are no step. -/
theorem follow_blanks (h : files.at? location = some .directory) :
    files.follow last location blanks = .ok (.ends location) := by
  induction blanks with
  | nil => rfl
  | cons blank rest ih =>
    obtain ⟨hblank, hrest⟩ : blank = "" ∧ Blank rest := by simpa [Blank] using hblanks
    have hstep : files.enter last location blank rest = .ok (.ends location) :=
      enter_eq_ok_iff.2 ⟨h, .inl (.inl hblank), if_pos (.inl hblank)⟩
    exact follow_cons_eq_ok_iff.2 ⟨_, hstep, ih hrest⟩

theorem follow_followed_of_kept {way : Way}
    (hends : ∀ place, way = .ends place → files.at? place = some .directory) :
    ∀ {location : Location}, files.follow .kept location segments = .ok way →
      files.follow .followed location (segments ++ blanks) = .ok (way.behind blanks) := by
  induction segments with
  | nil =>
    rintro location ⟨⟩
    exact follow_blanks hblanks (hends location rfl)
  | cons segment rest ih =>
    intro location h
    obtain ⟨first, hstep, hrest⟩ := follow_cons_eq_ok_iff.1 h
    have hnext (next : Location) (heq : first = .ends next) :
        files.at? next = some .directory := by
      cases heq
      exact directory_of_follow hrest hends
    have hstep' := enter_followed_of_kept hstep hnext blanks
    refine follow_cons_eq_ok_iff.2 ⟨_, hstep', ?_⟩
    cases first with
    | ends next => exact ih hrest
    | turns directory target behind =>
      cases hrest
      rfl

theorem Leads.followed_of_kept (hplace : files.at? place = some .directory)
    (h : Leads files .kept place links location segments) :
    Leads files .followed place links location (segments ++ blanks) := by
  induction h with
  | ends hfollow =>
    refine .ends (follow_followed_of_kept hblanks (fun _ heq => ?_) hfollow)
    cases heq
    exact hplace
  | turns hfollow _ ih =>
    rw [List.append_assoc] at ih
    refine .turns (follow_followed_of_kept hblanks (fun _ heq => ?_) hfollow) ih
    cases heq

end Slashes

theorem segments_eq_trimmed_append (path : Path) :
    ∃ blanks, Path.segments path.text.toList = trimmed path ++ blanks ∧ Blank blanks := by
  refine ⟨((Path.segments path.text.toList).reverse.takeWhile (· = "")).reverse, ?_, ?_⟩
  · rw [trimmed, ← List.reverse_append, List.takeWhile_append_dropWhile, List.reverse_reverse]
  · rw [Blank, List.all_reverse, List.all_eq_true]
    exact fun segment h => by simpa using List.mem_takeWhile_imp h

/-- A path leads to the directory that it names, with or without slashes at its end. -/
theorem locate_of_followPath_trimmed (h : files.followPath .kept path (trimmed path) = .ok place)
    (hplace : files.at? place = some .directory) : files.locate .followed path = .ok place := by
  obtain ⟨hpath, hleads⟩ := followPath_eq_ok_iff.1 h
  obtain ⟨blanks, hsegments, hblanks⟩ := segments_eq_trimmed_append path
  refine followPath_eq_ok_iff.2 ⟨hpath, ?_⟩
  rw [hsegments]
  exact hleads.followed_of_kept hblanks hplace

/-! ## Vacant paths -/

/-- Nothing stands where a path leads, whatever is meant by its last name. -/
def Vacant (files : FileSystem) (path : Path) : Prop :=
  ∀ last place, files.locate last path = .ok place → files.at? place = none

/-- There is no way on from what is no directory. -/
theorem follow_of_not_directory {way : Way} (hplace : files.at? location ≠ some .directory)
    (h : files.follow last location segments = .ok way) : way = .ends location := by
  cases segments with
  | nil =>
    cases h
    rfl
  | cons segment rest => exact absurd (directory_of_follow_cons h) hplace

/-- Where the end of a way is erased, a step that is not the same comes there, or goes on from a
    link. -/
theorem enter_erase {own : Location} {last' : LastName} {segment : String} {rest : List String}
    {way way' : Way} (hown : own ≠ [])
    (h : files.enter .kept location segment rest = .ok way)
    (h' : (files.erase own).enter last' location segment rest = .ok way') :
    way' = .ends own ∨ way' = way ∨
      ∃ next target, way = .ends next ∧ next ≠ own ∧ files.link? next = some target := by
  obtain ⟨-, -, hway⟩ := enter_eq_ok_iff.1 h
  obtain ⟨-, -, hway'⟩ := enter_eq_ok_iff.1 h'
  rw [step] at hway hway'
  by_cases hstay : segment = "" ∨ segment = "."
  · rw [if_pos hstay] at hway hway'
    exact .inr (.inl (hway'.symm.trans hway))
  by_cases hup : segment = ".."
  · rw [if_neg hstay, if_pos hup] at hway hway'
    exact .inr (.inl (hway'.symm.trans hway))
  rw [if_neg hstay, if_neg hup] at hway hway'
  by_cases hplace : location ++ [segment] = own
  · have hnone : (files.erase own).at? (location ++ [segment]) = none := by
      rw [hplace, at?_erase_self hown]
    rw [arrive_of_no_link (link?_of_none hnone), hplace] at hway'
    exact .inl hway'.symm
  have hsame : (files.erase own).link? (location ++ [segment]) =
      files.link? (location ++ [segment]) := by
    rw [link?, at?_erase hown, if_neg hplace, link?]
  cases hlink : files.link? (location ++ [segment]) with
  | none =>
    rw [arrive_of_no_link hlink] at hway
    rw [arrive_of_no_link (hsame.trans hlink)] at hway'
    exact .inr (.inl (hway'.symm.trans hway))
  | some target =>
    rw [arrive_of_link hlink] at hway
    rw [arrive_of_link (hsame.trans hlink)] at hway'
    by_cases hlast : rest.all (· = "") = true
    · rw [if_pos ⟨rfl, hlast⟩] at hway
      exact .inr (.inr ⟨_, target, hway.symm, hplace, hlink⟩)
    · rw [if_neg fun hkept => hlast hkept.2] at hway hway'
      exact .inr (.inl (hway'.symm.trans hway))

/-- Where the end of a way is erased, the way that is left ends where nothing stands, or turns as
    before. -/
theorem follow_erase {own : Location} {last' : LastName} {way way' : Way}
    (hown : files.at? own ≠ some .directory) (hends : ∀ place, way = .ends place → place = own) :
    ∀ {location : Location}, files.follow .kept location segments = .ok way →
      (files.erase own).follow last' location segments = .ok way' →
        (∃ place, way' = .ends place ∧ (files.erase own).at? place = none) ∨
          (∃ directory target rest, way = .turns directory target rest) ∧ way' = way := by
  have hroot := ne_root_of_not_directory hown
  have hgone : (files.erase own).at? own = none := at?_erase_self hroot
  induction segments with
  | nil =>
    rintro location ⟨⟩ ⟨⟩
    exact .inl ⟨location, rfl, (hends location rfl).symm ▸ hgone⟩
  | cons segment rest ih =>
    intro location h h'
    obtain ⟨first, hstep, hrest⟩ := follow_cons_eq_ok_iff.1 h
    obtain ⟨first', hstep', hrest'⟩ := follow_cons_eq_ok_iff.1 h'
    rcases enter_erase hroot hstep hstep' with rfl | rfl | ⟨next, target, rfl, hnext, htarget⟩
    · have hway' := follow_of_not_directory (not_directory_of_none hgone) hrest'
      exact .inl ⟨own, hway', hgone⟩
    · cases first' with
      | ends next => exact ih hrest hrest'
      | turns directory target behind =>
        cases hrest
        cases hrest'
        exact .inr ⟨⟨directory, target, behind, rfl⟩, rfl⟩
    · -- from a link there is no way on, so the way would end there and not where it does
      have hlink : files.at? next ≠ some .directory := by
        intro hdirectory
        rw [link?_of_directory hdirectory] at htarget
        cases htarget
      exact absurd (hends next (follow_of_not_directory hlink hrest)) hnext

/-- The way that is left turns where the old one did, as long as that did not end. -/
theorem Leads.at?_erase_eq_none {own : Location} {last' : LastName}
    (hown : files.at? own ≠ some .directory)
    (h : Leads files .kept own links location segments) : ∀ {links' : Nat},
      Leads (files.erase own) last' place links' location segments →
        (files.erase own).at? place = none := by
  induction h with
  | ends hfollow =>
    intro links' h'
    have hends (place' : Location) (heq : Way.ends own = .ends place') : place' = own :=
      (Way.ends.inj heq).symm
    cases h' with
    | ends hfollow' =>
      rcases follow_erase hown hends hfollow hfollow' with
        ⟨_, ⟨⟩, hnone⟩ | ⟨⟨_, _, _, hway⟩, -⟩
      · exact hnone
      · cases hway
    | turns hfollow' _ =>
      rcases follow_erase hown hends hfollow hfollow' with ⟨_, hway, -⟩ | ⟨⟨_, _, _, hway⟩, -⟩
      · cases hway
      · cases hway
  | @turns _ _ directory target _ rest hfollow _ ih =>
    intro links' h'
    have hends (place' : Location) (heq : Way.turns directory target rest = .ends place') :
        place' = own := by cases heq
    cases h' with
    | ends hfollow' =>
      rcases follow_erase hown hends hfollow hfollow' with ⟨_, ⟨⟩, hnone⟩ | ⟨-, hway⟩
      · exact hnone
      · cases hway
    | turns hfollow' hrest' =>
      rcases follow_erase hown hends hfollow hfollow' with ⟨_, hway, -⟩ | ⟨-, ⟨⟩⟩
      · cases hway
      · exact ih hrest'

/-- **Where the name that a path ends in is erased, nothing stands where it leads.** -/
theorem vacant_erase (h : files.locate .kept path = .ok place)
    (hplace : files.at? place ≠ some .directory) : (files.erase place).Vacant path := by
  intro last found hfound
  obtain ⟨-, hleads⟩ := followPath_eq_ok_iff.1 h
  obtain ⟨-, hfound⟩ := followPath_eq_ok_iff.1 hfound
  exact hleads.at?_erase_eq_none hplace hfound

end FileSystem

end Folio
