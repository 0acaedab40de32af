/-
  What the operations on a file system change.

  1. **Operations** — what each of them did if it succeeded (`makeDirectory_eq_ok` and so on).
  2. **New directories** — `AddsDirectories paths old new`: the two file systems differ in new
     directories only, and those paths lead to them.
  3. **One file** — `TouchesFile path old new`: they differ only in the file that the path leads to,
     and in the name that the path ends in.  A file that is created, filled and perhaps removed
     again keeps to this (`Creates.touchesFile_fill`, `Creates.touchesFile_remove`).
-/
import Folio.Proofs.Ways

namespace Folio

namespace FileSystem

variable {files old new : FileSystem} {place : Location} {path : Path} {number : Nat}
  {bytes : ByteArray}

/-! ## Operations -/

theorem makeDirectory_eq_ok (h : old.makeDirectory path = .ok new) :
    ∃ place, old.followPath .kept path (trimmed path) = .ok place ∧ old.at? place = none ∧
      new = old.put place .directory := by
  obtain ⟨place, hlocate, hnew⟩ := bind_eq_ok_iff.1 h
  split at hnew
  · cases hnew
  · next hnone =>
    cases hnew
    exact ⟨place, hlocate, hnone, rfl⟩

theorem create_eq_ok (h : old.create path = .ok (number, new)) :
    ∃ place, old.locate .created path = .ok place ∧
      (old.at? place = none ∧ number = old.contents.length ∧ new = old.addFile place .empty ∨
        old.at? place = some (.file number) ∧ new = old.fill number .empty) := by
  obtain ⟨place, hlocate, hnew⟩ := bind_eq_ok_iff.1 h
  split at hnew
  · next hnone =>
    cases hnew
    exact ⟨place, hlocate, .inl ⟨hnone, rfl, rfl⟩⟩
  · next hfile =>
    cases hnew
    exact ⟨place, hlocate, .inr ⟨hfile, rfl⟩⟩
  · cases hnew
  · cases hnew

theorem remove_eq_ok (h : old.remove path = .ok new) :
    ∃ place, old.locate .kept path = .ok place ∧ old.at? place ≠ some .directory ∧
      new = old.erase place := by
  obtain ⟨place, hlocate, hnew⟩ := bind_eq_ok_iff.1 h
  split at hnew
  · cases hnew
  · cases hnew
  · next entry hdirectory hplace =>
    cases hnew
    exact ⟨place, hlocate, fun heq => hdirectory (Option.some.inj (hplace.symm.trans heq)), rfl⟩

/-- **Where something was removed, nothing stands any more.** -/
theorem vacant_of_remove (h : old.remove path = .ok new) : new.Vacant path := by
  obtain ⟨place, hlocate, hplace, rfl⟩ := remove_eq_ok h
  exact vacant_erase hlocate hplace

theorem write_eq_ok_iff {held : ByteArray} (hheld : old.contents[number]? = some held) :
    old.write number bytes = (.ok (), new) ↔
      bytes.size ≤ old.room held bytes ∧ old.fill number (held ++ bytes) = new := by
  rw [write, hheld]
  simp only
  split
  · next hroom => simp [hroom]
  · next hroom => simp [hroom]

theorem read_eq_ok (hlocate : files.locate .followed path = .ok place)
    (hplace : files.at? place = some (.file number))
    (hbytes : files.contents[number]? = some bytes) :
    files.read path = .ok bytes := by
  refine bind_eq_ok_iff.2 ⟨place, hlocate, ?_⟩
  rw [hplace]
  simp only
  rw [List.getD_eq_getElem?_getD, hbytes, Option.getD_some]

/-! ## New directories -/

/-- Between the two file systems, some of the directories that the paths lead to were added, and
    nothing else. -/
structure AddsDirectories (paths : List Path) (old new : FileSystem) : Prop where
  grows : Grows old new
  entries (place : Location) : new.at? place = old.at? place ∨
    (old.at? place = none ∧ new.at? place = some .directory ∧
      ∃ path ∈ paths, new.locate .followed path = .ok place)
  contents : new.contents = old.contents

namespace AddsDirectories

variable {paths : List Path}

theorem refl (paths : List Path) (files : FileSystem) : AddsDirectories paths files files :=
  ⟨Grows.refl files, fun _ => .inl rfl, rfl⟩

theorem trans {between : FileSystem} (h : AddsDirectories paths old between)
    (h' : AddsDirectories paths between new) : AddsDirectories paths old new where
  grows := h.grows.trans h'.grows
  entries place := by
    rcases h'.entries place with hsame | ⟨hnone, hnew⟩
    · rw [hsame]
      rcases h.entries place with hold | ⟨hnone, hdirectory, path, hpath, hlocate⟩
      · exact .inl hold
      · exact .inr ⟨hnone, hdirectory, path, hpath, locate_of_grows h'.grows hlocate⟩
    · rcases h.entries place with hold | ⟨-, hdirectory, -⟩
      · exact .inr ⟨hold ▸ hnone, hnew⟩
      · rw [hdirectory] at hnone
        cases hnone
  contents := h'.contents.trans h.contents

theorem mono {paths' : List Path} (h : AddsDirectories paths old new)
    (hsubset : ∀ path ∈ paths, path ∈ paths') : AddsDirectories paths' old new where
  grows := h.grows
  entries place := (h.entries place).imp_right fun ⟨hnone, hdirectory, path, hpath, hlocate⟩ =>
    ⟨hnone, hdirectory, path, hsubset path hpath, hlocate⟩
  contents := h.contents

/-- Making a directory adds it. -/
theorem makeDirectory (h : old.makeDirectory path = .ok new) (hpath : path ∈ paths) :
    AddsDirectories paths old new := by
  obtain ⟨made, hlocate, hnone, rfl⟩ := makeDirectory_eq_ok h
  have hroot := ne_root_of_not_directory (not_directory_of_none hnone)
  have hgrows := grows_put_directory hnone
  refine ⟨hgrows, fun place => ?_, rfl⟩
  by_cases hplace : place = made
  · subst hplace
    have hdirectory : (old.put place .directory).at? place = some .directory := by
      rw [at?_put hroot, if_pos rfl]
    have hlocated := locate_of_followPath_trimmed (followPath_of_grows hgrows hlocate) hdirectory
    exact .inr ⟨hnone, hdirectory, path, hpath, hlocated⟩
  · rw [at?_put hroot, if_neg hplace]
    exact .inl rfl

end AddsDirectories

/-! ## One file -/

theorem lt_length_of_file (h : files.at? place = some (.file number)) :
    number < files.contents.length := by
  rw [at?] at h
  split at h
  · cases h
  · obtain ⟨named, hfind, hentry⟩ := Option.map_eq_some_iff.1 h
    exact files.allocated named (List.mem_of_find?_eq_some hfind) number hentry

/-- A file that the path leads to was created or made empty, and nothing else happened. -/
structure Creates (path : Path) (place : Location) (number : Nat) (old new : FileSystem) :
    Prop where
  locate : old.locate .followed path = .ok place
  before : old.at? place = none ∧ old.contents.length ≤ number ∨
    old.at? place = some (.file number)
  after : new.at? place = some (.file number)
  elsewhere (other : Location) : other ≠ place → new.at? other = old.at? other
  empty : new.contents[number]? = some .empty
  others (other : Nat) (bytes : ByteArray) : other ≠ number →
    old.contents[other]? = some bytes → new.contents[other]? = some bytes
  workingDirectory : new.workingDirectory = old.workingDirectory

theorem creates_of_create (h : old.create path = .ok (number, new)) :
    ∃ place, Creates path place number old new := by
  obtain ⟨place, hlocate, ⟨hnone, rfl, rfl⟩ | ⟨hfile, rfl⟩⟩ := create_eq_ok h
  · have hat (other : Location) : (old.addFile place .empty).at? other = _ :=
      at?_addFile (ne_root_of_not_directory (not_directory_of_none hnone))
    refine ⟨place, locate_followed_of_created hlocate, .inl ⟨hnone, le_rfl⟩, ?_, ?_, ?_, ?_, rfl⟩
    · rw [hat, if_pos rfl]
    · intro other hother
      rw [hat, if_neg hother]
    · exact List.getElem?_concat_length
    · intro other bytes _ hbytes
      have hlt : other < old.contents.length := (List.getElem?_eq_some_iff.1 hbytes).1
      exact (List.getElem?_append_left hlt).trans hbytes
  · have hfollowed := locate_followed_of_created hlocate
    refine ⟨place, hfollowed, .inr hfile, hfile, fun _ _ => rfl, ?_, ?_, rfl⟩
    · exact List.getElem?_set_self (lt_length_of_file hfile)
    · intro other bytes hother hbytes
      exact (List.getElem?_set_ne hother.symm).trans hbytes

/-- Two file systems differ only in the file that the path leads to, and in the name that the path
    ends in.  The file may be new, its bytes may be others, and the name may be gone. -/
structure TouchesFile (path : Path) (old new : FileSystem) : Prop where
  entries (place : Location) : new.at? place = old.at? place ∨
    (old.at? place = none ∧ old.locate .followed path = .ok place ∧
      ∃ number, new.at? place = some (.file number) ∧ old.contents.length ≤ number) ∨
    (new.at? place = none ∧ old.locate .kept path = .ok place ∧
      old.at? place ≠ some .directory)
  contents (number : Nat) (bytes : ByteArray) : old.contents[number]? = some bytes →
    new.contents[number]? = some bytes ∨
      ∃ place, old.locate .followed path = .ok place ∧ old.at? place = some (.file number)
  workingDirectory : new.workingDirectory = old.workingDirectory

theorem TouchesFile.refl (path : Path) (files : FileSystem) : TouchesFile path files files :=
  ⟨fun _ => .inl rfl, fun _ _ h => .inl h, rfl⟩

namespace Creates

variable {opened : FileSystem} (h : Creates path place number old opened)

include h

theorem before_ne_directory : old.at? place ≠ some .directory := by
  rcases h.before with ⟨hnone, -⟩ | hfile
  · exact not_directory_of_none hnone
  · simp [hfile]

theorem link?_before : old.link? place = none := by
  rcases h.before with ⟨hnone, -⟩ | hfile
  · exact link?_of_none hnone
  · exact link?_of_file hfile

/-- A file is no step on any way, so all ways are the same before and after, whatever is in it. -/
theorem link?_fill (total : ByteArray) (other : Location) :
    (opened.fill number total).link? other = old.link? other := by
  by_cases hother : other = place
  · rw [hother, h.link?_before]
    exact link?_of_file h.after
  · rw [link?, link?, at?_fill, h.elsewhere other hother]

theorem grows_fill (total : ByteArray) : Grows old (opened.fill number total) where
  directories other hdirectory := by
    have hother : other ≠ place := fun heq => h.before_ne_directory (heq ▸ hdirectory)
    rw [at?_fill, h.elsewhere other hother, hdirectory]
  links := h.link?_fill total
  workingDirectory := h.workingDirectory

theorem grows_of_fill (total : ByteArray) : Grows (opened.fill number total) old where
  directories other hdirectory := by
    rw [at?_fill] at hdirectory
    have hother : other ≠ place := by
      rintro rfl
      rw [h.after] at hdirectory
      cases hdirectory
    rw [← h.elsewhere other hother, hdirectory]
  links other := (h.link?_fill total other).symm
  workingDirectory := h.workingDirectory.symm

theorem contents_fill (total : ByteArray) :
    (opened.fill number total).contents[number]? = some total :=
  List.getElem?_set_self (lt_length_of_file h.after)

/-- What is filled in can be read. -/
theorem read_fill (total : ByteArray) : (opened.fill number total).read path = .ok total :=
  read_eq_ok (locate_of_grows (h.grows_fill total) h.locate) h.after (h.contents_fill total)

theorem touchesFile_fill (total : ByteArray) : TouchesFile path old (opened.fill number total) where
  entries other := by
    rw [at?_fill]
    by_cases hother : other = place
    · subst hother
      rcases h.before with ⟨hnone, hnew⟩ | hfile
      · exact .inr (.inl ⟨hnone, h.locate, number, h.after, hnew⟩)
      · exact .inl (h.after.trans hfile.symm)
    · exact .inl (h.elsewhere other hother)
  contents other bytes hbytes := by
    by_cases hother : other = number
    · subst hother
      rcases h.before with ⟨-, hnew⟩ | hfile
      · have hlt : other < old.contents.length := (List.getElem?_eq_some_iff.1 hbytes).1
        omega
      · exact .inr ⟨place, h.locate, hfile⟩
    · have hopened := h.others other bytes hother hbytes
      exact .inl ((List.getElem?_set_ne fun heq => hother heq.symm).trans hopened)
  workingDirectory := h.workingDirectory

theorem touchesFile_remove {total : ByteArray}
    (hremove : (opened.fill number total).remove path = .ok new) : TouchesFile path old new := by
  obtain ⟨own, hown, hplace, rfl⟩ := remove_eq_ok hremove
  have hfilled := h.touchesFile_fill total
  have hroot := ne_root_of_not_directory hplace
  refine ⟨fun other => ?_, hfilled.contents, hfilled.workingDirectory⟩
  by_cases hother : other = own
  · subst hother
    have hbefore : old.at? other ≠ some .directory := fun hdirectory =>
      hplace ((h.grows_fill total).directories other hdirectory)
    exact .inr (.inr ⟨at?_erase_self hroot, locate_of_grows (h.grows_of_fill total) hown, hbefore⟩)
  · rw [at?_erase hroot, if_neg hother]
    exact hfilled.entries other

end Creates

end FileSystem

end Folio
