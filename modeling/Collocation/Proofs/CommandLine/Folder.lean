import Collocation.CommandLine.Folder
import Collocation.Proofs.Keyed.Ledger

/-!
# Files that are replaced

Where a path and its temporary path both lead to files, a file is saved, and it is found at the path
from then on.
-/

set_option autoImplicit false

namespace Collocation.CommandLine

/-- The file at a path can be replaced: from this folder the path leads to a file, and so does its
temporary path. -/
structure Folder.Replaceable (folder : Folder) (path : String) : Prop where
  file : ∃ location name, folder.layout.placeOf path = .file location name
  temporary : ∃ location name, folder.layout.placeOf (temporaryPath path) = .file location name

namespace Folder

/-- Files in a folder inside this one can be replaced. -/
example : Replaceable ⟨⟨["work", "tmp"], [["old", "work", "tmp"]]⟩, .empty⟩ "old/db.json" :=
  ⟨⟨["old", "work", "tmp"], "db.json", by decide +kernel⟩,
    ⟨["old", "work", "tmp"], "db.json.tmp", by decide +kernel⟩⟩

/-- So can files that are named from the root. -/
example : Replaceable ⟨⟨["work", "tmp"], [["data"]]⟩, .empty⟩ "/data/db.json" :=
  ⟨⟨["data"], "db.json", by decide +kernel⟩, ⟨["data"], "db.json.tmp", by decide +kernel⟩⟩

section Save

variable {folder : Folder} {path : String} (h : folder.Replaceable path) (contents : String)
include h

/-- A file that can be replaced is saved. -/
theorem save_eq_true : (folder.save ⟨path, contents⟩).1 = true := by
  obtain ⟨⟨location, name, hFile⟩, ⟨location', name', hTemporary⟩⟩ := h
  simp only [save, hTemporary, hFile]

/-- What was saved is found. -/
theorem look_save : (folder.save ⟨path, contents⟩).2.look path = .text contents := by
  obtain ⟨⟨location, name, hFile⟩, ⟨location', name', hTemporary⟩⟩ := h
  simp only [save, hTemporary, look, hFile, Ledger.get?_upsert, if_true]

end Save

/-! ## Runs -/

variable {folder : Folder} {arguments : List String} {supply : Supply}

/-- A run that saves nothing leaves the folder as it is. -/
theorem run_of_no_save (h : (CommandLine.run arguments folder.look supply).save = none) :
    folder.run arguments supply = (CommandLine.run arguments folder.look supply, folder) := by
  simp only [run, h]

/-- A run that saves a file that can be replaced does so. -/
theorem run_of_save {path contents : String} (hPath : folder.Replaceable path)
    (h : (CommandLine.run arguments folder.look supply).save = some ⟨path, contents⟩) :
    folder.run arguments supply =
      (CommandLine.run arguments folder.look supply, (folder.save ⟨path, contents⟩).2) := by
  simp only [run, h, save_eq_true hPath, if_true]

end Folder

end Collocation.CommandLine
