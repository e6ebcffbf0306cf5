import Collocation.CommandLine.Path
import Collocation.CommandLine.Run
import Collocation.Keyed.Ledger

/-!
# Runs in a folder

A folder in which runs follow one another, with the files that can be reached from there. A file is
saved by writing a temporary file and renaming it. No folder is made and none is taken away.
-/

set_option autoImplicit false

namespace Collocation.CommandLine

/-- A folder among others, and the files in all of them by their folders and their names. -/
structure Folder where
  layout : Layout
  reached : Ledger (List String × String) String

namespace Folder

/-- A folder without others than those around it. -/
def alone : Layout where
  home := ["work", "tmp"]

/-- Such a folder with files by their names, and nothing in the folders around it. -/
def ofFiles (files : List (String × String)) : Folder where
  layout := alone
  reached := files.foldl (fun reached file => reached.upsert (alone.home, file.1) file.2) .empty

/-- The files of the folder itself by their names. -/
def files (folder : Folder) : List (String × String) :=
  folder.reached.entries.filterMap fun ((location, name), contents) =>
    if location = folder.layout.home then some (name, contents) else none

/-- What is found at a path. -/
def look (folder : Folder) (path : String) : FileState :=
  match folder.layout.placeOf path with
  | .folder => .unreadable
  | .file location name => match folder.reached.get? (location, name) with
    | some contents => .text contents
    | none => .absent
  | .nowhere => .absent

/-- Whether a file can be saved, and the folder after that. If the temporary file can be written but
not be renamed, it stays. -/
def save (folder : Folder) (save : Save) : Bool × Folder :=
  match folder.layout.placeOf (temporaryPath save.path) with
  | .file location name =>
    match folder.layout.placeOf save.path with
    | .file location' name' =>
      (true,
        { folder with
          reached := (folder.reached.erase (location, name)).upsert (location', name')
            save.contents })
    | _ => (false, { folder with reached := folder.reached.upsert (location, name) save.contents })
  | _ => (false, folder)

/-- The outcome of a run, and the folder after it. -/
def run (folder : Folder) (arguments : List String) (supply : Supply) : Outcome × Folder :=
  let outcome := CommandLine.run arguments folder.look supply
  match outcome.save with
  | none => (outcome, folder)
  | some save =>
    let (saved, folder) := folder.save save
    (if saved then outcome else outcome.unsaved, folder)

end Folder

end Collocation.CommandLine
