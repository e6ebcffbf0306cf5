import Collocation.Text.Split

/-!
# Paths

Where a path leads among folders, and the path of the temporary file by way of which the file at the
end of a path is replaced.
-/

set_option autoImplicit false

namespace Collocation.CommandLine

/-! ## Places -/

/-- The folders that there are. A folder is told by its own name and those of the folders around it,
from the innermost outwards; the root is told by no names. -/
structure Layout where
  /-- The folder from which paths lead, unless they lead from the root. -/
  home : List String
  /-- Folders that do not lie around it. -/
  others : List (List String) := []

/-- Where a path leads. -/
inductive Place where
  | folder
  /-- To a file by its name, in this folder. Whether the file is there is another question. -/
  | file (folder : List String) (name : String)
  | nowhere
deriving DecidableEq

/-- The bytes that a name may have. -/
def maxNameSize : Nat := 255

/-- The bytes that a path may have. -/
def maxPathSize : Nat := 4095

/-- Whether a part of a path leads from a folder to the same folder. Between two slashes in a row
there is an empty part. -/
def stays (part : List Char) : Bool :=
  part = [] || part = ['.']

/-- Whether a part of a path leads from a folder to the one around it. -/
def leadsOut (part : List Char) : Bool :=
  part = ['.', '.']

namespace Layout

/-- Whether there is a folder that is told so: the home, one around it, or another one. -/
def hasFolder (layout : Layout) (folder : List String) : Bool :=
  folder.isSuffixOf layout.home || layout.others.contains folder

/-- Follows the parts of a path from a folder. The folder around the root is the root. Behind a name
that is not a folder's nothing can follow, not even an empty part. -/
def follow (layout : Layout) (folder : List String) : List (List Char) → Place
  | [] => .folder
  | part :: parts =>
    if stays part then layout.follow folder parts
    else if leadsOut part then layout.follow folder.tail parts
    else
      let name := String.ofList part
      if maxNameSize < name.utf8ByteSize then .nowhere
      else if layout.hasFolder (name :: folder) then layout.follow (name :: folder) parts
      else if parts.isEmpty then .file folder name
      else .nowhere

/-- Where a path leads. One that begins with a slash leads from the root. -/
def placeOf (layout : Layout) (path : String) : Place :=
  if path.isEmpty || maxPathSize < path.utf8ByteSize then .nowhere
  else match Text.split '/' path.toList with
    | [] :: parts => layout.follow [] parts
    | parts => layout.follow layout.home parts

example : placeOf ⟨["work", "tmp"], []⟩ ".//./db.json" = .file ["work", "tmp"] "db.json" := by
  decide +kernel
example : placeOf ⟨["work", "tmp"], [["old", "tmp"]]⟩ "../old/db.json" =
    .file ["old", "tmp"] "db.json" := by
  decide +kernel
example : placeOf ⟨["work", "tmp"], [["old", "tmp"]]⟩ "/../tmp/old" = .folder := by decide +kernel
example : placeOf ⟨["work", "tmp"], []⟩ "/db.json" = .file [] "db.json" := by decide +kernel
example : placeOf ⟨["work", "tmp"], []⟩ "../old/db.json" = .nowhere := by decide +kernel
example : placeOf ⟨["work", "tmp"], []⟩ "db.json/." = .nowhere := by decide +kernel

end Layout

/-! ## Temporary files -/

/-- The characters of a path from its end, without the slashes there and the points between them. -/
def dropEnd : List Char → List Char
  | '/' :: rest => dropEnd rest
  | '.' :: '/' :: rest => dropEnd rest
  | rest => rest

/-- The name of a file without what follows its last point, if something stands before that. -/
def stem (name : List Char) : List Char :=
  match (name.reverse.dropWhile (· ≠ '.')).drop 1 with
  | [] => name
  | rest => rest.reverse

/-- The path of the temporary file of a path: an ending of its own in place of that of the last
name. A path without a name is its own temporary path. If the last name is two points and an ending
and nothing stands behind it, only the ending goes, and what stays is no path of a file. -/
def temporaryPath (path : String) : String :=
  let reversed := path.toList.reverse
  let kept := dropEnd reversed
  let name := (kept.takeWhile (· ≠ '/')).reverse
  let folder := (kept.dropWhile (· ≠ '/')).reverse
  if stays name || leadsOut name then path
  else if stem name = ['.'] ∧ kept = reversed then String.ofList (folder ++ ['.', '.'])
  else String.ofList (folder ++ stem name ++ ".json.tmp".toList)

example : temporaryPath "a/db.json" = "a/db.json.tmp" := by decide +kernel
example : temporaryPath "db//" = "db.json.tmp" ∧ temporaryPath "db.x/./" = "db.json.tmp" := by
  decide +kernel
example : temporaryPath ".db" = ".db.json.tmp" ∧ temporaryPath "..." = "...json.tmp" := by
  decide +kernel
example : temporaryPath "..db" = ".." ∧ temporaryPath "..db/" = "..json.tmp" := by decide +kernel
example : temporaryPath ".." = ".." ∧ temporaryPath "/" = "/" := by decide +kernel

end Collocation.CommandLine
