import Collocation.Entity.Time
import Collocation.Json.Write
import Collocation.Row.Table

/-!
# Rows as documents

In a snapshot a row is an object of its columns, and a column value an object of its type and its
value, in any order of the two.
-/

set_option autoImplicit false

namespace Collocation

open Json

/-! ## Writing -/

def ColumnValue.tag : ColumnValue → String
  | null => "null"
  | bool _ => "bool"
  | int _ => "int"
  | double _ => "double"
  | text _ => "text"
  | uuid _ => "uuid"
  | timestamp _ => "timestamp"
  | doubleMap _ => "double_map"

/-- What a column value is besides its type. Doubles that are not finite are written as null. -/
def ColumnValue.content : ColumnValue → Json
  | null => .null
  | bool value => .bool value
  | int value => .ofInt64 value
  | double value => .ofDouble value
  | text value => .string value
  | uuid value => .ofUuid value
  | timestamp value => value.toJson
  | doubleMap values => .object (values.entries.map fun entry => (entry.1, .ofDouble entry.2))

def ColumnValue.toJson (value : ColumnValue) : Json :=
  match value with
  | null => .object [("type", .string value.tag)]
  | _ => .object [("type", .string value.tag), ("value", value.content)]

/-- The columns of a row as members of an object. -/
def Row.columnsJson (row : Row) : Json :=
  .object (row.columns.entries.map fun entry => (entry.1, entry.2.toJson))

def Row.toJson (row : Row) : Json :=
  .object [("columns", row.columnsJson)]

/-! ## Reading -/

/-- The types of column values by their names, each with the reader of its values. -/
def columnReaders : List (String × Reader ColumnValue) :=
  [ ("null", fun setting draft => (readNull setting draft).map fun _ => .null),
    ("bool", fun setting draft => (readBool setting draft).map .bool),
    ("int", fun setting draft => (readInt64 setting draft).map .int),
    ("double", fun setting draft => (readDouble setting draft).map .double),
    ("text", fun setting draft => (readString setting draft).map .text),
    ("uuid", fun setting draft => (readUuid setting draft).map .uuid),
    ("timestamp", fun setting draft => (readInstant setting draft).map .timestamp),
    ("double_map", fun setting draft =>
      (readDictionary readDouble setting draft).map .doubleMap) ]

/-- The types of column values as variants: each is its name and the reader of its values. -/
def columnVariants : List (String × (String × Reader ColumnValue)) :=
  columnReaders.map fun entry => (entry.1, entry)

/-- The members up to the next one that says a type or a value; what else there is, is passed over.
-/
def nextRelevant : List (Option String × Draft) →
    Except Fault (Option ((String × Draft) × List (Option String × Draft)))
  | [] => .ok none
  | (none, _) :: _ => .error .malformed
  | (some name, draft) :: members =>
    if name = "type" ∨ name = "value" then .ok (some ((name, draft), members))
    else if draft.isWhole then nextRelevant members
    else .error .malformed

/-- After both the type and the value, neither may come again. -/
def nothingRelevant {α : Type} (members : List (Option String × Draft)) (value : α) :
    Except Fault α := do
  match ← nextRelevant members with
  | none => return value
  | some ((name, _), _) => throw (.duplicateField name)

/-- A column value, as an object or as an array of the type and the value. If in an object the value
comes first, it is looked through for faults, and read when its type is known. -/
def readColumnValue : Reader ColumnValue := fun setting draft =>
  match draft with
  | .object members => do
    let inside ← setting.enter
    match ← nextRelevant members with
    | none => throw (.missingField "type")
    | some (("type", draft), members) =>
      let (name, read) ← readVariant columnVariants inside draft
      match ← nextRelevant members with
      | none => if name = "null" then return .null else throw (.missingField "value")
      | some (("type", _), _) => throw (.duplicateField "type")
      | some ((_, draft), members) =>
        let value ← read inside draft
        nothingRelevant members value
    | some ((_, content), members) =>
      discard (content.payload inside)
      match ← nextRelevant members with
      | none => throw (.missingField "type")
      | some (("type", draft), members) =>
        let (_, read) ← readVariant columnVariants inside draft
        let value ← readKept read content
        nothingRelevant members value
      | some ((_, _), _) => throw (.duplicateField "value")
  | .array items => do
    let inside ← setting.enter
    match items with
    | [] => throw .mismatch
    | tag :: items =>
      let (_, read) ← readVariantName columnVariants inside tag
      match items with
      | [] => throw .mismatch
      | content :: items =>
        let value ← read inside content
        if items.isEmpty then return value
        else throw (if setting.origin = .text then .malformed else .mismatch)
  | draft => .error draft.refusal

def readRow : Reader Row :=
  readRecord ["columns"] fun record =>
    (record.required "columns" (readDictionary readColumnValue)).map Row.mk

end Collocation
