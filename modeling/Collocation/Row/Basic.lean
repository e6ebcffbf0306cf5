import Collocation.Failure

/-!
# Rows

A row maps names of columns to values. A column that is absent is not the same as one that holds
null, but most readers take both for nothing. The two generations of writers spelled flags and
numbers differently, so a flag may be stored as a whole number, and a double too.
-/

set_option autoImplicit false

namespace Collocation

/-- A row of a table: values by the names of their columns. -/
structure Row where
  columns : Dictionary ColumnValue
deriving DecidableEq

namespace Row

def empty : Row := ⟨.empty⟩

def set (row : Row) (column : String) (value : ColumnValue) : Row :=
  ⟨row.columns.insert column value⟩

def remove (row : Row) (column : String) : Row :=
  ⟨row.columns.erase column⟩

def get? (row : Row) (column : String) : Option ColumnValue :=
  row.columns.get? column

def has (row : Row) (column : String) : Bool :=
  (row.get? column).isSome

def size (row : Row) : Nat :=
  row.columns.size

/-- The row of a list of columns, of which a later one counts more. -/
def ofList (columns : List (String × ColumnValue)) : Row :=
  ⟨.ofList columns⟩

/-- Equality of what rows say: doubles are compared as numbers. -/
def sameValue (a b : Row) : Bool :=
  a.columns.entries.length == b.columns.entries.length &&
    (a.columns.entries.zip b.columns.entries).all fun (x, y) => x.1 == y.1 && x.2.sameValue y.2

/-- A row in which a column was set has its value there, and all else as before. -/
theorem get?_set (row : Row) (column column' : String) (value : ColumnValue) :
    (row.set column value).get? column' =
      if column = column' then some value else row.get? column' :=
  Dictionary.get?_insert row.columns column column' value

/-! ## What messages call a row -/

/-- The identifier of a row in messages: its `id` or else its `execution_id`, if that is one. -/
def describe (row : Row) : String :=
  match (row.get? "id").or (row.get? "execution_id") with
  | some (.uuid id) => id.text
  | some (.text id) => id
  | _ => "<unkeyed>"

def undecodable (row : Row) (fault : RowFault) : Failure :=
  .undecodable row.describe fault

def mismatch (row : Row) (column : String) (expected : ColumnType) (found : ColumnValue) :
    Failure :=
  row.undecodable (.mismatch column expected found.type)

/-! ## Columns that may be absent -/

def text? (row : Row) (column : String) : Except Failure (Option String) :=
  match row.get? column with
  | some (.text value) => .ok (some value)
  | some .null => .ok none
  | none => .ok none
  | some other => .error (row.mismatch column .text other)

def double? (row : Row) (column : String) : Except Failure (Option Double) :=
  match row.get? column with
  | some (.double value) => .ok (some value)
  | some (.int value) => .ok (some (.ofInt value.toInt))
  | some .null => .ok none
  | none => .ok none
  | some other => .error (row.mismatch column .double other)

def int? (row : Row) (column : String) : Except Failure (Option Int64) :=
  match row.get? column with
  | some (.int value) => .ok (some value)
  | some .null => .ok none
  | none => .ok none
  | some other => .error (row.mismatch column .bigint other)

/-! ## Columns that have to be there -/

/-- What was read of a column, which has to be something. -/
def require {α : Type} (row : Row) (column : String) (read : Except Failure (Option α)) :
    Except Failure α :=
  read.bind fun
    | some value => .ok value
    | none => .error (row.undecodable (.missing column))

def text (row : Row) (column : String) : Except Failure String :=
  row.require column (row.text? column)

def double (row : Row) (column : String) : Except Failure Double :=
  row.require column (row.double? column)

def int (row : Row) (column : String) : Except Failure Int64 :=
  row.require column (row.int? column)

def uuid (row : Row) (column : String) : Except Failure Uuid :=
  match row.get? column with
  | some (.uuid value) => .ok value
  | some other => .error (row.mismatch column .uuid other)
  | none => .error (row.undecodable (.missing column))

/-- A flag. A whole number is one too, and any but zero is a yes. -/
def boolean (row : Row) (column : String) : Except Failure Bool :=
  match row.get? column with
  | some (.bool value) => .ok value
  | some (.int value) => .ok (value != 0)
  | some other => .error (row.mismatch column .boolean other)
  | none => .error (row.undecodable (.missing column))

def timestamp (row : Row) (column : String) : Except Failure Instant :=
  match row.get? column with
  | some (.timestamp value) => .ok value
  | some other => .error (row.mismatch column .timestamp other)
  | none => .error (row.undecodable (.missing column))

end Row

end Collocation
