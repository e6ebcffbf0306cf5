import Collocation.Row.Basic

/-!
# Tables

The four tables of the layout, and the column by which each is keyed: data rows by an id of their
own, the three tables of records by the id of the execution.
-/

set_option autoImplicit false

namespace Collocation

/-- The four tables of a store. -/
inductive Table where
  | executions
  | params
  | executionStats
  | data
deriving DecidableEq

namespace Table

/-- The tables in their order. -/
def all : List Table := [executions, params, executionStats, data]

/-- The place of a table in the order. -/
def place : Table → Nat
  | executions => 0
  | params => 1
  | executionStats => 2
  | data => 3

/-- The name of a table in the store. -/
def name : Table → String
  | executions => "doms_executions"
  | params => "doms_params"
  | executionStats => "doms_execution_stats"
  | data => "doms_data"

/-- The name of a table in a snapshot. -/
def tag : Table → String
  | executions => "executions"
  | params => "params"
  | executionStats => "execution_stats"
  | data => "data"

def keyColumn : Table → String
  | executions => "id"
  | params => "execution_id"
  | executionStats => "execution_id"
  | data => "id"

end Table

/-- The key of a row in a table. -/
def Row.key (row : Row) (table : Table) : Except Failure Uuid :=
  row.uuid table.keyColumn

end Collocation
