import Collocation.Config
import Collocation.Entity.Entry
import Collocation.Keyed.SlotTable
import Collocation.Row.Data

/-!
# Assembly

The forest of an execution out of its data rows. The rows of the top are the roots, one for each
identifier: of two rows with the same identifier the later one stays, at the place of the earlier
one, and keeps the matches of both. A nested row goes below the row that it refers to, in the order
of reading. A row that leads to no root is dropped.

The rows are put into an arena and called by their positions there. A walk from the roots lists
positions in pre-order, and in the reverse of this order the trees are built, each after those below
it.
-/

set_option autoImplicit false

namespace Collocation

/-- A forest that was read back. -/
structure Assembly where
  points : List EntryTree
  /-- How many rows were read and have no place in the forest. -/
  dropped : Nat

/-- All of the entry of a data row but its payload. -/
def DataRow.bareEntry (row : DataRow) : Entry :=
  { id := some row.valueId
    longitude := row.longitude
    latitude := row.latitude
    label := some (positionLabel row.longitude row.latitude)
    source := row.source
    time := row.time
    platform := row.platform
    device := row.device
    depth := row.depth
    fileUrl := row.fileUrl }

/-- Whether rows on some level may have matches below them. -/
def NestingDepth.allows : NestingDepth → Nat → Bool
  | .single, level => level < 1
  | .full, _ => true

/-! ## Arenas -/

/-- A decoded row in an arena. -/
structure Node where
  row : DataRow
  topLevel : Bool

/-- The entry of a node. The payload is `primary` at the top and `secondary` below. -/
def Node.entry (node : Node) : Entry :=
  if node.topLevel then { node.row.bareEntry with primary := some node.row.payload }
  else { node.row.bareEntry with secondary := some node.row.payload }

/-- The rows of an execution by their positions, those of the top first. -/
structure Arena where
  /-- The rows, as long as no tree was built of them. -/
  nodes : Array (Option Node)
  /-- The position of the row that stays under each identifier of the top. -/
  roots : SlotTable String Nat
  /-- The slot of each row of the top, also of those that were replaced. -/
  topSlots : Array Nat

namespace Arena

def empty : Arena := ⟨#[], .empty, #[]⟩

/-- Puts a row of the top at the next position, and into the slot of its identifier. -/
def addTop (arena : Arena) (row : DataRow) : Arena :=
  { nodes := arena.nodes.push (some { row, topLevel := true })
    roots := arena.roots.put row.valueId arena.nodes.size
    topSlots := arena.topSlots.push (arena.roots.slotOf row.valueId) }

/-- Puts a nested row at the next position. -/
def addNested (arena : Arena) (row : DataRow) : Arena :=
  { arena with nodes := arena.nodes.push (some { row, topLevel := false }) }

/-- The arena of the rows of the top and the nested rows, in the order of reading. -/
def ofDataRows (tops nested : List DataRow) : Arena :=
  nested.foldl addNested (tops.foldl addTop .empty)

variable (arena : Arena)

def node? (i : Nat) : Option Node :=
  arena.nodes[i]?.join

/-! ## References -/

/-- The position of the last row with each id. -/
def byRowId : Ledger Uuid Nat :=
  let ids := arena.nodes.toList.zipIdx.filterMap fun (node, i) =>
    node.map fun node => (node.row.rowId, i)
  ids.foldl (fun positions (id, i) => positions.upsert id i) .empty

/-- The position that a reference leads to. From a row of the top that was replaced it leads to the
one that replaced it. -/
def target? (positions : Ledger Uuid Nat) : ParentRef → Option Nat
  | .row id => (positions.get? id).bind fun i =>
    match arena.topSlots[i]? with
    | some slot => arena.roots.items[slot]?
    | none => some i
  | .point valueId => arena.roots.get? valueId

/-- The position of the parent of the row at a position. A row is not its own parent. -/
def parent? (positions : Ledger Uuid Nat) (i : Nat) : Option Nat :=
  (((arena.node? i).bind fun node => node.row.parent).bind (arena.target? positions)).filter
    fun parent => parent ≠ i

/-- Puts a position below its parent, if it has one, behind those that are there. -/
def putBelow (kids : Array (List Nat)) (i : Nat) : Option Nat → Array (List Nat)
  | some parent => kids.modify parent fun beside => beside ++ [i]
  | none => kids

/-- The positions of the nested rows below each position, in the order of reading. -/
def kids : Array (List Nat) :=
  let positions := arena.byRowId
  let nested := List.range' arena.topSlots.size (arena.nodes.size - arena.topSlots.size)
  nested.foldl (fun kids i => putBelow kids i (arena.parent? positions i))
    (Array.replicate arena.nodes.size [])

/-! ## The walk -/

/-- A walk through an arena that is under way. -/
structure Descent where
  kids : Array (List Nat)
  /-- The positions that are still to be visited with their levels, the next one first. -/
  stack : List (Nat × Nat)
  /-- The positions that were visited, the latest first. -/
  order : List Nat

/-- Visits the next position, and goes on to the rows below it. On the last level the rows below
are taken off. -/
def Descent.step (depth : NestingDepth) (descent : Descent) : Descent :=
  match descent.stack with
  | [] => descent
  | (level, i) :: stack =>
    if depth.allows level then
      { descent with
        stack := (descent.kids.getD i []).map (fun kid => (level + 1, kid)) ++ stack
        order := i :: descent.order }
    else
      { kids := descent.kids.setIfInBounds i []
        stack
        order := i :: descent.order }

/-- So many steps of a walk. -/
def Descent.steps (depth : NestingDepth) : Nat → Descent → Descent
  | 0, descent => descent
  | count + 1, descent => steps depth count (descent.step depth)

/-- The walk from the roots. It comes to no position twice, so that it has ended after as many steps
as there are positions. -/
def walk (depth : NestingDepth) : Descent :=
  Descent.steps depth arena.nodes.size
    { kids := arena.kids
      stack := arena.roots.items.toList.map fun i => (0, i)
      order := [] }

/-! ## Trees -/

/-- The rows of which no tree was built, and the trees that have no place yet, by the positions of
their roots. -/
structure Build where
  nodes : Array (Option Node)
  built : Ledger Nat EntryTree

/-- Takes the trees of some positions out of those that were built. -/
def takeTrees (built : Ledger Nat EntryTree) : List Nat → List EntryTree × Ledger Nat EntryTree
  | [] => ([], built)
  | i :: positions =>
    match built.get? i with
    | some tree =>
      let (trees, rest) := takeTrees (built.erase i) positions
      (tree :: trees, rest)
    | none => takeTrees built positions

/-- Builds the tree of a position out of the trees of the positions below it. -/
def Build.add (kids : Array (List Nat)) (build : Build) (i : Nat) : Build :=
  match build.nodes[i]?.join with
  | some node =>
    let (children, rest) := takeTrees build.built (kids.getD i [])
    { nodes := build.nodes.setIfInBounds i none
      built := rest.upsert i (.node node.entry children) }
  | none => build

/-- The forest of an arena. The rows of which no tree was built are dropped. -/
def assemble (depth : NestingDepth) : Assembly :=
  let walk := arena.walk depth
  let build := walk.order.foldl (Build.add walk.kids) { nodes := arena.nodes, built := .empty }
  { points := (takeTrees build.built arena.roots.items.toList).1
    dropped := build.nodes.countP Option.isSome }

end Arena

namespace Assembly

/-- The forest of rows as they are stored, those of the top and the nested ones. -/
def ofRows (depth : NestingDepth) (tops nested : List Row) : Except Failure Assembly := do
  let tops ← tops.mapM DataRow.ofRow
  let nested ← nested.mapM DataRow.ofRow
  return (Arena.ofDataRows tops nested).assemble depth

/-! ## Trimmed forests -/

/-- The identifier and the trimmed entry of a row. -/
def trimmedEntry (row : Row) : Except Failure (String × Entry) := do
  let valueId ← row.text "value_id"
  let longitude ← row.double "x"
  let latitude ← row.double "y"
  let source ← row.text "source_dataset"
  let time ← row.timestamp "measurement_time"
  return (valueId, { longitude, latitude, source, time })

/-- Trimmed entries by their identifiers, and how many were replaced. -/
structure Trimming where
  points : SlotTable String Entry
  replaced : Nat

/-- Puts an entry under its identifier. -/
def Trimming.add (trimming : Trimming) (entry : String × Entry) : Trimming :=
  { points := trimming.points.put entry.1 entry.2
    replaced := match trimming.points.slot? entry.1 with
      | some _ => trimming.replaced + 1
      | none => trimming.replaced }

/-- The points at the top with positions, sources and times only. -/
def trimmed (tops : List Row) : Except Failure Assembly := do
  let entries ← tops.mapM trimmedEntry
  let trimming := entries.foldl Trimming.add { points := .empty, replaced := 0 }
  return {
    points := trimming.points.items.toList.map fun entry => .node entry []
    dropped := trimming.replaced }

end Assembly

end Collocation
