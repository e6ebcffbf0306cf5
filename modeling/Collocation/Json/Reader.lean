import Collocation.Json.Draft
import Collocation.Json.Fault

/-!
# Reading shapes

A reader takes a value of some shape out of a draft. It reports the first fault in the order of the
document: names are taken as they come, and what is missing is noticed at the end. A document is
read from a text or given as a value; a value has no faults of its own, and no limit of nesting.
-/

set_option autoImplicit false

namespace Collocation.Json

/-- Where a document comes from. -/
inductive Origin where
  | text
  | value
deriving DecidableEq

/-- The arrays and objects of a text that may lie inside each other. -/
def maxLevels : Nat := 127

/-- How a document is read: where it comes from, and how many levels may still be entered. -/
structure Setting where
  origin : Origin
  levels : Nat

/-- A reader of one shape. -/
abbrev Reader (α : Type) := Setting → Draft → Except Fault α

/-! ## Scalars -/

/-- What a value without the wanted shape is: a fault of the text if it has none at all. -/
def Draft.refusal : Draft → Fault
  | .unreadable => .malformed
  | .broken => .malformed
  | _ => .mismatch

/-- A scalar of a certain kind. -/
def readScalar {α : Type} (take : Scalar → Option α) : Reader α := fun _ draft =>
  match draft with
  | .scalar value => match take value with
    | some found => .ok found
    | none => .error .mismatch
  | draft => .error draft.refusal

def readString : Reader String :=
  readScalar fun | .string s => some s | _ => none

def readBool : Reader Bool :=
  readScalar fun | .bool b => some b | _ => none

/-- A whole number that sixty-four bits hold with a sign. -/
def readInt64 : Reader Int64 :=
  readScalar fun
    | .integer n =>
      if Int64.minValue.toInt ≤ n ∧ n ≤ Int64.maxValue.toInt then some (.ofInt n) else none
    | _ => none

/-- A whole number that sixty-four bits hold without a sign. -/
def readUInt64 : Reader UInt64 :=
  readScalar fun
    | .integer n => if 0 ≤ n ∧ n < UInt64.size then some (.ofNat n.toNat) else none
    | _ => none

/-- A whole number that thirty-two bits hold without a sign. -/
def readUInt32 : Reader UInt32 :=
  readScalar fun
    | .integer n => if 0 ≤ n ∧ n < UInt32.size then some (.ofNat n.toNat) else none
    | _ => none

/-- Any number, as a double. -/
def readDouble : Reader Double :=
  readScalar fun | .integer n => some (.ofInt n) | .double x => some x | _ => none

def readNull : Reader Unit :=
  readScalar fun | .null => some () | _ => none

/-- A string of some form. -/
def readParsed {α : Type} (parse : List Char → Option α) : Reader α :=
  readScalar fun | .string s => parse s.toList | _ => none

def readUuid : Reader Uuid := readParsed Uuid.parse?

/-- A value, or null for its absence. -/
def readOptional {α : Type} (read : Reader α) : Reader (Option α) := fun setting draft =>
  match draft with
  | .scalar .null => .ok none
  | draft => (read setting draft).map some

/-! ## Arrays and objects -/

/-- What may be entered inside an array or an object, if one more may be entered at all. -/
def Setting.enter (setting : Setting) : Except Fault Setting :=
  match setting.levels with
  | 0 => .error .malformed
  | levels + 1 => .ok { setting with levels := levels }

def readList {α : Type} (read : Reader α) : Reader (List α) := fun setting draft =>
  match draft with
  | .array items => do
    let inside ← setting.enter
    items.mapM (read inside)
  | draft => .error draft.refusal

/-- A member of an object whose names are free. -/
def readMember {α : Type} (read : Reader α) (setting : Setting) :
    Option String × Draft → Except Fault (String × α)
  | (none, _) => .error .malformed
  | (some name, draft) => (read setting draft).map fun value => (name, value)

def readDictionary {α : Type} (read : Reader α) : Reader (Dictionary α) := fun setting draft =>
  match draft with
  | .object members => do
    let inside ← setting.enter
    let entries ← members.mapM (readMember read inside)
    return .ofList entries
  | draft => .error draft.refusal

/-! ## Payloads -/

mutual

/-- Any value. The members of its objects come out in the order of their names, and of members with
the same name the last one stays. -/
def Draft.payload (setting : Setting) : Draft → Except Fault Json
  | .scalar value => .ok (.scalar value)
  | .unreadable => .error .malformed
  | .broken => .error .malformed
  | .array items => do
    let inside ← setting.enter
    return .array (← payloadItems inside items)
  | .object members => do
    let inside ← setting.enter
    return .object (← payloadMembers inside members [])

def Draft.payloadItems (setting : Setting) : List Draft → Except Fault (List Json)
  | [] => .ok []
  | item :: items => do
    let value ← item.payload setting
    return value :: (← payloadItems setting items)

def Draft.payloadMembers (setting : Setting) :
    List (Option String × Draft) → List (String × Json) → Except Fault (List (String × Json))
  | [], read => .ok read
  | (none, _) :: _, _ => .error .malformed
  | (some name, draft) :: members, read => do
    let value ← draft.payload setting
    payloadMembers setting members (insertEntry name value read)

end

def readPayload : Reader Json := fun setting draft => draft.payload setting

/-! ## What is passed over -/

mutual

/-- Whether the text goes on behind a value. A value that nobody asks for may nest as deeply as it
likes, and its scalars need no value. -/
def Draft.isWhole : Draft → Bool
  | .scalar _ => true
  | .unreadable => true
  | .broken => false
  | .array items => areWhole items
  | .object members => areWholeMembers members

def Draft.areWhole : List Draft → Bool
  | [] => true
  | item :: items => item.isWhole && areWhole items

def Draft.areWholeMembers : List (Option String × Draft) → Bool
  | [] => true
  | (_, draft) :: members => draft.isWhole && areWholeMembers members

end

/-! ## Whole documents -/

mutual

/-- How many arrays and objects lie inside each other. -/
def Draft.depth : Draft → Nat
  | .scalar _ => 0
  | .unreadable => 0
  | .broken => 0
  | .array items => depthItems items + 1
  | .object members => depthMembers members + 1

def Draft.depthItems : List Draft → Nat
  | [] => 0
  | item :: items => max item.depth (depthItems items)

def Draft.depthMembers : List (Option String × Draft) → Nat
  | [] => 0
  | (_, draft) :: members => max draft.depth (depthMembers members)

end

mutual

/-- A value as a draft, with the members of its objects in the order of their names. -/
def toDraft : Json → Draft
  | .scalar value => .scalar value
  | .array items => .array (toDrafts items)
  | .object members => .object (toMembers members)

def toDrafts : List Json → List Draft
  | [] => []
  | item :: items => item.toDraft :: toDrafts items

def toMembers : List (String × Json) → List (Option String × Draft)
  | [] => []
  | (name, value) :: members => (some name, value.toDraft) :: toMembers members

end

/-- Reads a text: one document, and nothing behind it but spaces. -/
def ofText {α : Type} (read : Reader α) (text : String) : Except Fault α := do
  let document := Document.ofText text.toList
  let value ← read ⟨.text, maxLevels⟩ document.draft
  if document.ended then return value else throw .malformed

/-- Reads a draft without faults as if it were given as a value. Members with the same name are all
still there. -/
def readKept {α : Type} (read : Reader α) (draft : Draft) : Except Fault α :=
  read ⟨.value, draft.depth⟩ draft

/-- Reads a document that is given as a value. -/
def ofValue {α : Type} (read : Reader α) (value : Json) : Except Fault α :=
  readKept read value.toDraft

/-- The payload that a text writes, if it is JSON. -/
def parse? (text : String) : Option Json :=
  (ofText readPayload text).toOption

end Collocation.Json
