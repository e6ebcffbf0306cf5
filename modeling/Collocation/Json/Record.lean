import Collocation.Json.Reader

/-!
# Reading records

A record is an object with the names of its fields, or an array of the fields in their order. Each
field is read where it stands in the document, and of all faults the one that stands first counts.
-/

set_option autoImplicit false

namespace Collocation.Json

/-! ## Faults with a place -/

/-- A value, or a fault and the number of the member or item at which it is noticed. -/
inductive Located (α : Type) where
  | found (value : α)
  | fault (place : Nat) (fault : Fault)

namespace Located

/-- Both of two values, or the fault that stands first; of two at one place, the first given. -/
def both {α β : Type} : Located α → Located β → Located (α × β)
  | found a, found b => found (a, b)
  | found _, fault place reason => fault place reason
  | fault place reason, found _ => fault place reason
  | fault place reason, fault place' reason' =>
    if place ≤ place' then fault place reason else fault place' reason'

def map {α β : Type} (f : α → β) : Located α → Located β
  | found a => found (f a)
  | fault place reason => fault place reason

instance : Functor Located := ⟨map, fun b => map fun _ => b⟩

instance : Applicative Located where
  pure := found
  seq f a := (both f (a ())).map fun (f, a) => f a

def ofExcept {α : Type} (place : Nat) : Except Fault α → Located α
  | .ok value => found value
  | .error reason => fault place reason

def toExcept {α : Type} : Located α → Except Fault α
  | found value => .ok value
  | fault _ reason => .error reason

end Located

/-! ## Fields -/

/-- What a record is read from. -/
inductive Parts where
  | members (members : List (Option String × Draft))
  | items (items : List Draft)

/-- A record whose fields are being read: their names in order, and what the document has. -/
structure Record where
  setting : Setting
  names : List String
  parts : Parts

namespace Record

/-- The place and the draft of a field. -/
def find? (record : Record) (name : String) : Option (Nat × Draft) :=
  match record.parts with
  | .members members =>
    let place := members.findIdx fun member => member.1 == some name
    members[place]?.map fun member => (place, member.2)
  | .items items =>
    let place := record.names.idxOf name
    items[place]?.map fun draft => (place, draft)

/-- The place at which a missing field is noticed, and the fault. In an object that is its end. -/
def missing (record : Record) (name : String) : Nat × Fault :=
  match record.parts with
  | .members members => (members.length, .missingField name)
  | .items _ => (record.names.idxOf name, .mismatch)

/-- A field that has to be there. -/
def required {α : Type} (record : Record) (name : String) (read : Reader α) : Located α :=
  match record.find? name with
  | some (place, draft) => .ofExcept place (read record.setting draft)
  | none => .fault (record.missing name).1 (record.missing name).2

/-- A field that has a value when it is left out. -/
def defaulted {α : Type} (record : Record) (name : String) (read : Reader α) (default : α) :
    Located α :=
  match record.find? name with
  | some (place, draft) => .ofExcept place (read record.setting draft)
  | none => .found default

/-- A field that may be null or left out. -/
def optional {α : Type} (record : Record) (name : String) (read : Reader α) :
    Located (Option α) :=
  record.defaulted name (readOptional read) none

/-- The first fault of the members themselves: a name that cannot be read, a known name that comes
again, or a value under an unknown name inside which the text breaks. -/
def memberFaults (names seen : List String) :
    Nat → List (Option String × Draft) → Located Unit
  | _, [] => .found ()
  | place, (none, _) :: _ => .fault place .malformed
  | place, (some name, draft) :: members =>
    if name ∈ names then
      if name ∈ seen then .fault place (.duplicateField name)
      else memberFaults names (name :: seen) (place + 1) members
    else if draft.isWhole then memberFaults names seen (place + 1) members
    else .fault place .malformed

end Record

/-- Reads a record with the given names of fields. An array with more items than fields is at fault
behind the last field. -/
def readRecord {α : Type} (names : List String) (build : Record → Located α) : Reader α :=
  fun setting draft =>
    match draft with
    | .object members => do
      let inside ← setting.enter
      let fields := build ⟨inside, names, .members members⟩
      ((Record.memberFaults names [] 0 members).both fields).map (·.2) |>.toExcept
    | .array items => do
      let inside ← setting.enter
      let value ← (build ⟨inside, names, .items items⟩).toExcept
      if items.length ≤ names.length then return value
      else throw (if setting.origin = .text then .malformed else .mismatch)
    | draft => .error draft.refusal

/-! ## Names of variants -/

/-- A variant of a list by its name. -/
def variant {α : Type} (variants : List (String × α)) (name : String) : Except Fault α :=
  match findEntry name variants with
  | some value => .ok value
  | none => .error (.unknownVariant name (variants.map (·.1)))

/-- Reads the bare name of a variant, which is a string and nothing else. -/
def readVariantName {α : Type} (variants : List (String × α)) : Reader α := fun setting draft => do
  variant variants (← readString setting draft)

/-- Reads the name of a variant: a string, or an object with that name and null. A text that has
anything else here is malformed. -/
def readVariant {α : Type} (variants : List (String × α)) : Reader α := fun setting draft =>
  let other := if setting.origin = .text then Fault.malformed else .mismatch
  match draft with
  | .scalar (.string name) => variant variants name
  | .object members => do
    let inside ← if setting.origin = .text then setting.enter else .ok setting
    match members with
    | (some name, draft) :: more => do
      if setting.origin = .value ∧ !more.isEmpty then throw .mismatch
      let value ← variant variants name
      readNull inside draft
      if more.isEmpty then return value else throw other
    | _ => throw other
  | _ => throw other

end Collocation.Json
