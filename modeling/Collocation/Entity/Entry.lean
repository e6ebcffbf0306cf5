import Collocation.Double.Text
import Collocation.Entity.Point

/-!
# Result entries

A point as it is handed back to callers. A full entry has everything that was stored: its payload is
`primary` at the top level and `secondary` below it. A trimmed one has a position, a source and a
time only.
-/

set_option autoImplicit false

namespace Collocation

open Json

/-- What is told of a point that was read back. A trimmed entry has four of the fields only. -/
structure Entry where
  id : Option String := none
  longitude : Double
  latitude : Double
  /-- A label for people, with the position in it. -/
  label : Option String := none
  source : String
  time : Instant
  platform : Option String := none
  device : Option String := none
  depth : Option Double := none
  fileUrl : Option String := none
  primary : Option Json := none
  secondary : Option Json := none

/-- An entry with the entries of its matches. -/
abbrev EntryTree := Tree Entry

/-- The label of a position, in three decimal places. -/
def positionLabel (longitude latitude : Double) : String :=
  "Point(" ++ String.ofList (longitude.fixed 3) ++ " " ++ String.ofList (latitude.fixed 3) ++ ")"

namespace Entry

/-- Whether an entry comes from a trimmed retrieval. -/
def isTrimmed (entry : Entry) : Bool :=
  entry.id.isNone

/-- The payload, wherever it is. -/
def payload (entry : Entry) : Option Json :=
  entry.primary.or entry.secondary

/-- The observation that an entry shows, if it has an identifier. -/
def observation? (entry : Entry) : Option Observation :=
  entry.id.map fun id =>
    { id
      longitude := entry.longitude
      latitude := entry.latitude
      source := entry.source
      time := entry.time
      platform := entry.platform
      device := entry.device
      depth := entry.depth
      fileUrl := entry.fileUrl
      data := entry.payload }

/-- What is absent is left out. -/
def members (entry : Entry) : List (String × Json) :=
  member? "id" .string entry.id ++
    [ ("lon", .ofDouble entry.longitude),
      ("lat", .ofDouble entry.latitude) ] ++
    member? "point" .string entry.label ++
    [ ("source", .string entry.source),
      ("time", entry.time.toJson) ] ++
    member? "platform" .string entry.platform ++
    member? "device" .string entry.device ++
    member? "depth" .ofDouble entry.depth ++
    member? "fileurl" .string entry.fileUrl ++
    member? "primary" (fun value => value) entry.primary ++
    member? "secondary" (fun value => value) entry.secondary

def names : List String :=
  [ "id", "lon", "lat", "point", "source", "time", "platform", "device", "depth", "fileurl",
    "primary", "secondary", "matches" ]

def fields (record : Record) : Located Entry :=
  Entry.mk
    <$> record.optional "id" readString
    <*> record.required "lon" readDouble
    <*> record.required "lat" readDouble
    <*> record.optional "point" readString
    <*> record.required "source" readString
    <*> record.required "time" readInstant
    <*> record.optional "platform" readString
    <*> record.optional "device" readString
    <*> record.optional "depth" readDouble
    <*> record.optional "fileurl" readString
    <*> record.optional "primary" readPayload
    <*> record.optional "secondary" readPayload

end Entry

namespace EntryTree

/-- The point that an entry shows; nothing if any entry in the tree has no identifier. -/
def toPoint? (tree : EntryTree) : Option Point :=
  Tree.traverse Entry.observation? tree

def toJson (tree : EntryTree) : Json :=
  Tree.toJson Entry.members tree

def read : Reader EntryTree :=
  readTree Entry.names Entry.fields

end EntryTree

end Collocation
