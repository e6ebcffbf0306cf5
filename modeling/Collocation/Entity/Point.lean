import Collocation.Entity.Branching
import Collocation.Entity.Time
import Collocation.Json.Write

/-!
# Points

An observation as the pipeline hands it over, and the observations that were matched with it below
it. The identifier is unique within its source only.
-/

set_option autoImplicit false

namespace Collocation

open Json

/-- What is known of a point, apart from its matches. -/
structure Observation where
  id : String
  longitude : Double
  latitude : Double
  source : String
  time : Instant
  platform : Option String := none
  device : Option String := none
  depth : Option Double := none
  fileUrl : Option String := none
  /-- Measurements, in any form. -/
  data : Option Json := none

/-- An observation with its matches. -/
abbrev Point := Tree Observation

namespace Observation

/-- What is absent is left out. -/
def members (o : Observation) : List (String × Json) :=
  [ ("id", .string o.id),
    ("lon", .ofDouble o.longitude),
    ("lat", .ofDouble o.latitude),
    ("source", .string o.source),
    ("time", o.time.toJson) ] ++
    member? "platform" .string o.platform ++
    member? "device" .string o.device ++
    member? "depth" .ofDouble o.depth ++
    member? "fileurl" .string o.fileUrl ++
    member? "data" (fun value => value) o.data

def names : List String :=
  [ "id", "lon", "lat", "source", "time", "platform", "device", "depth", "fileurl", "data",
    "matches" ]

def fields (record : Record) : Located Observation :=
  Observation.mk
    <$> record.required "id" readString
    <*> record.required "lon" readDouble
    <*> record.required "lat" readDouble
    <*> record.required "source" readString
    <*> record.required "time" readTime
    <*> record.optional "platform" readString
    <*> record.optional "device" readString
    <*> record.optional "depth" readDouble
    <*> record.optional "fileurl" readString
    <*> record.optional "data" readPayload

end Observation

def Point.toJson (point : Point) : Json :=
  Tree.toJson Observation.members point

def Point.read : Reader Point :=
  readTree Observation.names Observation.fields

end Collocation
