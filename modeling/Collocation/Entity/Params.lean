import Collocation.Entity.Time
import Collocation.Json.Write
import Collocation.Text.Split

/-!
# Parameters of an execution

What a matchup was asked for. The datasets to be matched can be given as a list, or as one text with
commas between their names.
-/

set_option autoImplicit false

namespace Collocation

open Json

/-- What a matchup was asked for: which datasets, where, when and how near. -/
structure Params where
  primary : String
  matchup : List String
  depthMin : Option Double
  depthMax : Option Double
  timeTolerance : Int64
  radiusTolerance : Double
  startTime : Instant
  endTime : Instant
  platforms : String
  boundingBox : String
  parameter : String
deriving DecidableEq

/-- The strings of a list, if all its items are strings. -/
def stringsOf? (items : List Json) : Option (List String) :=
  items.mapM fun
    | .scalar (.string s) => some s
    | _ => none

/-- Names of datasets: a list of strings, or one string with commas. -/
def readDatasets : Reader (List String) := fun setting draft => do
  match ← readPayload setting draft with
  | .array items => match stringsOf? items with
    | some names => return names
    | none => throw .mismatch
  | .scalar (.string s) => return Text.splitCommas s
  | _ => throw .mismatch

namespace Params

def toJson (params : Params) : Json :=
  .object
    [ ("primary", .string params.primary),
      ("matchup", .ofStrings params.matchup),
      ("depthMin", .option .ofDouble params.depthMin),
      ("depthMax", .option .ofDouble params.depthMax),
      ("timeTolerance", .ofInt64 params.timeTolerance),
      ("radiusTolerance", .ofDouble params.radiusTolerance),
      ("startTime", params.startTime.toJson),
      ("endTime", params.endTime.toJson),
      ("platforms", .string params.platforms),
      ("bbox", .string params.boundingBox),
      ("parameter", .string params.parameter) ]

def read : Reader Params :=
  readRecord
    [ "primary", "matchup", "depthMin", "depthMax", "timeTolerance", "radiusTolerance",
      "startTime", "endTime", "platforms", "bbox", "parameter" ] fun record =>
    Params.mk
      <$> record.required "primary" readString
      <*> record.required "matchup" readDatasets
      <*> record.optional "depthMin" readDouble
      <*> record.optional "depthMax" readDouble
      <*> record.required "timeTolerance" readInt64
      <*> record.required "radiusTolerance" readDouble
      <*> record.required "startTime" readTime
      <*> record.required "endTime" readTime
      <*> record.required "platforms" readString
      <*> record.required "bbox" readString
      <*> record.required "parameter" readString

end Params

end Collocation
