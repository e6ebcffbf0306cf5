import Collocation.Json.Record
import Collocation.Json.Write

/-!
# Statistics of an execution
-/

set_option autoImplicit false

namespace Collocation

open Json

/-- How many points a matchup found, and how long it took. -/
structure Stats where
  primaryMatched : Int64
  secondaryMatched : Int64
  timeToComplete : Int64
deriving DecidableEq

namespace Stats

def toJson (stats : Stats) : Json :=
  .object
    [ ("numPrimaryMatched", .ofInt64 stats.primaryMatched),
      ("numSecondaryMatched", .ofInt64 stats.secondaryMatched),
      ("timeToComplete", .ofInt64 stats.timeToComplete) ]

def read : Reader Stats :=
  readRecord ["numPrimaryMatched", "numSecondaryMatched", "timeToComplete"] fun record =>
    Stats.mk
      <$> record.required "numPrimaryMatched" readInt64
      <*> record.required "numSecondaryMatched" readInt64
      <*> record.required "timeToComplete" readInt64

end Stats

end Collocation
