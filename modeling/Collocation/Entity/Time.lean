import Collocation.Failure
import Collocation.Json.Record

/-!
# Times in entities

A time in what the pipeline hands over is a text or a whole number of milliseconds. Either way it is
kept to the millisecond, rounded down, and a leap second becomes the second after it. Times in what
the store holds are texts only, and are kept to the nanosecond.
-/

set_option autoImplicit false

namespace Collocation

open Json

/-- What was given as a time and is none. -/
structure BadTime where
  text : String
deriving DecidableEq

def BadTime.failure (bad : BadTime) : Failure := .invalidTimestamp bad.text

def BadTime.fault (bad : BadTime) : Fault := .invalidTimestamp bad.text

namespace Instant

def ofMillis (millis : Int) : Except BadTime Instant :=
  match ofMillis? millis with
  | some t => .ok t
  | none => .error ⟨toString millis⟩

def ofText (text : String) : Except BadTime Instant :=
  match ofIso8601? text.toList with
  | some t => .ok t
  | none => .error ⟨text⟩

/-- The time of a text, to the millisecond. -/
def ofTextInMillis (text : String) : Except BadTime Instant := do
  let t ← ofText text
  ofMillis t.millis

def toJson (t : Instant) : Json := .string t.text

end Instant

/-- A time that the pipeline hands over. -/
def readTime : Reader Instant := fun setting draft => do
  match ← readPayload setting draft with
  | .scalar (.integer millis) =>
    if Int64.minValue.toInt ≤ millis ∧ millis ≤ Int64.maxValue.toInt then
      (Instant.ofMillis millis).mapError BadTime.fault
    else throw .mismatch
  | .scalar (.string text) => (Instant.ofTextInMillis text).mapError BadTime.fault
  | _ => throw .mismatch

/-- A time that the store holds. -/
def readInstant : Reader Instant := readParsed Instant.ofStored?

end Collocation
