import Collocation.Failure
import Collocation.Json.Printer
import Collocation.Json.Record

/-!
# Configurations

How rows are written and how far parents are followed when they are read back. Every field has a
default, so an empty object is a configuration. A configuration is of use only if it allows a chunk
one row and a write one pass at least.
-/

set_option autoImplicit false

namespace Collocation

open Json

/-- How far matches are followed when a forest is read back. -/
inductive NestingDepth where
  /-- To the matches of top-level points only. -/
  | single
  | full
deriving DecidableEq

def NestingDepth.name : NestingDepth → String
  | single => "single"
  | full => "full"

/-- The depths by their names. -/
def nestingDepths : List (String × NestingDepth) :=
  [("single", .single), ("full", .full)]

/-- How rows are written, and how deep a forest is read. -/
structure Config where
  /-- How many rows are written at the same time. -/
  chunkSize : UInt64 := 1024
  /-- How many passes a write has before it is given up. -/
  maxAttempts : UInt32 := 5
  /-- Milliseconds between two passes. -/
  retryBackoff : UInt64 := 10000
  /-- Milliseconds that the write of a row may take, if they are limited. -/
  rowTimeout : Option UInt64 := none
  depth : NestingDepth := .full
deriving DecidableEq

namespace Config

/-- Whether a configuration lets anything be written at all. -/
def Usable (config : Config) : Prop :=
  config.chunkSize ≠ 0 ∧ config.maxAttempts ≠ 0

/-- The configuration itself, if it is usable. -/
def validate (config : Config) : Except ConfigFault { config : Config // config.Usable } :=
  if chunkSize : config.chunkSize = 0 then .error .chunkSize
  else if maxAttempts : config.maxAttempts = 0 then .error .maxAttempts
  else .ok ⟨config, chunkSize, maxAttempts⟩

def ofUInt64 (n : UInt64) : Json := .integer n.toNat

def toJson (config : Config) : Json :=
  .object
    [ ("chunk_size", ofUInt64 config.chunkSize),
      ("max_attempts", .integer config.maxAttempts.toNat),
      ("retry_backoff_ms", ofUInt64 config.retryBackoff),
      ("row_timeout_ms", .option ofUInt64 config.rowTimeout),
      ("nesting_depth", .string config.depth.name) ]

def read : Reader Config :=
  let default : Config := {}
  readRecord
    ["chunk_size", "max_attempts", "retry_backoff_ms", "row_timeout_ms", "nesting_depth"]
    fun record =>
      Config.mk
        <$> record.defaulted "chunk_size" readUInt64 default.chunkSize
        <*> record.defaulted "max_attempts" readUInt32 default.maxAttempts
        <*> record.defaulted "retry_backoff_ms" readUInt64 default.retryBackoff
        <*> record.defaulted "row_timeout_ms" (readOptional readUInt64) default.rowTimeout
        <*> record.defaulted "nesting_depth" (readVariant nestingDepths) default.depth

/-! ## Files -/

/-- The configuration of a file by its text, which has to be usable. -/
def ofText (text : String) : Except Failure { config : Config // config.Usable } := do
  let config ← (Json.ofText read text).mapError .json
  config.validate.mapError .invalidConfig

/-- The text of a file of a configuration. -/
def text (config : Config) : String :=
  config.toJson.lines

/-- A configuration is validated just if it can be used, and then it is given back as it was. -/
theorem validate_eq_ok_iff (config : Config) (valid : { config : Config // config.Usable }) :
    config.validate = .ok valid ↔ valid.val = config := by
  unfold validate
  split
  · next h =>
    refine iff_of_false (by simp) ?_
    rintro rfl
    exact valid.property.1 h
  · split
    · next h =>
      refine iff_of_false (by simp) ?_
      rintro rfl
      exact valid.property.2 h
    · constructor
      · rintro ⟨⟩
        rfl
      · rintro rfl
        rfl

end Config

end Collocation
