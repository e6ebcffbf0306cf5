import Collocation.Json.Fault
import Collocation.Row.Value

/-!
# Failures

Everything that can go wrong between the pipeline and the store, by its cause. A failure has a code
for diagnostics and a message.
-/

set_option autoImplicit false

namespace Collocation

/-- Why a stored row cannot be decoded. -/
inductive RowFault where
  | missing (column : String)
  | mismatch (column : String) (expected found : ColumnType)
  /-- A parent reference that is neither a row nor a point. -/
  | unsupportedParent (value : ColumnValue)
  /-- The column of the payload text holds something else. -/
  | payloadColumn (value : ColumnValue)
  | malformedPayload
  | notFinite (measurement : String)
  /-- The row has a payload in neither of the two layouts. -/
  | noPayload
  /-- A reason in the words of another store. -/
  | other (reason : String)
deriving DecidableEq

def RowFault.message : RowFault → String
  | missing column => "missing column '" ++ column ++ "'"
  | mismatch column expected found =>
    "column '" ++ column ++ "' expected " ++ expected.name ++ ", found " ++ found.name
  | unsupportedParent value => "unsupported parent reference " ++ value.describe
  | payloadColumn value => "payload column holds " ++ value.describe
  | malformedPayload => "malformed payload JSON"
  | notFinite measurement => "measurement '" ++ measurement ++ "' is not finite"
  | noPayload => "row has neither measurement_values_json nor measurement_values"
  | other reason => reason

/-- Why a configuration is not usable. -/
inductive ConfigFault where
  | chunkSize
  | maxAttempts
  | other (reason : String)
deriving DecidableEq

def ConfigFault.message : ConfigFault → String
  | chunkSize => "chunk_size must be > 0"
  | maxAttempts => "max_attempts must be > 0"
  | other reason => reason

/-- Why a store refused an operation. -/
inductive StoreFault where
  | closed
  /-- The write of a row was rejected. -/
  | rejected (row : String)
  | other (reason : String)
deriving DecidableEq

def StoreFault.message : StoreFault → String
  | closed => "store is closed"
  | rejected row => "write rejected for row " ++ row
  | other reason => reason

/-- Why something could not be done. -/
inductive Failure where
  /-- Every write pass of an execution had a row that failed. -/
  | writeFailed (execution : Uuid) (rows attempts : Nat)
  | executionNotFound (execution : Uuid)
  | undecodable (row : String) (fault : RowFault)
  | invalidExecutionId (text : String)
  | invalidTimestamp (text : String)
  | invalidConfig (fault : ConfigFault)
  | store (fault : StoreFault)
  | timedOut (milliseconds : Nat)
  | json (fault : Json.Fault)
  /-- A file could not be read or written. -/
  | file
deriving DecidableEq

namespace Failure

/-- The code of a failure, for diagnostics. -/
def code : Failure → String
  | writeFailed .. => "WRITE_FAILED"
  | executionNotFound _ => "EXECUTION_NOT_FOUND"
  | undecodable .. => "DECODE_ERROR"
  | invalidExecutionId _ => "INVALID_EXECUTION_ID"
  | invalidTimestamp _ => "INVALID_TIMESTAMP"
  | invalidConfig _ => "INVALID_CONFIG"
  | store _ | timedOut _ | json _ | file => "INTERNAL_ERROR"

def message : Failure → String
  | writeFailed execution rows attempts =>
    "Result write failed for execution " ++ execution.text ++ ": " ++ toString rows ++ " rows, " ++
      toString attempts ++ " attempts exhausted"
  | executionNotFound execution => "Execution not found with id '" ++ execution.text ++ "'"
  | undecodable row fault => "Cannot decode row " ++ row ++ ": " ++ fault.message
  | invalidExecutionId text => "Invalid execution id: " ++ text
  | invalidTimestamp text => "Invalid timestamp: " ++ text
  | invalidConfig fault => "Invalid configuration: " ++ fault.message
  | store fault => "Store error: " ++ fault.message
  | timedOut milliseconds =>
    "Store operation timed out after " ++ toString milliseconds ++ " ms"
  | json fault =>
    "JSON error: " ++ fault.wording?.getD
      (if fault.isMalformed then "malformed text" else "unexpected value")
  | file => "IO error"

end Failure

end Collocation
