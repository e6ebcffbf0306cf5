import Collocation.CommandLine.Folder
import Collocation.Main
import Collocation.Session
import Collocation.Proofs.CommandLine.Turns
import Collocation.Proofs.Text.Digits
import Collocation.Proofs.Time.Calendar
import Collocation.Proofs.Uuid.Text
import Collocation.Proofs.Archive.Faults
import Collocation.Proofs.Archive.MixedLayouts
import Collocation.Proofs.Archive.Runs
import Collocation.Proofs.Assembly.Restoring
import Collocation.Proofs.Store.DataTable
import Collocation.Proofs.Store.Reopening
import Collocation.Proofs.Archive.Retrieval
import Collocation.Proofs.Writer.ChunkSizes
import Collocation.Proofs.Writer.Retries
import Collocation.Proofs.Forest.Walks
import Collocation.Proofs.Assembly.Outlines
import Collocation.Proofs.Assembly.Balance
import Collocation.Proofs.Archive.RowCounts
import Collocation.Proofs.Writer.Accounts
import Collocation.Proofs.Flattening.Traversal
import Collocation.Proofs.Writer.Countdown
import Collocation.Proofs.Writer.Durations
import Collocation.Proofs.Archive.Parameters
import Collocation.Proofs.Writer.Latencies
import Collocation.Proofs.Session.Closed
import Collocation.Proofs.Row.FurtherColumns
import Collocation.Proofs.Entity.Documents
import Collocation.Proofs.Uuid.Forms
import Collocation.Proofs.Config.Files
