import Accrual.Session.Step
import Accrual.Proofs.Gathered
import Accrual.Proofs.Sequence
import Accrual.Proofs.Stage
import Accrual.Proofs.Folds
import Accrual.Proofs.Agreement
import Accrual.Proofs.Filled.Basic
import Accrual.Proofs.Filled.Run
import Accrual.Proofs.Filled.Validation
import Accrual.Proofs.Filled.Logging
import Accrual.Proofs.Filled.Method
import Accrual.Proofs.Filled.Operation
import Accrual.Proofs.Filled.Callback
import Accrual.Proofs.Filled.Term
import Accrual.Proofs.Wrapping
import Accrual.Proofs.Filled.Session
import Accrual.Proofs.Logging.Configuration
import Accrual.Proofs.Logging.Rendering
import Accrual.Proofs.Logging.Calls
import Accrual.Proofs.Report
import Accrual.Proofs.Access.Basic
import Accrual.Proofs.Access.Validation
import Accrual.Proofs.Access.Logging
import Accrual.Proofs.Access.Method
import Accrual.Proofs.Access.Step
import Accrual.Proofs.Access.Session
import Accrual.Proofs.Frozen
import Accrual.Proofs.Logging.Steps
import Accrual.Proofs.LazyConfiguration
import Accrual.Proofs.RefusedConfiguration
import Accrual.Proofs.Routing
import Accrual.Proofs.Lines.Text
import Accrual.Proofs.Lines.Report
import Accrual.Proofs.Lines.Quoted
import Accrual.Proofs.Lines.Pairs
import Accrual.Proofs.Keyed
import Accrual.Proofs.Accumulation
import Accrual.Proofs.Settings.Sources
import Accrual.Proofs.Settings.Groups
import Accrual.Proofs.Settings.Precedence
import Accrual.Proofs.Settings.Assignments
import Accrual.Proofs.Settings.FromFile
import Accrual.Proofs.Values.Equality
import Accrual.Proofs.Values.Sets
import Accrual.Proofs.Values.Keys
import Accrual.Proofs.Traversal
import Accrual.Proofs.Channels
import Accrual.Proofs.Chaining
import Accrual.Proofs.Json.Scalars
import Accrual.Proofs.Json.Reading
import Accrual.Proofs.Logging.Encoding
import Accrual.Proofs.Logging.Records
import Accrual.Proofs.Sending
import Accrual.Proofs.Callbacks
import Accrual.Proofs.Widening
import Accrual.Proofs.Values.Histories
import Accrual.Proofs.Logging.Contexts
import Accrual.Proofs.Logging.Thresholds
import Accrual.Proofs.Lines.Canonical
import Accrual.Proofs.Violations
import Accrual.Proofs.Calendar
import Accrual.Proofs.Lines.Colors
import Accrual.Proofs.Timestamps
import Accrual.Proofs.Logging.Times
import Accrual.Proofs.Lines.Printable
import Accrual.Proofs.Values.Literals
import Accrual.Proofs.Logging.Clocks
