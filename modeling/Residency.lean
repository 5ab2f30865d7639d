import Residency.Bytes
import Residency.Text
import Residency.Json
import Residency.System
import Residency.Attribute
import Residency.Context
import Residency.Session
import Residency.Xfs
import Residency.Settings.Value
import Residency.Settings.Load
import Residency.Settings.Standard
import Residency.Toml.Token
import Residency.Toml.Document
import Residency.Command
import Residency.Main
import Residency.Proofs.Bytes
import Residency.Proofs.Attribute.Buffer
import Residency.Proofs.Attribute.RoundTrip
import Residency.Proofs.Attribute.Rewriting
import Residency.Proofs.Attribute.Checked
import Residency.Proofs.Attribute.Spelling
import Residency.Proofs.Classify
import Residency.Proofs.Criterion
import Residency.Proofs.Estimate
import Residency.Proofs.Project
import Residency.Proofs.Session.History
import Residency.Proofs.Session.Replay
import Residency.Proofs.Paging
import Residency.Proofs.Collapse
import Residency.Proofs.Json
import Residency.Proofs.Settings.Distinct
import Residency.Proofs.Toml
import Residency.Proofs.Settings.Laws
import Residency.Proofs.Settings.Path
import Residency.Proofs.Settings.Locate
import Residency.Proofs.Settings.Standard
import Residency.Proofs.Settings.Precedence
import Residency.Proofs.Command.Decode
import Residency.Proofs.Command.Report
import Residency.Proofs.Command.Visits
import Residency.Proofs.Command.Check
import Residency.Proofs.Command.Version
import Residency.Proofs.Xfs.Kernel
import Residency.Proofs.Xfs.Read
