import FolioLedger.Authority.Basic
import FolioLedger.Authority.Client
import FolioLedger.Cli.Arguments
import FolioLedger.Cli.Command
import FolioLedger.Cli.Grammar
import FolioLedger.Cli.Help
import FolioLedger.Cli.Moment
import FolioLedger.Cli.Run
import FolioLedger.Cli.Trouble
import FolioLedger.Cli.Wording
import FolioLedger.Config.Basic
import FolioLedger.Config.Document
import FolioLedger.Crypto.Ed25519
import FolioLedger.Crypto.Edwards25519
import FolioLedger.Crypto.KeyFile
import FolioLedger.Crypto.Sha2
import FolioLedger.Desk
import FolioLedger.Document.Alert
import FolioLedger.Document.Artifact
import FolioLedger.Document.Folio
import FolioLedger.Document.Range
import FolioLedger.Document.Request
import FolioLedger.Engine
import FolioLedger.Failure
import FolioLedger.Http.Exchange
import FolioLedger.Http.Host
import FolioLedger.Http.Percent
import FolioLedger.Http.Punycode
import FolioLedger.Http.Status
import FolioLedger.Http.Url
import FolioLedger.Json.Bytes
import FolioLedger.Json.Printer
import FolioLedger.Json.Reader
import FolioLedger.Json.Record
import FolioLedger.Json.Value
import FolioLedger.Replenish.Monitor
import FolioLedger.Replenish.Poll
import FolioLedger.Replenish.Worker
import FolioLedger.Series
import FolioLedger.Status
import FolioLedger.Store.Assign
import FolioLedger.Store.Basic
import FolioLedger.Store.Expiry
import FolioLedger.Store.Fate
import FolioLedger.Store.File
import FolioLedger.Store.Locks
import FolioLedger.Store.Register
import FolioLedger.Store.Requests
import FolioLedger.Store.Usage
import FolioLedger.Text.Base64
import FolioLedger.Text.Blank
import FolioLedger.Text.Cell
import FolioLedger.Text.Csv
import FolioLedger.Text.Hex
import FolioLedger.Text.Numeral
import FolioLedger.Text.Quoted
import FolioLedger.Text.Similarity
import FolioLedger.Text.Utf8
import FolioLedger.Time.Calendar
import FolioLedger.Time.Instant
import FolioLedger.Time.Printer
import FolioLedger.Time.Reader
import FolioLedger.Validity
import FolioLedger.Watch
import FolioLedger.Yaml.Node
import FolioLedger.Yaml.Reader
import FolioLedger.Yaml.Scalar
import FolioLedger.Main
import FolioLedger.Proofs.Ledger.Columns
import FolioLedger.Proofs.Ledger.Coverage
import FolioLedger.Proofs.Ledger.LazyExpiry
import FolioLedger.Proofs.Ledger.Atomicity
import FolioLedger.Proofs.Replenish.Recording
import FolioLedger.Proofs.Replenish.Outcome
import FolioLedger.Proofs.Replenish.Stray
import FolioLedger.Proofs.Locks.Fencing
import FolioLedger.Proofs.Locks.Discipline
import FolioLedger.Proofs.Config.Horizon
import FolioLedger.Proofs.Document.Signature
import FolioLedger.Proofs.Replenish.Archive
import FolioLedger.Proofs.Locks.Separation
import FolioLedger.Proofs.Document.Signing
import FolioLedger.Proofs.Ledger.Independence
import FolioLedger.Proofs.Watch.Sweep
import FolioLedger.Proofs.Watch.Alerts
import FolioLedger.Proofs.Watch.Stock
import FolioLedger.Proofs.Watch.Proactive
import FolioLedger.Proofs.Ledger.Shortage
import FolioLedger.Proofs.Ledger.Admission
import FolioLedger.Proofs.Ledger.Queue
import FolioLedger.Proofs.Replenish.Resumption
import FolioLedger.Proofs.Replenish.Patience
import FolioLedger.Proofs.Locks.Refusal
import FolioLedger.Proofs.Ledger.Depletion
import FolioLedger.Proofs.Ledger.Usage
import FolioLedger.Proofs.Cli.Report
import FolioLedger.Proofs.Authority.Retries
import FolioLedger.Proofs.Locks.Liveness
import FolioLedger.Proofs.Ledger.Rounding
