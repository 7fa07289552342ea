import SeededDraws.Abi.Buffer
import SeededDraws.Abi.Function
import SeededDraws.Abi.Layout
import SeededDraws.Abi.Uint
import SeededDraws.Abi.Words
import SeededDraws.Address
import SeededDraws.Binary64
import SeededDraws.Binary64.Hexadecimal
import SeededDraws.Binary64.Reading
import SeededDraws.Binary64.Text
import SeededDraws.Bytes
import SeededDraws.Config
import SeededDraws.Context
import SeededDraws.Contract
import SeededDraws.Contract.Body
import SeededDraws.Contract.Random
import SeededDraws.Contract.Script
import SeededDraws.Datum
import SeededDraws.Datum.Reading
import SeededDraws.Deployment
import SeededDraws.Environment
import SeededDraws.Fault
import SeededDraws.Fault.Cause
import SeededDraws.Fault.Failure
import SeededDraws.Fault.Kind
import SeededDraws.Gas
import SeededDraws.Hash
import SeededDraws.Hash.Keccak
import SeededDraws.Hash.Sha256
import SeededDraws.Json
import SeededDraws.Json.Writer
import SeededDraws.Metrics
import SeededDraws.Nonce
import SeededDraws.Proofs.Abi.Calls
import SeededDraws.Proofs.Abi.Documents
import SeededDraws.Proofs.Abi.Elements
import SeededDraws.Proofs.Abi.Request
import SeededDraws.Proofs.Abi.Response
import SeededDraws.Proofs.Abi.Selectors
import SeededDraws.Proofs.Abi.Uint
import SeededDraws.Proofs.Abi.Words
import SeededDraws.Proofs.Accounts
import SeededDraws.Proofs.Address
import SeededDraws.Proofs.Address.Grammar
import SeededDraws.Proofs.Address.Readers
import SeededDraws.Proofs.Binary64
import SeededDraws.Proofs.Bytes
import SeededDraws.Proofs.Config
import SeededDraws.Proofs.Context
import SeededDraws.Proofs.Contract.Acts
import SeededDraws.Proofs.Contract.Agreement
import SeededDraws.Proofs.Contract.Body
import SeededDraws.Proofs.Contract.Charges
import SeededDraws.Proofs.Contract.Closing
import SeededDraws.Proofs.Contract.Containment
import SeededDraws.Proofs.Contract.Counting
import SeededDraws.Proofs.Contract.Ending
import SeededDraws.Proofs.Contract.History
import SeededDraws.Proofs.Contract.Hosted
import SeededDraws.Proofs.Contract.Outcome
import SeededDraws.Proofs.Contract.Prefixes
import SeededDraws.Proofs.Contract.Random
import SeededDraws.Proofs.Contract.Reading
import SeededDraws.Proofs.Contract.Routing
import SeededDraws.Proofs.Contract.Sharing
import SeededDraws.Proofs.Contract.Snapshots
import SeededDraws.Proofs.Contract.Static
import SeededDraws.Proofs.Contract.Tally
import SeededDraws.Proofs.Contract.Terms
import SeededDraws.Proofs.Contract.Trail
import SeededDraws.Proofs.Contract.Transaction
import SeededDraws.Proofs.Contract.Unreleased
import SeededDraws.Proofs.Deployment
import SeededDraws.Proofs.Environment
import SeededDraws.Proofs.Fault
import SeededDraws.Proofs.Gas
import SeededDraws.Proofs.Histogram
import SeededDraws.Proofs.Host
import SeededDraws.Proofs.Host.Calls
import SeededDraws.Proofs.Host.Views
import SeededDraws.Proofs.Host.Words
import SeededDraws.Proofs.Ledger.Contents
import SeededDraws.Proofs.Ledger.Copies
import SeededDraws.Proofs.Ledger.Journal
import SeededDraws.Proofs.Ledger.Marks
import SeededDraws.Proofs.Ledger.Refinement
import SeededDraws.Proofs.Ledger.WellFormed
import SeededDraws.Proofs.Literal
import SeededDraws.Proofs.Metrics
import SeededDraws.Proofs.Numeral
import SeededDraws.Proofs.Ownership
import SeededDraws.Proofs.Preimages
import SeededDraws.Proofs.Reachable
import SeededDraws.Proofs.Registry
import SeededDraws.Proofs.Seed
import SeededDraws.Proofs.Store
import SeededDraws.Proofs.Table
import SeededDraws.Proofs.Text
import SeededDraws.Proofs.Views
import SeededDraws.Registry
import SeededDraws.Seed
import SeededDraws.Session.Console
import SeededDraws.Session.Display
import SeededDraws.Session.Spec
import SeededDraws.Session.Workbench
import SeededDraws.Store
import SeededDraws.Store.Host
import SeededDraws.Store.Ledger
import SeededDraws.Store.Operation
import SeededDraws.Store.ScriptedHost
import SeededDraws.Store.Table
import SeededDraws.Text
import SeededDraws.Text.Blank
import SeededDraws.Text.Cased
import SeededDraws.Text.Decimal
import SeededDraws.Text.DecimalDigit
import SeededDraws.Text.Encoding
import SeededDraws.Text.Hex
import SeededDraws.Text.LowerCase
import SeededDraws.Text.Numeral
import SeededDraws.Text.Printable
import SeededDraws.Text.Quoted
