import AccessControl.Authority.Error
import AccessControl.Authority.Operation
import AccessControl.Authority.Provider
import AccessControl.Authority.Session
import AccessControl.DataSource.Config
import AccessControl.DataSource.ConnectString
import AccessControl.DataSource.Error
import AccessControl.DataSource.Registry
import AccessControl.Decimal.Binary64
import AccessControl.Decimal.Reader
import AccessControl.Decimal.Shortest
import AccessControl.Dialogue
import AccessControl.Http.Message
import AccessControl.Http.Script
import AccessControl.Http.Status
import AccessControl.Identity.Config
import AccessControl.Identity.Directory
import AccessControl.Identity.Endpoint
import AccessControl.Identity.Error
import AccessControl.Identity.Group
import AccessControl.Identity.Service
import AccessControl.Json.Basic
import AccessControl.Json.Printer
import AccessControl.Json.Reading
import AccessControl.Json.Record
import AccessControl.Main
import AccessControl.Permission.Basic
import AccessControl.Permission.Call
import AccessControl.Permission.Config
import AccessControl.Permission.Error
import AccessControl.Permission.RoleSet
import AccessControl.Permission.Store
import AccessControl.Postgres.Command
import AccessControl.Postgres.Store
import AccessControl.Program.Command
import AccessControl.Program.Config
import AccessControl.Program.Error
import AccessControl.Program.Invocation
import AccessControl.Program.Log
import AccessControl.Program.Option
import AccessControl.Program.Run
import AccessControl.Program.Usage
import AccessControl.Proofs.Authority.Course
import AccessControl.Proofs.DataSource.Upkeep
import AccessControl.Proofs.Identity.Classification
import AccessControl.Proofs.Identity.Containment
import AccessControl.Proofs.Identity.Endpoint
import AccessControl.Proofs.Identity.Lookup
import AccessControl.Proofs.Json.Fields
import AccessControl.Proofs.Permission.Apart
import AccessControl.Proofs.Permission.Codec
import AccessControl.Proofs.Permission.Holding
import AccessControl.Proofs.Permission.Shape
import AccessControl.Proofs.Postgres.Agreement
import AccessControl.Proofs.Postgres.Dispatch
import AccessControl.Proofs.Postgres.Execution
import AccessControl.Proofs.Postgres.Interleaving
import AccessControl.Proofs.Postgres.Linearization
import AccessControl.Proofs.Postgres.Refusal
import AccessControl.Proofs.Postgres.Relation
import AccessControl.Proofs.Postgres.Representation
import AccessControl.Proofs.Postgres.Rows
import AccessControl.Proofs.Postgres.Served
import AccessControl.Proofs.Postgres.Template
import AccessControl.Proofs.Postgres.Traffic
import AccessControl.Proofs.Program.OutcomeText
import AccessControl.Proofs.Program.Performance
import AccessControl.Proofs.Program.Rendering
import AccessControl.Proofs.Sequence
import AccessControl.Proofs.Session.Accord
import AccessControl.Proofs.Session.Cascade
import AccessControl.Proofs.Session.Decision
import AccessControl.Proofs.Session.Episode
import AccessControl.Proofs.Session.Failure
import AccessControl.Proofs.Session.History
import AccessControl.Proofs.Session.Interchange
import AccessControl.Proofs.Session.Ledger
import AccessControl.Proofs.Session.Lifecycle
import AccessControl.Proofs.Session.Opening
import AccessControl.Proofs.Session.Outcome
import AccessControl.Proofs.Session.Projection
import AccessControl.Proofs.Session.Provenance
import AccessControl.Proofs.Session.Removal
import AccessControl.Proofs.Session.Replies
import AccessControl.Proofs.Session.Run
import AccessControl.Proofs.Session.Schema
import AccessControl.Proofs.Session.Settlement
import AccessControl.Proofs.Session.Surroundings
import AccessControl.Proofs.Session.Undisturbed
import AccessControl.Proofs.Session.Verdict
import AccessControl.Proofs.Session.Without
import AccessControl.Proofs.Settings.Decoded
import AccessControl.Proofs.Settings.Layering
import AccessControl.Proofs.Settings.Layers
import AccessControl.Proofs.Settings.Literal
import AccessControl.Proofs.Settings.Precedence
import AccessControl.Proofs.Settings.TextSetting
import AccessControl.Proofs.Settings.Tidy
import AccessControl.Proofs.Settings.Toml
import AccessControl.Proofs.Settings.Yaml
import AccessControl.Proofs.Text.ByteOrder
import AccessControl.Proofs.Transcript
import AccessControl.Proofs.Web.Percent
import AccessControl.Settings.Basic
import AccessControl.Settings.Environment
import AccessControl.Settings.Error
import AccessControl.Settings.Layer
import AccessControl.Settings.Literal
import AccessControl.Settings.Sections
import AccessControl.Settings.Toml.Document
import AccessControl.Settings.Toml.Scalar
import AccessControl.Settings.Toml.Table
import AccessControl.Settings.Tree
import AccessControl.Settings.VariableFile
import AccessControl.Settings.Yaml.Cursor
import AccessControl.Settings.Yaml.Node
import AccessControl.Settings.Yaml.Scalar
import AccessControl.Settings.Yaml.Token
import AccessControl.Settings.Yaml.Value
import AccessControl.Sql.Server
import AccessControl.Sql.Statement
import AccessControl.Text.Alphanumeric
import AccessControl.Text.Ascii
import AccessControl.Text.Base64
import AccessControl.Text.Blank
import AccessControl.Text.Quoted
import AccessControl.Text.Utf8
import AccessControl.Text.Utf8Fault
import AccessControl.Text.Visible
import AccessControl.Web.Address
import AccessControl.Web.Domain
import AccessControl.Web.Error
import AccessControl.Web.Host
import AccessControl.Web.Ip
import AccessControl.Web.Percent
import AccessControl.Web.Segments
