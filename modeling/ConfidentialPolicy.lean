import ConfidentialPolicy.Character.Category
import ConfidentialPolicy.Character.Fold
import ConfidentialPolicy.Character.Octets
import ConfidentialPolicy.Character.Property
import ConfidentialPolicy.Character.Script
import ConfidentialPolicy.Character.Set
import ConfidentialPolicy.CommandLine.Layout
import ConfidentialPolicy.CommandLine.Plan
import ConfidentialPolicy.CommandLine.Request
import ConfidentialPolicy.CommandLine.Run
import ConfidentialPolicy.CommandLine.Setup
import ConfidentialPolicy.CommandLine.Words
import ConfidentialPolicy.Compile
import ConfidentialPolicy.Container
import ConfidentialPolicy.Desk
import ConfidentialPolicy.Document
import ConfidentialPolicy.Draft
import ConfidentialPolicy.Drift
import ConfidentialPolicy.EnvRule.Basic
import ConfidentialPolicy.EnvRule.Injected
import ConfidentialPolicy.EnvRule.Matcher
import ConfidentialPolicy.Error
import ConfidentialPolicy.Fields
import ConfidentialPolicy.Files.Basic
import ConfidentialPolicy.Files.Path
import ConfidentialPolicy.Fragment.Import
import ConfidentialPolicy.Fragment.Publish
import ConfidentialPolicy.Fragment.Resolution
import ConfidentialPolicy.Fragment.Store
import ConfidentialPolicy.Input
import ConfidentialPolicy.Json.Basic
import ConfidentialPolicy.Json.Binary64
import ConfidentialPolicy.Json.Difference
import ConfidentialPolicy.Json.Numeral
import ConfidentialPolicy.Json.Printer
import ConfidentialPolicy.Json.Reader
import ConfidentialPolicy.Json.Token
import ConfidentialPolicy.Json.Written
import ConfidentialPolicy.KeyMap
import ConfidentialPolicy.LayerMap
import ConfidentialPolicy.Main
import ConfidentialPolicy.Mount
import ConfidentialPolicy.Options
import ConfidentialPolicy.PolicyText.Brackets
import ConfidentialPolicy.PolicyText.Declaration
import ConfidentialPolicy.PolicyText.Lists
import ConfidentialPolicy.Record
import ConfidentialPolicy.Regex.Basic
import ConfidentialPolicy.Regex.Bracket
import ConfidentialPolicy.Regex.Escape
import ConfidentialPolicy.Regex.Flags
import ConfidentialPolicy.Regex.Reader
import ConfidentialPolicy.Regex.Size
import ConfidentialPolicy.Role
import ConfidentialPolicy.Sidecar
import ConfidentialPolicy.SidecarCheck
import ConfidentialPolicy.Template
import ConfidentialPolicy.Text.Base64
import ConfidentialPolicy.Text.Blank
import ConfidentialPolicy.Text.Case
import ConfidentialPolicy.Text.Digits
import ConfidentialPolicy.Text.Search
import ConfidentialPolicy.Text.Utf8
import ConfidentialPolicy.Tool
import ConfidentialPolicy.Yaml.Node
import ConfidentialPolicy.Yaml.Reader
import ConfidentialPolicy.Yaml.Scalar
import ConfidentialPolicy.Yaml.Token
import ConfidentialPolicy.Proofs.Json.Value
import ConfidentialPolicy.Proofs.Json.Difference.Lossless
import ConfidentialPolicy.Proofs.Json.Difference.Reversal
import ConfidentialPolicy.Proofs.Checked
import ConfidentialPolicy.Proofs.Compile
import ConfidentialPolicy.Proofs.Coverage
import ConfidentialPolicy.Proofs.Deployment
import ConfidentialPolicy.Proofs.Fragment.Trust
import ConfidentialPolicy.Proofs.Fragment.Isolation
import ConfidentialPolicy.Proofs.Fragment.Publish
import ConfidentialPolicy.Proofs.Verdict
import ConfidentialPolicy.Proofs.Drift.Entries
import ConfidentialPolicy.Proofs.Respelling.Fields
import ConfidentialPolicy.Proofs.Respelling.Input
import ConfidentialPolicy.Proofs.PolicyText.Declaration
import ConfidentialPolicy.Proofs.Template.Policies
import ConfidentialPolicy.Proofs.Desk
import ConfidentialPolicy.Proofs.DebugMode
import ConfidentialPolicy.Proofs.EnvRule.Matcher
import ConfidentialPolicy.Proofs.SidecarCheck
import ConfidentialPolicy.Proofs.Files
import ConfidentialPolicy.Proofs.Template.Reading
import ConfidentialPolicy.Proofs.CommandLine.Run
import ConfidentialPolicy.Proofs.Fragment.Spelling
import ConfidentialPolicy.Proofs.Drift.Imports
import ConfidentialPolicy.Proofs.Fragment.Progress
import ConfidentialPolicy.Proofs.Fragment.Declaring
import ConfidentialPolicy.Proofs.Fragment.Reordering
import ConfidentialPolicy.Proofs.Fragment.Accounting
import ConfidentialPolicy.Proofs.Container.Schema
import ConfidentialPolicy.Proofs.Template.Writing
import ConfidentialPolicy.Proofs.Template.Groups
import ConfidentialPolicy.Proofs.Fragment.Vouching
import ConfidentialPolicy.Proofs.EnvRule.Merging
import ConfidentialPolicy.Proofs.EnvRule.Conformance
import ConfidentialPolicy.Proofs.Container.Injection
import ConfidentialPolicy.Proofs.Container.Mounts
import ConfidentialPolicy.Proofs.Compile.Layers
import ConfidentialPolicy.Proofs.Respelling.Order
import ConfidentialPolicy.Proofs.CommandLine.ImportList
import ConfidentialPolicy.Proofs.PolicyText.Balance
import ConfidentialPolicy.Proofs.Json.Rendering
import ConfidentialPolicy.Proofs.Encoding
import ConfidentialPolicy.Proofs.Json.Difference.Report
import ConfidentialPolicy.Proofs.Json.Edits
import ConfidentialPolicy.Proofs.Yaml.Lexing
import ConfidentialPolicy.Proofs.Yaml.Edits
import ConfidentialPolicy.Proofs.PolicyText.HandEdits
