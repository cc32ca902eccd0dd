import InfraSmells.Analysis.Basic
import InfraSmells.Analysis.Passage
import InfraSmells.Analysis.State
import InfraSmells.Checker.Basic
import InfraSmells.Checker.Registry
import InfraSmells.CommandLine.Basic
import InfraSmells.CommandLine.Check
import InfraSmells.CommandLine.Command
import InfraSmells.CommandLine.Commands
import InfraSmells.CommandLine.Completion
import InfraSmells.CommandLine.Environment
import InfraSmells.CommandLine.Flag
import InfraSmells.CommandLine.Help
import InfraSmells.CommandLine.Listings
import InfraSmells.CommandLine.Response
import InfraSmells.CommandLine.Script
import InfraSmells.CommandLine.Shell
import InfraSmells.Config.Basic
import InfraSmells.Config.BuiltIn
import InfraSmells.Config.Lists
import InfraSmells.Config.Policies
import InfraSmells.Config.Reading
import InfraSmells.Config.Tables
import InfraSmells.Config.Words
import InfraSmells.Csv.Basic
import InfraSmells.Csv.Reading
import InfraSmells.Datum.Basic
import InfraSmells.Datum.Instant
import InfraSmells.Datum.Json
import InfraSmells.Datum.Pack
import InfraSmells.Datum.Toml
import InfraSmells.Decimal.Binary
import InfraSmells.Decimal.Binary32
import InfraSmells.Decimal.Binary64
import InfraSmells.Decimal.Integer
import InfraSmells.Decimal.Power
import InfraSmells.Decimal.Radix
import InfraSmells.Decimal.Shortest
import InfraSmells.Design.Alignment
import InfraSmells.Design.Checkers
import InfraSmells.Design.Lines
import InfraSmells.Design.Structure
import InfraSmells.Document.Basic
import InfraSmells.Document.Record
import InfraSmells.Document.Written
import InfraSmells.Files.Path
import InfraSmells.Files.System
import InfraSmells.Finding.Bag
import InfraSmells.Finding.Basic
import InfraSmells.Finding.Catalog
import InfraSmells.Input.Basic
import InfraSmells.Input.Discovery
import InfraSmells.Logging
import InfraSmells.Main
import InfraSmells.Policy.Access
import InfraSmells.Policy.Checkers
import InfraSmells.Policy.Documents
import InfraSmells.Policy.Logging
import InfraSmells.Policy.Lookup
import InfraSmells.Policy.References
import InfraSmells.Policy.Resources
import InfraSmells.Policy.Rules
import InfraSmells.Proofs.Analysis.Alike
import InfraSmells.Proofs.Analysis.Coverage
import InfraSmells.Proofs.Analysis.Entered
import InfraSmells.Proofs.Analysis.Independence
import InfraSmells.Proofs.Analysis.Induction
import InfraSmells.Proofs.Analysis.Invariant
import InfraSmells.Proofs.Analysis.Legible
import InfraSmells.Proofs.Analysis.Scope
import InfraSmells.Proofs.Analysis.Siblings
import InfraSmells.Proofs.Analysis.Sites
import InfraSmells.Proofs.Checker.Declared
import InfraSmells.Proofs.Checker.Local
import InfraSmells.Proofs.Checker.Registry
import InfraSmells.Proofs.Config.Keywords
import InfraSmells.Proofs.Config.Lists
import InfraSmells.Proofs.Csv.Reading
import InfraSmells.Proofs.Datum.Depth
import InfraSmells.Proofs.Datum.Json
import InfraSmells.Proofs.Datum.JsonNumber
import InfraSmells.Proofs.Datum.Lower
import InfraSmells.Proofs.Datum.Members
import InfraSmells.Proofs.Datum.Pack
import InfraSmells.Proofs.Datum.Written
import InfraSmells.Proofs.Decimal.Integer
import InfraSmells.Proofs.Decimal.Rounding
import InfraSmells.Proofs.Decimal.Shortest
import InfraSmells.Proofs.Design.Declared
import InfraSmells.Proofs.Design.Duplicates
import InfraSmells.Proofs.Design.Grouping
import InfraSmells.Proofs.Design.LongLines
import InfraSmells.Proofs.Design.Variables
import InfraSmells.Proofs.Design.Windows
import InfraSmells.Proofs.Document.Elements
import InfraSmells.Proofs.Document.Once
import InfraSmells.Proofs.Document.Record
import InfraSmells.Proofs.Document.RoundTrip
import InfraSmells.Proofs.Document.Whole
import InfraSmells.Proofs.Document.Written
import InfraSmells.Proofs.Failing
import InfraSmells.Proofs.Files.Below
import InfraSmells.Proofs.Files.Relative
import InfraSmells.Proofs.Finding.Order
import InfraSmells.Proofs.Finding.Repetition
import InfraSmells.Proofs.Input.Discovery
import InfraSmells.Proofs.Input.Reading
import InfraSmells.Proofs.Policy.Attached
import InfraSmells.Proofs.Policy.Bounds
import InfraSmells.Proofs.Policy.Declared
import InfraSmells.Proofs.Policy.Judged
import InfraSmells.Proofs.Policy.Lookup
import InfraSmells.Proofs.Policy.Places
import InfraSmells.Proofs.Policy.Ports
import InfraSmells.Proofs.Policy.References
import InfraSmells.Proofs.Policy.Rotation
import InfraSmells.Proofs.Policy.Spellings
import InfraSmells.Proofs.Policy.Union
import InfraSmells.Proofs.Report.Basic
import InfraSmells.Proofs.Run.Malformed
import InfraSmells.Proofs.Run.Pool
import InfraSmells.Proofs.Run.Tasks
import InfraSmells.Proofs.Security.Addresses
import InfraSmells.Proofs.Security.Bindings
import InfraSmells.Proofs.Security.Comments
import InfraSmells.Proofs.Security.Declared
import InfraSmells.Proofs.Security.Downloads
import InfraSmells.Proofs.Security.Entries
import InfraSmells.Proofs.Security.Images
import InfraSmells.Proofs.Security.Nested
import InfraSmells.Proofs.Security.Secrets
import InfraSmells.Proofs.Source.Cache
import InfraSmells.Proofs.Source.Lines
import InfraSmells.Proofs.Terraform.Bodies
import InfraSmells.Proofs.Terraform.Dynamic
import InfraSmells.Proofs.Terraform.Lexemes
import InfraSmells.Proofs.Terraform.Position
import InfraSmells.Proofs.Terraform.Positions
import InfraSmells.Proofs.Terraform.Readers
import InfraSmells.Proofs.Terraform.Stream
import InfraSmells.Proofs.Text.Bytes
import InfraSmells.Proofs.Text.Carried
import InfraSmells.Proofs.Text.Case
import InfraSmells.Proofs.Text.Classes
import InfraSmells.Proofs.Text.Cut
import InfraSmells.Proofs.Text.Distinct
import InfraSmells.Proofs.Text.Lines
import InfraSmells.Proofs.Text.Parts
import InfraSmells.Proofs.Tree.Leaves
import InfraSmells.Proofs.Tree.Literals
import InfraSmells.Proofs.Tree.Numbers
import InfraSmells.Proofs.Tree.Occurrences
import InfraSmells.Proofs.Tree.Siblings
import InfraSmells.Report.Basic
import InfraSmells.Report.Listing
import InfraSmells.Report.Options
import InfraSmells.Report.Sarif
import InfraSmells.Report.Style
import InfraSmells.Run
import InfraSmells.Run.Pool
import InfraSmells.Security.Checkers
import InfraSmells.Security.Comments
import InfraSmells.Security.Images
import InfraSmells.Security.Integrity
import InfraSmells.Security.Values
import InfraSmells.Source.File
import InfraSmells.Source.Reader
import InfraSmells.Technology
import InfraSmells.Terraform.Column
import InfraSmells.Terraform.Evaluation
import InfraSmells.Terraform.Grammar
import InfraSmells.Terraform.Lexer
import InfraSmells.Terraform.Syntax
import InfraSmells.Terraform.Template
import InfraSmells.Terraform.Token
import InfraSmells.Terraform.Tree
import InfraSmells.Terraform.Value
import InfraSmells.Terraform.ValueType
import InfraSmells.Text.Blank
import InfraSmells.Text.Bytes
import InfraSmells.Text.Case
import InfraSmells.Text.CharSet
import InfraSmells.Text.Cluster
import InfraSmells.Text.Compose
import InfraSmells.Text.Encoded
import InfraSmells.Text.Letter
import InfraSmells.Text.Quoted
import InfraSmells.Text.Search
import InfraSmells.Text.Width
import InfraSmells.Timing
import InfraSmells.Tree.Basic
import InfraSmells.Tree.Positions
import InfraSmells.Tree.Text
import InfraSmells.Tree.Traversal
import InfraSmells.Url
import InfraSmells.Version
