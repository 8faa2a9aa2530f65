import QueryLint.Call
import QueryLint.Chain
import QueryLint.CommandLine
import QueryLint.Declaration.Index
import QueryLint.Declaration.TypeDecl
import QueryLint.Declaration.Variable
import QueryLint.Diagnostic
import QueryLint.Document
import QueryLint.Event
import QueryLint.Explain
import QueryLint.Files.Basic
import QueryLint.Files.Scan
import QueryLint.Host
import QueryLint.Main
import QueryLint.Operator
import QueryLint.Proofs.Chain.Comment
import QueryLint.Proofs.Chain.Parentheses
import QueryLint.Proofs.Chain.Partition
import QueryLint.Proofs.Chain.Query
import QueryLint.Proofs.Chain.Typing
import QueryLint.Proofs.Chain.Walk
import QueryLint.Proofs.Declaration.Ancestry
import QueryLint.Proofs.Declaration.Comment
import QueryLint.Proofs.Declaration.Contents
import QueryLint.Proofs.Declaration.Generations
import QueryLint.Proofs.Declaration.Overload
import QueryLint.Proofs.Declaration.Parentheses
import QueryLint.Proofs.Declaration.Qualification
import QueryLint.Proofs.Declaration.Repetition
import QueryLint.Proofs.Declaration.SearchOrder
import QueryLint.Proofs.Declaration.Storing
import QueryLint.Proofs.Diagnostic.Message
import QueryLint.Proofs.Diagnostic.Sorting
import QueryLint.Proofs.Files.Indexing
import QueryLint.Proofs.Files.Locating
import QueryLint.Proofs.Files.Path
import QueryLint.Proofs.Files.Relisting
import QueryLint.Proofs.Files.Removal
import QueryLint.Proofs.Files.Resolution
import QueryLint.Proofs.Files.Walk
import QueryLint.Proofs.Host.Analysis
import QueryLint.Proofs.Host.Comment
import QueryLint.Proofs.Host.Dispatch
import QueryLint.Proofs.Host.FileOrder
import QueryLint.Proofs.Host.Parentheses
import QueryLint.Proofs.Host.Running
import QueryLint.Proofs.Host.SourceOrder
import QueryLint.Proofs.Operator.Catalog
import QueryLint.Proofs.Operator.InMemory
import QueryLint.Proofs.Outcome
import QueryLint.Proofs.Report.Lossless
import QueryLint.Proofs.Resolve.Activation
import QueryLint.Proofs.Resolve.Circle
import QueryLint.Proofs.Resolve.LongChain
import QueryLint.Proofs.Resolve.Lookup
import QueryLint.Proofs.Resolve.Parentheses
import QueryLint.Proofs.Resolve.Qualification
import QueryLint.Proofs.Resolve.Stack
import QueryLint.Proofs.Resolve.Termination
import QueryLint.Proofs.Resolve.Trail
import QueryLint.Proofs.Rule.DeclaredMethod
import QueryLint.Proofs.Rule.Findings
import QueryLint.Proofs.Rule.Flagged
import QueryLint.Proofs.Rule.Mirror
import QueryLint.Proofs.Rule.Scan
import QueryLint.Proofs.Rule.TableChain
import QueryLint.Proofs.Scope.Declared
import QueryLint.Proofs.Scope.Offer
import QueryLint.Proofs.Scope.Qualification
import QueryLint.Proofs.Scope.Shadow
import QueryLint.Proofs.Scope.Visible
import QueryLint.Proofs.SideBySide
import QueryLint.Proofs.Text.Json
import QueryLint.Proofs.Text.JsonReader
import QueryLint.Proofs.Text.Reading
import QueryLint.Proofs.Text.Template
import QueryLint.Proofs.Text.Utf8
import QueryLint.Proofs.Tree.Parentheses
import QueryLint.Proofs.Tree.Position
import QueryLint.Proofs.Tree.Traversal
import QueryLint.Proofs.Tree.WellFormed
import QueryLint.Proofs.Ty.Qualification
import QueryLint.Report
import QueryLint.Resolve
import QueryLint.Rule.IndexLambda
import QueryLint.Sample
import QueryLint.Scope
import QueryLint.Snapshot
import QueryLint.Stack
import QueryLint.Text.Hex
import QueryLint.Text.Json
import QueryLint.Text.Printable
import QueryLint.Text.Quoted
import QueryLint.Text.SourceText
import QueryLint.Text.Template
import QueryLint.Text.UpperCase
import QueryLint.Text.Utf8
import QueryLint.Tree.Basic
import QueryLint.Tree.Cursor
import QueryLint.Tree.Label
import QueryLint.Tree.Order
import QueryLint.Tree.Table
import QueryLint.Ty
import QueryLint.Ty.Written
