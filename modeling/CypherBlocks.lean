import CypherBlocks.App.Render
import CypherBlocks.App.Run
import CypherBlocks.App.Settings
import CypherBlocks.Chain.Resolve
import CypherBlocks.Chain.Wiring
import CypherBlocks.CommandLine.Flag
import CypherBlocks.CommandLine.Parse
import CypherBlocks.CommandLine.Session
import CypherBlocks.Compile
import CypherBlocks.Config.Convert
import CypherBlocks.Config.Cursor
import CypherBlocks.Config.Eval
import CypherBlocks.Config.Expr
import CypherBlocks.Config.Json.Node
import CypherBlocks.Config.Json.Token
import CypherBlocks.Config.Lexer
import CypherBlocks.Config.Parser.Body
import CypherBlocks.Config.Parser.Expression
import CypherBlocks.Config.Problem
import CypherBlocks.Config.Source
import CypherBlocks.Config.Template
import CypherBlocks.Config.Token
import CypherBlocks.Config.Unify
import CypherBlocks.Config.Value
import CypherBlocks.Cypher.Clause
import CypherBlocks.Cypher.Condition
import CypherBlocks.Cypher.Literal
import CypherBlocks.Cypher.Names
import CypherBlocks.Diagnosis
import CypherBlocks.Document.Decode
import CypherBlocks.Document.Load
import CypherBlocks.Document.Read
import CypherBlocks.Document.Write
import CypherBlocks.Emit
import CypherBlocks.Files.Find
import CypherBlocks.Files.Path
import CypherBlocks.Files.Tree
import CypherBlocks.Graph.Basic
import CypherBlocks.Graph.Kind
import CypherBlocks.Graph.Params
import CypherBlocks.Log.Record
import CypherBlocks.Log.Write
import CypherBlocks.Main
import CypherBlocks.Number.Binary
import CypherBlocks.Number.Decimal
import CypherBlocks.Number.Double
import CypherBlocks.Preview.Options
import CypherBlocks.Preview.Refusal
import CypherBlocks.Text.Blank
import CypherBlocks.Text.Cluster
import CypherBlocks.Text.ClusterClass
import CypherBlocks.Text.Decomposition
import CypherBlocks.Text.Identifier
import CypherBlocks.Text.JsonText
import CypherBlocks.Text.LowerCase
import CypherBlocks.Text.Normal
import CypherBlocks.Text.Printable
import CypherBlocks.Text.Quoted
import CypherBlocks.Text.Ranges
import CypherBlocks.Text.Utf8
import CypherBlocks.Time.Duration
import CypherBlocks.Web.Url
import CypherBlocks.Proofs.Acceptance
import CypherBlocks.Proofs.Emission
import CypherBlocks.Proofs.Digits
import CypherBlocks.Proofs.Texts
import CypherBlocks.Proofs.QueryReader
import CypherBlocks.Proofs.QuerySegments
import CypherBlocks.Proofs.QueryText
import CypherBlocks.Proofs.Scope
import CypherBlocks.Proofs.ConfigTokens
import CypherBlocks.Proofs.QuotedText
import CypherBlocks.Proofs.ConfigValues
import CypherBlocks.Proofs.ConfigSections
import CypherBlocks.Proofs.NumberText
import CypherBlocks.Proofs.GraphText
import CypherBlocks.Proofs.RoundTrip
import CypherBlocks.Proofs.Rounding
import CypherBlocks.Proofs.NearestDouble
import CypherBlocks.Proofs.DecimalValue
import CypherBlocks.Proofs.ShortestText
import CypherBlocks.Proofs.Separation
import CypherBlocks.Proofs.ReadBack
import CypherBlocks.Proofs.Wirings
import CypherBlocks.Proofs.Walk
import CypherBlocks.Proofs.Redrawing
import CypherBlocks.Proofs.Projection
import CypherBlocks.Proofs.NormalForm
import CypherBlocks.Proofs.NormalValues
import CypherBlocks.Proofs.Readable
import CypherBlocks.Proofs.WrittenTexts
import CypherBlocks.Proofs.InfiniteText
import CypherBlocks.Proofs.Reload
import CypherBlocks.Proofs.Reports
import CypherBlocks.Proofs.Comments
import CypherBlocks.Proofs.ScopeReader
import CypherBlocks.Proofs.ScopedClauses
import CypherBlocks.Proofs.ScopedText
import CypherBlocks.Proofs.Runs
import CypherBlocks.Proofs.Loading
import CypherBlocks.Proofs.Counting
import CypherBlocks.Proofs.PathPatterns
import CypherBlocks.Proofs.ByteTerms
import CypherBlocks.Proofs.FilterConditions
import CypherBlocks.Proofs.ByteOrder
import CypherBlocks.Proofs.Conversions
import CypherBlocks.Proofs.NumberReading
import CypherBlocks.Proofs.ArgumentNames
import CypherBlocks.Proofs.Bodies
import CypherBlocks.Proofs.Paths
import CypherBlocks.Proofs.Discovery
import CypherBlocks.Proofs.Merging
import CypherBlocks.Proofs.NullArguments
import CypherBlocks.Proofs.OutputLines
import CypherBlocks.Proofs.FreshNames
import CypherBlocks.Proofs.Literals
import CypherBlocks.Proofs.CommandLines
