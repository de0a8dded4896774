import ContextPack.Decimal.Shortest
import ContextPack.Decimal.Fixed
import ContextPack.Number.Scalar
import ContextPack.Text.Blank
import ContextPack.Text.Tokens
import ContextPack.Text.Decoding
import ContextPack.Digest.FragmentId
import ContextPack.Path.Noise
import ContextPack.Data.JsonText
import ContextPack.Data.Toml.Document
import ContextPack.Data.Yaml.Node
import ContextPack.Settings.Validate
import ContextPack.Settings.Record
import ContextPack.Data.Model
import ContextPack.Symbols.Language
import ContextPack.Graph.Distance
import ContextPack.Graph.Rank
import ContextPack.Graph.References
import ContextPack.Lexical.Edges
import ContextPack.Engine
import ContextPack.Pack.JsonOutput
import ContextPack.Pack.Markdown
import ContextPack.Settings.Load
import ContextPack.Syntax.Scan
import ContextPack.Symbols.Collect
import ContextPack.Symbols.Extract
import ContextPack.Files.Reading
import ContextPack.Files.Scan
import ContextPack.Repository.WorkingCopy
import ContextPack.CommandLine.Run
import ContextPack.Main
import ContextPack.Difference.Hunks
import ContextPack.Proofs.Number.Exact
import ContextPack.Proofs.Text.Order
import ContextPack.Proofs.Pack.Level
import ContextPack.Proofs.Pack.Seeds
import ContextPack.Proofs.Pack.Assembly
import ContextPack.Proofs.Pack.Budget
import ContextPack.Proofs.Graph.Store
import ContextPack.Proofs.Data.Tally
import ContextPack.Proofs.Data.Sorting
import ContextPack.Proofs.Pack.Precedence
import ContextPack.Proofs.Pack.Selection
import ContextPack.Proofs.Pack.Arrangement
import ContextPack.Proofs.Number.Real
import ContextPack.Proofs.Number.Nearest
import ContextPack.Proofs.Number.Digits
import ContextPack.Proofs.Number.Magnitude
import ContextPack.Proofs.Number.Operations
import ContextPack.Proofs.Number.Monotone
import ContextPack.Proofs.Lexical.Postings
import ContextPack.Proofs.Lexical.Cosine
import ContextPack.Proofs.Lexical.Weights
import ContextPack.Proofs.Lexical.Matches
import ContextPack.Proofs.Lexical.Links
import ContextPack.Proofs.Graph.Imports
import ContextPack.Proofs.Graph.References
import ContextPack.Proofs.Graph.Adjacency
import ContextPack.Proofs.Graph.Hops
import ContextPack.Proofs.Graph.Walk
import ContextPack.Proofs.Pack.Signals
import ContextPack.Proofs.Settings.Validate
import ContextPack.Proofs.Pack.Relevance
import ContextPack.Proofs.Graph.Runs
import ContextPack.Proofs.Graph.Mass
import ContextPack.Proofs.Graph.Convergence
import ContextPack.Proofs.Number.Zero
import ContextPack.Proofs.Number.Finite
import ContextPack.Proofs.Number.Rounded
import ContextPack.Proofs.Graph.Isolated
import ContextPack.Proofs.Graph.Overflow
import ContextPack.Proofs.Graph.Extension
import ContextPack.Proofs.Graph.Siblings
import ContextPack.Proofs.Graph.Support
import ContextPack.Proofs.Cochange.Counts
import ContextPack.Proofs.Repository.History
import ContextPack.Proofs.Data.JsonString
import ContextPack.Proofs.Data.JsonNumber
import ContextPack.Proofs.Data.JsonValue
import ContextPack.Proofs.Decimal.Shortest
import ContextPack.Proofs.Decimal.Layout
import ContextPack.Proofs.Pack.JsonOutput
import ContextPack.Proofs.Graph.ShortestPaths
import ContextPack.Proofs.Pack.FairShares
import ContextPack.Proofs.Text.LongestFit
import ContextPack.Proofs.Pack.Evidence
import ContextPack.Proofs.Lexical.WordRuns
import ContextPack.Proofs.Pack.Disclosure
import ContextPack.Proofs.Lexical.Holders
import ContextPack.Proofs.Lexical.Tables
import ContextPack.Proofs.Lexical.Filling
import ContextPack.Proofs.Lexical.Hubs
import ContextPack.Proofs.Cochange.Edges
import ContextPack.Proofs.Text.Utf8
import ContextPack.Proofs.Text.Utf16
import ContextPack.Proofs.Text.Decoding
import ContextPack.Proofs.Text.Pieces
import ContextPack.Proofs.Revision.Range
import ContextPack.Proofs.Revision.Spelling
import ContextPack.Proofs.Path.Joining
import ContextPack.Proofs.Path.Noise
import ContextPack.Proofs.Graph.SearchOrder
import ContextPack.Proofs.Graph.Shadowing
import ContextPack.Proofs.Pack.Markdown
import ContextPack.Proofs.Number.Comparison
import ContextPack.Proofs.Settings.Ranges
import ContextPack.Proofs.Pack.Words
import ContextPack.Proofs.Symbols.Visiting
import ContextPack.Proofs.Symbols.Filing
import ContextPack.Proofs.Files.Listing
import ContextPack.Proofs.Sibling
import ContextPack.Proofs.Data.Overlay
import ContextPack.Proofs.Settings.Values
import ContextPack.Proofs.Settings.Keys
import ContextPack.Proofs.Settings.Overriding
import ContextPack.Proofs.Settings.Environment
