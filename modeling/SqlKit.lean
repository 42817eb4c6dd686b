import SqlKit.Main
import SqlKit.Syntax.View
import SqlKit.Validation.Ruleset
import SqlKit.Proofs.Batch.Accounting
import SqlKit.Proofs.Batch.ErrorPlaces
import SqlKit.Proofs.Batch.Joining
import SqlKit.Proofs.Batch.Respelling
import SqlKit.Proofs.Batch.LetterCase
import SqlKit.Proofs.Batch.Unbounded
import SqlKit.Proofs.Batch.Parameters
import SqlKit.Proofs.Batch.Completion
import SqlKit.Proofs.Rendering.After
import SqlKit.Proofs.Rendering.Names
import SqlKit.Proofs.Rendering.Lexing
import SqlKit.Proofs.Rendering.Source
import SqlKit.Proofs.Rendering.Bare
import SqlKit.Proofs.Rendering.Body
import SqlKit.Proofs.Rendering.RoundTrip
import SqlKit.Proofs.Rendering.KeptExpressions
import SqlKit.Proofs.Rendering.KeptTokens
import SqlKit.Proofs.Batch.Declarations
import SqlKit.Proofs.Rendering.Gaps
import SqlKit.Proofs.Rendering.Placeholders
import SqlKit.Proofs.Rendering.Survival
import SqlKit.Proofs.Query.Names
import SqlKit.Proofs.Schema.Marks
import SqlKit.Proofs.Schema.Runs
import SqlKit.Proofs.Schema.PrimaryKey
import SqlKit.Proofs.Schema.UniqueKeys
import SqlKit.Proofs.Schema.TableNames
import SqlKit.Proofs.Schema.KeyColumns
import SqlKit.Proofs.Schema.References
import SqlKit.Proofs.Schema.LetterCase
import SqlKit.Proofs.Batch.Shape
import SqlKit.Proofs.Number.Rounding
import SqlKit.Proofs.Number.Shortest
import SqlKit.Proofs.Rendering.Numerals
import SqlKit.Proofs.Syntax.Placeless
import SqlKit.Proofs.Rendering.Alone
import SqlKit.Proofs.Rendering.Constants
import SqlKit.Proofs.Batch.Constants
import SqlKit.Proofs.Rendering.Results
import SqlKit.Proofs.Tables.Form
import SqlKit.Proofs.Tables.Columns
import SqlKit.Proofs.Tables.Constraints
import SqlKit.Proofs.Tables.Create
import SqlKit.Proofs.Schema.Independence
import SqlKit.Proofs.Query.Rows
import SqlKit.Proofs.Query.Leaves
import SqlKit.Proofs.Query.Conditions
import SqlKit.Proofs.Query.Parsing
import SqlKit.Proofs.Validation.Ruleset
import SqlKit.Proofs.Validation.Uniqueness
import SqlKit.Proofs.Validation.Format
import SqlKit.Proofs.Token.Lookahead
import SqlKit.Proofs.Batch.Retention
import SqlKit.Proofs.Batch.Numbering
import SqlKit.Proofs.Batch.Spans
import SqlKit.Proofs.Schema.Nullability
import SqlKit.Proofs.Schema.DistinctKeys
import SqlKit.Proofs.Query.Grouping
import SqlKit.Proofs.Rendering.Quotes
import SqlKit.Proofs.Token.LongestNumeral
import SqlKit.Proofs.Batch.Signs
import SqlKit.Proofs.Schema.Renaming
import SqlKit.Proofs.Validation.FailsClosed
import SqlKit.Proofs.Text.Spellings
import SqlKit.Proofs.Data.RepeatedNames
import SqlKit.Proofs.Validation.Multimap
import SqlKit.Proofs.Validation.TestedColumns
import SqlKit.Proofs.Syntax.Sources
import SqlKit.Proofs.Syntax.Preorder
import SqlKit.Proofs.Batch.CoveringSpans
