import TextColumns.Unicode.Letters
import TextColumns.Unicode.Numerals
import TextColumns.Program.Listing
import TextColumns.Regex.Basic
import TextColumns.Search.Walk
import TextColumns.Text.Position
import TextColumns.Store.Select
import TextColumns.Regex.Matcher
import TextColumns.Regex.Registry
import TextColumns.Regex.Clients
import TextColumns.Number.Decimal
import TextColumns.Number.Shortest
import TextColumns.Transform.Case
import TextColumns.Transform.Pad
import TextColumns.Transform.Replace
import TextColumns.Transform.Join
import TextColumns.Pieces.Split
import TextColumns.Measure.Occurrence
import TextColumns.Order
import TextColumns.Matching.Replacement
import TextColumns.Category.Keys
import TextColumns.Workspace
import TextColumns.Proofs.Search.Explore
import TextColumns.Proofs.Program.Check
import TextColumns.Proofs.Search.Closure
import TextColumns.Proofs.Search.Lockstep
import TextColumns.Proofs.Pattern.Fragment
import TextColumns.Proofs.Search.Acceptance
import TextColumns.Proofs.Pattern.Language
import TextColumns.Proofs.Search.Backtracking
import TextColumns.Proofs.Pattern.Preference
import TextColumns.Proofs.Regex.Captures
import TextColumns.Proofs.Pieces.Split
import TextColumns.Proofs.PrefixSum
import TextColumns.Proofs.Store.Valid
import TextColumns.Proofs.Transform.Trim
import TextColumns.Proofs.Store.Build
import TextColumns.Proofs.Store.Parts
import TextColumns.Proofs.Store.Tables
import TextColumns.Proofs.Pieces.ListColumn
import TextColumns.Proofs.Regex.Slots
import TextColumns.Proofs.Matching.Rows
import TextColumns.Proofs.Store.Reachable
import TextColumns.Proofs.Text.Order
import TextColumns.Proofs.Store.Contents
import TextColumns.Proofs.Order
import TextColumns.Proofs.Scatter.Workers
import TextColumns.Proofs.Category.Encoding
import TextColumns.Proofs.Category.Search
import TextColumns.Proofs.Category.Keys
import TextColumns.Proofs.Category.Edits
import TextColumns.Proofs.Pattern.Instructions
import TextColumns.Proofs.Regex.Order
import TextColumns.Proofs.Pieces.Order
import TextColumns.Proofs.Store.Layout
import TextColumns.Proofs.Store.Cuts
import TextColumns.Proofs.Search.Regions
import TextColumns.Proofs.Search.Loops
import TextColumns.Proofs.Pattern.EmptyMatch
import TextColumns.Proofs.Pattern.Enclosed
import TextColumns.Proofs.Regex.Loops
import TextColumns.Proofs.Regex.Matches
import TextColumns.Proofs.Matching.Reuse
import TextColumns.Proofs.Regex.WholeMatch
import TextColumns.Proofs.Text.Position
import TextColumns.Proofs.Store.Shared
import TextColumns.Proofs.Pieces.Rows
import TextColumns.Proofs.Matching.Joined
import TextColumns.Proofs.Matching.Columns
import TextColumns.Proofs.Matching.Agreement
import TextColumns.Proofs.Pattern.Literal
import TextColumns.Proofs.Regex.Literal
import TextColumns.Proofs.Matching.Literal
import TextColumns.Proofs.Search.Guarded
import TextColumns.Proofs.Regex.Clients
import TextColumns.Proofs.Regex.Registry
import TextColumns.Proofs.Regex.Ledger
import TextColumns.Proofs.Bisect
import TextColumns.Proofs.Store.Locate
import TextColumns.Proofs.Store.Limits
import TextColumns.Proofs.Store.Reading
import TextColumns.Proofs.Sorting
import TextColumns.Proofs.Category.Canonical
import TextColumns.Proofs.Category.Restore
import TextColumns.Proofs.Store.Fills
import TextColumns.Proofs.Pattern.Nesting
import TextColumns.Proofs.Regex.Groups
import TextColumns.Proofs.Matching.Template
import TextColumns.Proofs.Transform.Case
import TextColumns.Proofs.Transform.Pad
import TextColumns.Proofs.Transform.Replace
import TextColumns.Proofs.Transform.Join
import TextColumns.Proofs.Transform.Rewrite
import TextColumns.Proofs.Search.Leftmost
import TextColumns.Proofs.Regex.Enclosure
import TextColumns.Proofs.Regex.Succession
import TextColumns.Proofs.Marks
import TextColumns.Proofs.Operation
import TextColumns.Proofs.Pattern.Canonical
import TextColumns.Proofs.Pattern.RoundTrip
import TextColumns.Proofs.Pattern.Emission
import TextColumns.Proofs.Pattern.Boundaries
import TextColumns.Proofs.Pieces.Separators
import TextColumns.Proofs.Program.CharClass
import TextColumns.Proofs.Pattern.Classes
import TextColumns.Proofs.Transform.Width
import TextColumns.Proofs.Regex.OneChar
import TextColumns.Proofs.Pieces.Words
import TextColumns.Proofs.Transform.Substitution
import TextColumns.Proofs.Matching.Expansion
import TextColumns.Proofs.Store.Request
import TextColumns.Proofs.Store.Workers
import TextColumns.Proofs.PrefixSum.Blocks
import TextColumns.Proofs.Text.Scalars
import TextColumns.Proofs.Collation
import TextColumns.Proofs.Text.Substring
import TextColumns.Proofs.Text.Search
import TextColumns.Proofs.Pieces.Search
import TextColumns.Proofs.Pieces.Arrangement
import TextColumns.Proofs.Regex.IgnoreCase
import TextColumns.Proofs.Measure.Integers
import TextColumns.Proofs.Search.Entries
