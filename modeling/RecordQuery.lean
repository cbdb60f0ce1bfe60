import RecordQuery.Binary64
import RecordQuery.Binary64.Decimal
import RecordQuery.Column
import RecordQuery.Describe
import RecordQuery.DotPath
import RecordQuery.Entries
import RecordQuery.Fuzzy
import RecordQuery.Fuzzy.Settings
import RecordQuery.Fuzzy.Words
import RecordQuery.Grouping
import RecordQuery.Grouping.Levels
import RecordQuery.Predicate
import RecordQuery.Predicate.Condition
import RecordQuery.Predicate.Fuzzy
import RecordQuery.Proofs.Columns.Identity
import RecordQuery.Proofs.Columns.Outcome
import RecordQuery.Proofs.Conditions.Agreement
import RecordQuery.Proofs.Conditions.Deciding
import RecordQuery.Proofs.Conditions.Duality
import RecordQuery.Proofs.Conditions.Example
import RecordQuery.Proofs.Conditions.Fusion
import RecordQuery.Proofs.Conditions.Shapes
import RecordQuery.Proofs.Conditions.Verdict
import RecordQuery.Proofs.Fuzzy.Annotation
import RecordQuery.Proofs.Fuzzy.BestPair
import RecordQuery.Proofs.Fuzzy.Distribution
import RecordQuery.Proofs.Fuzzy.Extremes
import RecordQuery.Proofs.Fuzzy.FullScore
import RecordQuery.Proofs.Fuzzy.Loop
import RecordQuery.Proofs.Fuzzy.MinLength
import RecordQuery.Proofs.Fuzzy.Optimal
import RecordQuery.Proofs.Fuzzy.Pairing
import RecordQuery.Proofs.Fuzzy.Range
import RecordQuery.Proofs.Fuzzy.Rejoining
import RecordQuery.Proofs.Fuzzy.Rounded
import RecordQuery.Proofs.Fuzzy.Scan
import RecordQuery.Proofs.Fuzzy.Settings
import RecordQuery.Proofs.Fuzzy.Symmetry
import RecordQuery.Proofs.Fuzzy.Verbatim
import RecordQuery.Proofs.Fuzzy.Words
import RecordQuery.Proofs.Grouping.Classes
import RecordQuery.Proofs.Grouping.Frontier
import RecordQuery.Proofs.Grouping.JsonForm
import RecordQuery.Proofs.Grouping.Nested
import RecordQuery.Proofs.Grouping.Partition
import RecordQuery.Proofs.Grouping.Representatives
import RecordQuery.Proofs.Grouping.Selection
import RecordQuery.Proofs.Grouping.Updates
import RecordQuery.Proofs.Keyed.Duplicates
import RecordQuery.Proofs.Keyed.Foremost
import RecordQuery.Proofs.Keyed.Intersection
import RecordQuery.Proofs.Keyed.Lossless
import RecordQuery.Proofs.Numbers.Arithmetic
import RecordQuery.Proofs.Numbers.Equality
import RecordQuery.Proofs.Numbers.Interval
import RecordQuery.Proofs.Numbers.Order
import RecordQuery.Proofs.Numbers.ReadBack
import RecordQuery.Proofs.Numbers.Rounding
import RecordQuery.Proofs.Numbers.Spelling
import RecordQuery.Proofs.Path.Address
import RecordQuery.Proofs.Path.Notation
import RecordQuery.Proofs.Path.Sparse
import RecordQuery.Proofs.Path.Syntax
import RecordQuery.Proofs.Path.Walk
import RecordQuery.Proofs.Reading
import RecordQuery.Proofs.Sorting.Cascade
import RecordQuery.Proofs.Sorting.Contract
import RecordQuery.Proofs.Sorting.Elements
import RecordQuery.Proofs.Sorting.Filtered
import RecordQuery.Proofs.Sorting.Mirror
import RecordQuery.Proofs.Sorting.Preorder
import RecordQuery.Proofs.Sorting.Stable
import RecordQuery.Proofs.Text.Bytes
import RecordQuery.Proofs.Text.Lowercase
import RecordQuery.Proofs.Text.Settled
import RecordQuery.Proofs.Values.Equality
import RecordQuery.Proofs.Values.Fields
import RecordQuery.Proofs.Values.KeyText
import RecordQuery.Proofs.Values.Ordering
import RecordQuery.Proofs.Values.Structure
import RecordQuery.QueryError
import RecordQuery.Records
import RecordQuery.Records.Keyed
import RecordQuery.Records.Sort
import RecordQuery.Scale
import RecordQuery.Similarity
import RecordQuery.Text.CaseTable
import RecordQuery.Text.Lowercase
import RecordQuery.Text.Numeral
import RecordQuery.Text.Quoted
import RecordQuery.Text.Ranges
import RecordQuery.Text.Split
import RecordQuery.Text.VisibleTable
import RecordQuery.Value
import RecordQuery.Value.Compare
import RecordQuery.Value.Key
