import Seekwel.SortedMap
import Seekwel.Text
import Seekwel.SortBy
import Seekwel.Runs
import Seekwel.Locks
import Seekwel.Savepoint
import Seekwel.Error
import Seekwel.Types
import Seekwel.Desired
import Seekwel.Catalog
import Seekwel.Introspect
import Seekwel.Plan
import Seekwel.Diff
import Seekwel.DiffSpec
import Seekwel.PlanShape
import Seekwel.Render
import Seekwel.Statement
import Seekwel.History
import Seekwel.Apply
import Seekwel.Execution
import Seekwel.Convergence
import Seekwel.HistoryRoundTrip
import Seekwel.ManagedScope
import Seekwel.Drift
import Seekwel.Atomicity
import Seekwel.DataLoss
import Seekwel.InlineFeatures
import Seekwel.Namespace
import Seekwel.Lifetimes
import Seekwel.Executable
import Seekwel.Conformance
import Seekwel.Transaction
import Seekwel.NestedTransaction
import Seekwel.AutomaticRollback
import Seekwel.ConnectionManager
import Seekwel.LockProtocol
import Seekwel.SqlLexer
import Seekwel.SqlCondition
import Seekwel.SqlParens
import Seekwel.SqlTable
import Seekwel.SqlNames
import Seekwel.SqlNumeral
import Seekwel.SqlStatement
import Seekwel.SqlDefinition
import Seekwel.SqlKeywords
import Seekwel.RuleLoss
import Seekwel.QueryExpression
import Seekwel.QueryMeaning
import Seekwel.SqlLimit
import Seekwel.ModelSql
import Seekwel.Integers
import Seekwel.FieldTypes
import Seekwel.SqlStore
import Seekwel.ModelSpec
import Seekwel.DefaultValues
import Seekwel.SameObjects
import Seekwel.DdlRoundTrip
import Seekwel.Records
import Seekwel.PlainNames
import Seekwel.RoundTrip
import Seekwel.FailedCreate
import Seekwel.QueryDsl
import Seekwel.FetchStrategies
import Seekwel.CountQueries
import Seekwel.HasManyQuery
import Seekwel.HasManyCache
import Seekwel.RolledBackCache
import Seekwel.ParamValue
import Seekwel.FormEntries
import Seekwel.AllowedParams
import Seekwel.IntegerComparisons
import Seekwel.SqlSelection
import Seekwel.CreateOrUpdate
import Seekwel.BuiltInFields
import Seekwel.SavedAgain
import Seekwel.Idempotence
import Seekwel.QueryLog
import Seekwel.FieldCodecs
import Seekwel.AccountedIndexes
import Seekwel.IndexNames
import Seekwel.ParamKeys
import Seekwel.Normalization
import Seekwel.Json
import Seekwel.PlanJson
import Seekwel.PlanReview
import Seekwel.SqlTokenText
import Seekwel.DoubledMarks
import Seekwel.DependencyDetection
import Seekwel.KeyedStore
import Seekwel.RecordRuns
import Seekwel.RecordSessions
import Seekwel.OptionLists
import Seekwel.Attributes
import Seekwel.Derive
import Seekwel.DeclaredModels
import Seekwel.FormFields
import Seekwel.FormParams
import Seekwel.SqlQueries
import Seekwel.RecordQueries
import Seekwel.GrowingReads
import Seekwel.GrowingTables
import Seekwel.BoundValues
import Seekwel.AppliedSchema
import Seekwel.MigrationRuns
import Seekwel.SafeRuns
import Seekwel.MigratedModels
