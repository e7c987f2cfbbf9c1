import Rulebook.Binary64.Basic
import Rulebook.Binary64.Rounding
import Rulebook.Binary64.Scaled
import Rulebook.Binary64.Shortest
import Rulebook.Binary64.Text
import Rulebook.Cache
import Rulebook.Comparator
import Rulebook.Condition.Basic
import Rulebook.Condition.Reader
import Rulebook.Config.Basic
import Rulebook.Config.Json
import Rulebook.Connective
import Rulebook.Decimal.Leading
import Rulebook.Decimal.Numeral
import Rulebook.Decimal.Numeral.Lemmas
import Rulebook.Decimal.Positional
import Rulebook.Defaults
import Rulebook.Engine
import Rulebook.Error
import Rulebook.Evaluate
import Rulebook.Json.Basic
import Rulebook.Json.Lexer
import Rulebook.Json.Number
import Rulebook.Json.Reader
import Rulebook.Json.RoundTrip
import Rulebook.Json.Writer
import Rulebook.Record.Basic
import Rulebook.Record.Json
import Rulebook.Rule.Group
import Rulebook.Rule.Parse
import Rulebook.Rule.Scan
import Rulebook.Rule.Split
import Rulebook.Scalar
import Rulebook.Shared
import Rulebook.Stored.Basic
import Rulebook.Stored.Json
import Rulebook.Text.Blank
import Rulebook.Text.Mark
import Rulebook.Text.Printable
import Rulebook.Text.Quoted
import Rulebook.Text.Ranges
import Rulebook.Text.Word
import Rulebook.Tree.Basic
import Rulebook.Tree.Combine
import Rulebook.Proofs.Balance
import Rulebook.Proofs.Keyword
import Rulebook.Proofs.ConditionText
import Rulebook.Proofs.Grammar.Basic
import Rulebook.Proofs.Grammar.Parsing
import Rulebook.Proofs.Combine
import Rulebook.Proofs.JoinedRules
import Rulebook.Proofs.Cache
import Rulebook.Proofs.CacheTransparency
import Rulebook.Proofs.JsonTokens
import Rulebook.Proofs.StoredRoundTrip
import Rulebook.Proofs.DepthLimit
import Rulebook.Proofs.CacheHistory
import Rulebook.Proofs.CombinedEvaluation
import Rulebook.Proofs.EngineDepth
import Rulebook.Proofs.ByteOrder
import Rulebook.Proofs.EngineFailure
import Rulebook.Proofs.Registry
import Rulebook.Proofs.Snapshot
import Rulebook.Proofs.KeywordCondition
import Rulebook.Proofs.StoredValidation
import Rulebook.Proofs.StoredReaders
import Rulebook.Proofs.ConditionGrammar
import Rulebook.Proofs.EntryPoints
import Rulebook.Proofs.ShortCircuit
import Rulebook.Proofs.Duality
import Rulebook.Proofs.BareWord
import Rulebook.Proofs.ExactScaling
import Rulebook.Proofs.JsonNumbers
import Rulebook.Proofs.NumberSpelling
import Rulebook.Proofs.OwnFields
import Rulebook.Proofs.OuterGroups
import Rulebook.Proofs.SplitPlace
import Rulebook.Proofs.TextSize
import Rulebook.Proofs.Spacing.Basic
import Rulebook.Proofs.Spacing.Parsing
import Rulebook.Proofs.ConfigText
import Rulebook.Proofs.EnclosingPairs
import Rulebook.Proofs.Bytes.Parser
import Rulebook.Proofs.Bytes.Groups
import Rulebook.Proofs.Bytes.Splits
import Rulebook.Proofs.Bytes.Parsing
