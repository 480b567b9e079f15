import StrictEquality.Text.Blank
import StrictEquality.Text.Quoted
import StrictEquality.Text.Lines
import StrictEquality.Text.Glob
import StrictEquality.Number.Decimal
import StrictEquality.Value.Display
import StrictEquality.Decision
import StrictEquality.Suppression
import StrictEquality.LooseComparison
import StrictEquality.FileTree
import StrictEquality.AbsolutePath
import StrictEquality.Analysis
import StrictEquality.Yaml.Character
import StrictEquality.Yaml.Cursor
import StrictEquality.Yaml.Token
import StrictEquality.Yaml.Scalar.Quoted
import StrictEquality.Yaml.Scalar.Plain
import StrictEquality.Yaml.Scalar.Block
import StrictEquality.Yaml.Token.Property
import StrictEquality.Yaml.Token.Lexer
import StrictEquality.Yaml.Tag
import StrictEquality.Yaml.Scalar.Number
import StrictEquality.Yaml.Node
import StrictEquality.Yaml.Node.Reader
import StrictEquality.Yaml.Document
import StrictEquality.Value.Order
import StrictEquality.Yaml.Style
import StrictEquality.Yaml.Library
import StrictEquality.Yaml.Render
import StrictEquality.Config.Load
import StrictEquality.Config.Save
import StrictEquality.Config.Search
import StrictEquality.Proofs.KindOrder
import StrictEquality.Proofs.UnionWalk
import StrictEquality.Proofs.LatticeVerdict
import StrictEquality.Proofs.VerdictInvariance
import StrictEquality.Proofs.PlainAnalysis
import StrictEquality.Proofs.PolicyRegistry
import StrictEquality.Proofs.ConfigValidity
import StrictEquality.Proofs.EditSelection
import StrictEquality.Proofs.PolicyChoice
import StrictEquality.Proofs.RewrittenEdits
import StrictEquality.Proofs.JoinedText
import StrictEquality.Proofs.RuleRegistry
import StrictEquality.Proofs.LoadFaults
import StrictEquality.Proofs.SettingEntries
import StrictEquality.Proofs.SuppressionLocality
import StrictEquality.Proofs.MatchesInTurn
import StrictEquality.Proofs.CommentGrammar
import StrictEquality.Proofs.CommentAgreement
import StrictEquality.Proofs.UnionTrust
import StrictEquality.Proofs.ConfigUse
import StrictEquality.Proofs.Diagnostics
import StrictEquality.Proofs.SubsumedMember
import StrictEquality.Proofs.RuleDiscovery
import StrictEquality.Proofs.RuleSelection
import StrictEquality.Proofs.CommentRoundTrip
import StrictEquality.Proofs.ByteOffsets
import StrictEquality.Proofs.TableInclusion
import StrictEquality.Proofs.CommentComplaints
import StrictEquality.Proofs.MappingKeys
import StrictEquality.Proofs.DocumentKeys
import StrictEquality.Proofs.FilledDefaults
import StrictEquality.Proofs.FileTrees
import StrictEquality.Proofs.SavedConfig
import StrictEquality.Proofs.MergePrecedence
import StrictEquality.Proofs.UnknownKeys
import StrictEquality.Proofs.SettingReadings
import StrictEquality.Proofs.RefusedImports
import StrictEquality.Proofs.DominantMember
import StrictEquality.Proofs.AbsolutePaths
import StrictEquality.Proofs.NearestConfig
