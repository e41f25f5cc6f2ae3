import CodeAudit.Main
import CodeAudit.Proofs.DisabledRules
import CodeAudit.Proofs.ScanSteps
import CodeAudit.Proofs.Workers
import CodeAudit.Proofs.Settled
import CodeAudit.Proofs.Progress
import CodeAudit.Proofs.Composition
import CodeAudit.Proofs.PrunedWalk
import CodeAudit.Proofs.OverlappingRoots
import CodeAudit.Proofs.TreeNodes
import CodeAudit.Proofs.CataloguedIssues
import CodeAudit.Proofs.RequestedCategories
import CodeAudit.Proofs.StoredScans
import CodeAudit.Proofs.JobCalls
import CodeAudit.Proofs.UnreadableFiles
import CodeAudit.Proofs.EventCounts
import CodeAudit.Proofs.ProgressCounts
import CodeAudit.Proofs.EncodedText
import CodeAudit.Proofs.QuotedStrings
import CodeAudit.Proofs.CommentStarts
import CodeAudit.Proofs.LexedComments
import CodeAudit.Proofs.HiddenCode
import CodeAudit.Proofs.TemplateComments
import CodeAudit.Proofs.PatternMatches
import CodeAudit.Proofs.DirectiveTokens
import CodeAudit.Proofs.PairedDirectives
import CodeAudit.Proofs.PostedForms
import CodeAudit.Proofs.EnclosingClasses
import CodeAudit.Proofs.LoopBodies
import CodeAudit.Proofs.SeparateForms
import CodeAudit.Proofs.FunctionDecisions
import CodeAudit.Proofs.FileGroups
import CodeAudit.Proofs.SummaryTotals
import CodeAudit.Proofs.PiecewiseScores
import CodeAudit.Proofs.WeightedCounts
import CodeAudit.Proofs.FailThresholds
import CodeAudit.Proofs.ReportedFiles
import CodeAudit.Proofs.RelaxedFilters
import CodeAudit.Proofs.TemplateNames
import CodeAudit.Proofs.TextLines
import CodeAudit.Proofs.MatchPlaces
import CodeAudit.Proofs.TrailingComments
import CodeAudit.Proofs.LineEndings
import CodeAudit.Proofs.LinkJumps
import CodeAudit.Proofs.FirstStatements
import CodeAudit.Proofs.CatchBlocks
import CodeAudit.Proofs.LetterVariables
import CodeAudit.Proofs.UnusedLocals
import CodeAudit.Proofs.FirstErrors
import CodeAudit.Proofs.ContextWindows
import CodeAudit.Proofs.ProgressBands
import CodeAudit.Proofs.NestingRuns
