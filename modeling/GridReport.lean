import GridReport.Chart.Write
import GridReport.Command.Outcome
import GridReport.Command.Reach
import GridReport.Connection
import GridReport.Curves
import GridReport.Files.Content
import GridReport.Histogram
import GridReport.Main
import GridReport.Moment
import GridReport.Overlap
import GridReport.Parameter
import GridReport.Proofs.AcceptedTexts
import GridReport.Proofs.Alignment
import GridReport.Proofs.BinPositions
import GridReport.Proofs.Binding
import GridReport.Proofs.ConfigUpdate
import GridReport.Proofs.DoubleHistograms
import GridReport.Proofs.EntryOrder
import GridReport.Proofs.EventOrder
import GridReport.Proofs.ExactHistograms
import GridReport.Proofs.GivenValues
import GridReport.Proofs.Grid
import GridReport.Proofs.Groups
import GridReport.Proofs.KeptExpressions
import GridReport.Proofs.LexerFronts
import GridReport.Proofs.Limits
import GridReport.Proofs.NamedPlaceholders
import GridReport.Proofs.ReadOnlyRuns
import GridReport.Proofs.RepeatedMerge
import GridReport.Proofs.ReplicaCounts
import GridReport.Proofs.RunEffects
import GridReport.Proofs.RunningTotals
import GridReport.Proofs.SharedAxis
import GridReport.Proofs.SkuIndex
import GridReport.Proofs.Staircase
import GridReport.Proofs.StaircaseCorners
import GridReport.Proofs.SummaryDocuments
import GridReport.Proofs.Sweep
import GridReport.Proofs.Tallies
import GridReport.Proofs.TimeTexts
import GridReport.Proofs.TransferCounts
import GridReport.Proofs.TrimmedTexts
import GridReport.Proofs.TypedRows
import GridReport.Replicas
import GridReport.Series.Align
import GridReport.Session
import GridReport.Sku.Update
import GridReport.Sql.Catalog
import GridReport.Summary.Document
import GridReport.Summary.Text
import GridReport.Transfers
