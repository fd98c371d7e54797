import AccelProfile.Accelerator
import AccelProfile.CommandLine.Arguments
import AccelProfile.CommandLine.Replay
import AccelProfile.Config
import AccelProfile.CriticalPath
import AccelProfile.CycleWindow
import AccelProfile.Dataflow
import AccelProfile.Decimal.Reading
import AccelProfile.Decimal.Shortest
import AccelProfile.Decimal.Style
import AccelProfile.Dependency
import AccelProfile.DependencyGraph
import AccelProfile.DepthTable
import AccelProfile.Engine
import AccelProfile.Error
import AccelProfile.Event.Basic
import AccelProfile.Event.Codec
import AccelProfile.FileTree
import AccelProfile.FirstSeen
import AccelProfile.FunctionalUnit
import AccelProfile.Instruction
import AccelProfile.Json.Decoder
import AccelProfile.Json.Printer
import AccelProfile.Json.Scan
import AccelProfile.Json.Tagged
import AccelProfile.Json.Value
import AccelProfile.Main
import AccelProfile.Memory
import AccelProfile.Metric
import AccelProfile.OutputPath
import AccelProfile.Performance
import AccelProfile.Power
import AccelProfile.Proofs.DependencyOrder
import AccelProfile.Proofs.DocumentRows
import AccelProfile.Proofs.DoubleBits
import AccelProfile.Proofs.DoubleRounding
import AccelProfile.Proofs.EngineCalls
import AccelProfile.Proofs.EventStreams
import AccelProfile.Proofs.EventTexts
import AccelProfile.Proofs.FiniteEvents
import AccelProfile.Proofs.FiniteNumbers
import AccelProfile.Proofs.LaidTexts
import AccelProfile.Proofs.LargestDepth
import AccelProfile.Proofs.LongestChains
import AccelProfile.Proofs.MarkingRuns
import AccelProfile.Proofs.NearestDouble
import AccelProfile.Proofs.NumberTexts
import AccelProfile.Proofs.RecordFields
import AccelProfile.Proofs.RecordedWalks
import AccelProfile.Proofs.Recording
import AccelProfile.Proofs.ReportAgreement
import AccelProfile.Proofs.RowNames
import AccelProfile.Proofs.ShortestDecimal
import AccelProfile.Proofs.StrandedMembers
import AccelProfile.Proofs.StringTexts
import AccelProfile.Proofs.TableRecords
import AccelProfile.Proofs.TextBytes
import AccelProfile.Proofs.TraceLines
import AccelProfile.Proofs.TraceRoundTrip
import AccelProfile.Report.Digest
import AccelProfile.Report.Document
import AccelProfile.Report.Output
import AccelProfile.Report.Table
import AccelProfile.SortedTable
import AccelProfile.Stall
import AccelProfile.Summary.Basic
import AccelProfile.Summary.Rows
import AccelProfile.Text.Blank
import AccelProfile.Text.Printable
import AccelProfile.Text.Quoted
import AccelProfile.Text.Split
import AccelProfile.Trace
import AccelProfile.Words
import AccelProfile.Proofs.DepthOperations
import AccelProfile.Proofs.TraceReading
import AccelProfile.Proofs.AcceleratorCounts
import AccelProfile.Proofs.StoredFiles
import AccelProfile.Proofs.RunOutputs
import AccelProfile.Proofs.RepeatedAnalyses
import AccelProfile.Proofs.HistogramCounts
import AccelProfile.Proofs.RenamedGraphs
import AccelProfile.Proofs.RenamedRuns
import AccelProfile.Proofs.BusyUnits
import AccelProfile.Proofs.AcyclicGraphs
import AccelProfile.Proofs.LatestSamples
import AccelProfile.Proofs.PieceWeights
import AccelProfile.Proofs.StallStreaks
import AccelProfile.Proofs.TrafficPeaks
import AccelProfile.Proofs.FilledLevels
import AccelProfile.Proofs.TableReader
import AccelProfile.Proofs.PrettyTexts
import AccelProfile.Proofs.ConfigTexts
import AccelProfile.Proofs.CommandArguments
import AccelProfile.Proofs.CommandInputs
import AccelProfile.Proofs.CommandEffects
import AccelProfile.Proofs.RequestCounts
import AccelProfile.Proofs.LatestCommits
import AccelProfile.Proofs.EdgeStores
import AccelProfile.Proofs.SaturatedSums
import AccelProfile.Proofs.BusyCycles
import AccelProfile.Proofs.UnitRows
import AccelProfile.Proofs.ReadySamples
import AccelProfile.Proofs.ObjectOrder
import AccelProfile.Proofs.FlagLists
import AccelProfile.Proofs.LineEndings
import AccelProfile.Proofs.TableSuffix
import AccelProfile.Proofs.DocumentTexts
import AccelProfile.Proofs.SeenOrder
import AccelProfile.Proofs.LargestCounts
