import StylesheetMinifier.Change
import StylesheetMinifier.CommandLine
import StylesheetMinifier.Listing
import StylesheetMinifier.Main
import StylesheetMinifier.Proofs.Absorption
import StylesheetMinifier.Proofs.Compacting
import StylesheetMinifier.Proofs.NameText
import StylesheetMinifier.Proofs.NormalForm
import StylesheetMinifier.Proofs.Rewriting
import StylesheetMinifier.Proofs.Substitution
import StylesheetMinifier.TreeFiles
import StylesheetMinifier.Proofs.DirectoryOrder
import StylesheetMinifier.Proofs.Following
import StylesheetMinifier.Proofs.Encodable
import StylesheetMinifier.Proofs.Products
import StylesheetMinifier.Proofs.AlikeTrees
import StylesheetMinifier.Proofs.WalkSources
import StylesheetMinifier.Proofs.Deliveries
import StylesheetMinifier.Proofs.FileEffect
import StylesheetMinifier.Proofs.RunEvents
import StylesheetMinifier.Proofs.RunEffect
import StylesheetMinifier.Proofs.Concatenation
import StylesheetMinifier.Proofs.JsonReading
import StylesheetMinifier.Proofs.JsonWriting
import StylesheetMinifier.Proofs.MapReading
import StylesheetMinifier.Proofs.Arrivals
import StylesheetMinifier.Proofs.Utf8RoundTrip
import StylesheetMinifier.Proofs.Writes
import StylesheetMinifier.Proofs.MapContent
import StylesheetMinifier.Proofs.RunAccount
import StylesheetMinifier.Proofs.OrderlyWalk
import StylesheetMinifier.Proofs.RunCoverage
import StylesheetMinifier.Proofs.AscendingWalk
import StylesheetMinifier.Proofs.WalkExactness
import StylesheetMinifier.Proofs.RunStates
import StylesheetMinifier.Proofs.FailFast
import StylesheetMinifier.Proofs.RunFrame
import StylesheetMinifier.Proofs.GuardedWalk
import StylesheetMinifier.Proofs.CollectedRun
import StylesheetMinifier.Proofs.CommandReport
import StylesheetMinifier.Proofs.ReadingCount
import StylesheetMinifier.Proofs.LenientReading
import StylesheetMinifier.Proofs.OwnFiles
import StylesheetMinifier.Proofs.FileStages
import StylesheetMinifier.Proofs.ReadingBack
import StylesheetMinifier.Proofs.WellFormedTrees
import StylesheetMinifier.Proofs.LineLayout
import StylesheetMinifier.Proofs.OutputNames
import StylesheetMinifier.Proofs.OrderIndependence
import StylesheetMinifier.Proofs.StepwiseWalk
import StylesheetMinifier.Proofs.LineNumbers
import StylesheetMinifier.Proofs.RootCheck
