import SheetGloss.Main
import SheetGloss.Zip.Writer
import SheetGloss.Proofs.MemoPass
import SheetGloss.Proofs.AddressText
import SheetGloss.Proofs.AddressGrammar
import SheetGloss.Proofs.SpanText
import SheetGloss.Proofs.CallSearch
import SheetGloss.Proofs.FormulaPieces
import SheetGloss.Proofs.Refilling
import SheetGloss.Proofs.FillDown
import SheetGloss.Proofs.FillAcross
import SheetGloss.Proofs.FilledPieces
import SheetGloss.Proofs.CallPlaces
import SheetGloss.Proofs.EscapedText
import SheetGloss.Proofs.MarkupText
import SheetGloss.Proofs.PackageText
import SheetGloss.Proofs.SheetRoundTrip
import SheetGloss.Proofs.SheetNames
import SheetGloss.Proofs.PackageRoundTrip
import SheetGloss.Proofs.CellOrder
import SheetGloss.Proofs.RichText
import SheetGloss.Proofs.JsonText
import SheetGloss.Proofs.EntryPoints
import SheetGloss.Proofs.SheetListing
import SheetGloss.Proofs.PartOrder
import SheetGloss.Proofs.SheetSelection
import SheetGloss.Proofs.MemoTally
import SheetGloss.Proofs.RepeatedHeaders
import SheetGloss.Proofs.SheetStore
import SheetGloss.Proofs.DataRows
import SheetGloss.Proofs.RecordText
import SheetGloss.Proofs.RecordSheet
import SheetGloss.Proofs.RecordFormulas
import SheetGloss.Proofs.FilledCalls
import SheetGloss.Proofs.FormulaCuts
import SheetGloss.Proofs.LongNames
import SheetGloss.Proofs.CellEscapes
import SheetGloss.Proofs.AddressRoundTrip
import SheetGloss.Proofs.SpanGloss
import SheetGloss.Proofs.HeaderLabels
import SheetGloss.Proofs.StringItems
import SheetGloss.Proofs.QuotedCalls
import SheetGloss.Proofs.RecordLimits
import SheetGloss.Proofs.ReadRefusals
import SheetGloss.Proofs.EscapeChoice
import SheetGloss.Proofs.WholeNumbers
import SheetGloss.Proofs.SpanOrder
import SheetGloss.Proofs.AddressWords
