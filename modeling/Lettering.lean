import Lettering.Color.StandardPalette
import Lettering.Font.BoxFonts
import Lettering.Font.GlyphTable
import Lettering.Json.Block
import Lettering.Json.Printer
import Lettering.Placement
import Lettering.Proofs.Makeup
import Lettering.Proofs.Commands
import Lettering.Proofs.Correspondence
import Lettering.Proofs.Paragraphs
import Lettering.Proofs.LineNumbers
import Lettering.Proofs.Wrapping
import Lettering.Proofs.ExactArithmetic
import Lettering.Proofs.PositiveSizes
import Lettering.Proofs.Advances
import Lettering.Proofs.Widening
import Lettering.Proofs.Boxes
import Lettering.Proofs.Bounds
import Lettering.Proofs.Closing
import Lettering.Proofs.Stacking
import Lettering.Proofs.Counts
import Lettering.Proofs.Abreast
import Lettering.Proofs.Plumb
import Lettering.Proofs.Isolation
import Lettering.Proofs.Groups
import Lettering.Proofs.Reports
import Lettering.Proofs.Spans
import Lettering.Proofs.Rows
import Lettering.Proofs.Pens
import Lettering.Proofs.Clearance
import Lettering.Proofs.Frames
import Lettering.Proofs.Gathering
import Lettering.Proofs.Bands
import Lettering.Proofs.Motions
import Lettering.Proofs.ScaledDrawings
import Lettering.Proofs.ScaledShapes
import Lettering.Proofs.ScaledTexts
import Lettering.Proofs.Scaling
import Lettering.Proofs.Continuation
import Lettering.Proofs.LineSpacing
import Lettering.Proofs.FontsInForce
import Lettering.Proofs.UsableSizes
import Lettering.Proofs.RoundTrip
import Lettering.Proofs.InertTokens
import Lettering.Proofs.AlignedLines
import Lettering.Proofs.GlyphRows
import Lettering.Proofs.WordRuns
import Lettering.Proofs.BlankWidths
import Lettering.Proofs.Batches
import Lettering.Proofs.Attributes
import Lettering.Proofs.Fallbacks
import Lettering.Scalar.Binary64
import Lettering.Proofs.StackGeometry
import Lettering.Proofs.InkCells
import Lettering.Proofs.Binary64Order
import Lettering.Proofs.TabStops
import Lettering.Proofs.Compositions
import Lettering.Proofs.HexColors
import Lettering.Proofs.Notices
import Lettering.Proofs.Registrations
import Lettering.Proofs.Consistency
import Lettering.Proofs.LeastBoxes
