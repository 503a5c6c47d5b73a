import TexFigure.Arithmetic.Double
import TexFigure.Arithmetic.Scalar
import TexFigure.Chart.Basic
import TexFigure.Chart.Document
import TexFigure.Chart.Frame
import TexFigure.Chart.Loss
import TexFigure.Chart.Options
import TexFigure.Chart.Preview
import TexFigure.Chart.Projection
import TexFigure.Chart.Read
import TexFigure.Chart.Statement
import TexFigure.Chart.Ticks
import TexFigure.Chart.Trace
import TexFigure.Chart.Write
import TexFigure.Color.Basic
import TexFigure.Color.Token
import TexFigure.CommandLine.Arguments
import TexFigure.CommandLine.Failure
import TexFigure.CommandLine.Request
import TexFigure.CommandLine.Run
import TexFigure.CommandLine.Surroundings
import TexFigure.Decimal.Binary
import TexFigure.Decimal.Notation
import TexFigure.Decimal.Reader
import TexFigure.Decimal.Shortest
import TexFigure.Expression.Basic
import TexFigure.Expression.Compile
import TexFigure.Expression.Rename
import TexFigure.Expression.Token
import TexFigure.Formula.Basic
import TexFigure.Formula.Classify
import TexFigure.Formula.Document
import TexFigure.Formula.Read
import TexFigure.Formula.Write
import TexFigure.Identity
import TexFigure.Json.Basic
import TexFigure.Json.Printer
import TexFigure.Json.Reader
import TexFigure.Json.Record
import TexFigure.Main
import TexFigure.Picture.Command
import TexFigure.Picture.Fit
import TexFigure.Picture.Preview
import TexFigure.Picture.Write
import TexFigure.Preview.Label
import TexFigure.Preview.Options
import TexFigure.Preview.Stroke
import TexFigure.Preview.Svg
import TexFigure.Preview.Xml
import TexFigure.Proofs.Calls
import TexFigure.Proofs.ChartOptions
import TexFigure.Proofs.Classification
import TexFigure.Proofs.Conversions
import TexFigure.Proofs.Coordinates
import TexFigure.Proofs.Drawing
import TexFigure.Proofs.Heights
import TexFigure.Proofs.Marking
import TexFigure.Proofs.Markup
import TexFigure.Proofs.Nesting
import TexFigure.Proofs.Numerals
import TexFigure.Proofs.Occurrence
import TexFigure.Proofs.OptionList
import TexFigure.Proofs.Payload
import TexFigure.Proofs.Points
import TexFigure.Proofs.FixedCoordinates
import TexFigure.Proofs.Quiet
import TexFigure.Proofs.Recovery
import TexFigure.Proofs.Reopening
import TexFigure.Proofs.Rows
import TexFigure.Proofs.Spelling
import TexFigure.Proofs.Stability
import TexFigure.Proofs.Trimming
import TexFigure.Shape.Basic
import TexFigure.Shape.Document
import TexFigure.Shape.Outline
import TexFigure.Source.Command
import TexFigure.Source.Group
import TexFigure.Source.Offset
import TexFigure.Source.Split
import TexFigure.Table.Coordinates
import TexFigure.Table.Points
import TexFigure.Table.Registry
import TexFigure.Table.Rows
import TexFigure.Text.Basic
import TexFigure.Text.Blank
import TexFigure.Text.Word
import TexFigure.Toml.Reader
import TexFigure.Vocabulary
import TexFigure.Proofs.Settings
import TexFigure.Proofs.Editing
import TexFigure.Proofs.Rendering
import TexFigure.Proofs.SharedDepth
import TexFigure.Proofs.Readability
import TexFigure.Proofs.Semicolons
import TexFigure.Proofs.Noise
import TexFigure.Proofs.Access
import TexFigure.Proofs.Scanning
import TexFigure.Proofs.Splitting
import TexFigure.Proofs.Bounds
import TexFigure.Proofs.Agreement
import TexFigure.Proofs.Documents
import TexFigure.Proofs.Integrals
import TexFigure.Proofs.Sessions
import TexFigure.Proofs.Derivatives
import TexFigure.Proofs.Scripts
import TexFigure.Proofs.Limits
import TexFigure.Proofs.Matrices
import TexFigure.Proofs.Fractions
import TexFigure.Proofs.Focus
import TexFigure.Proofs.Logarithms
import TexFigure.Proofs.Registries
import TexFigure.Proofs.TableDefinitions
import TexFigure.Proofs.Selectors
import TexFigure.Proofs.Unclosed
import TexFigure.Proofs.SoleSeries
import TexFigure.Proofs.Legends
import TexFigure.Proofs.BlankStyles
import TexFigure.Proofs.Terminators
import TexFigure.Proofs.Forms
import TexFigure.Proofs.LimitSpellings
import TexFigure.Proofs.Backslashes
import TexFigure.Proofs.Segments
import TexFigure.Proofs.ExactScalars
import TexFigure.Proofs.Fitting
import TexFigure.Proofs.TickMarks
import TexFigure.Proofs.Doubles
import TexFigure.Proofs.Rounding
import TexFigure.Proofs.Magnitudes
import TexFigure.Proofs.Blending
import TexFigure.Proofs.Atoms
import TexFigure.Proofs.Mixtures
import TexFigure.Proofs.Closings
import TexFigure.Proofs.Separators
