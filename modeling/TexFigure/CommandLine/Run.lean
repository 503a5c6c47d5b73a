import TexFigure.Chart.Preview
import TexFigure.Chart.Write
import TexFigure.Color.Token
import TexFigure.CommandLine.Failure
import TexFigure.CommandLine.Request
import TexFigure.Formula.Document
import TexFigure.Formula.Read
import TexFigure.Formula.Write
import TexFigure.Json.Printer
import TexFigure.Json.Reader
import TexFigure.Picture.Preview
import TexFigure.Shape.Document
import TexFigure.Toml.Reader
/-!
# Running commands

A command reads what it was given, and answers one text. Notes that it makes on the way are kept
also when it fails. The text goes to the standard output with the end of a line behind it, or as
it is into a file.
-/

namespace TexFigure.CommandLine

/-- A computation that makes notes and may fail. -/
abbrev Job (m : Type → Type) := ExceptT Failure (StateT (List Text) m)

/-- How a run of the program ends. -/
structure Outcome where
  exitCode : Nat
  output : Text := []
  errors : Text := []

namespace Job

variable {m : Type → Type} [Monad m] [Surroundings m]

/-- Make a note. -/
def note (line : Text) : Job m Unit := modify (· ++ [line])

/-- Go on with a value, or fail. -/
def ofExcept {ε α : Type} (failure : ε → Failure) (value : Except ε α) : Job m α :=
  match value with
  | .ok a => return a
  | .error e => throw (failure e)

/-- Go on with a value, or fail. -/
def ofOption {α : Type} (failure : Failure) (value : Option α) : Job m α :=
  match value with
  | some a => return a
  | none => throw failure

/-- The content of a file. -/
def readFile (name : Text) : Job m Text := do
  ofExcept Failure.unusable (← (Surroundings.read name : m (Except FileFault Text)))

/-- The content of a file, or the standard input. -/
def readInput : Option Text → Job m Text
  | some name => readFile name
  | none => (Surroundings.input : m Text)

/-- A value of a kind from a JSON document. -/
def decodeDocument {α : Type} (decode? : Json → Option α) (text : Text) : Job m α :=
  ofOption .document ((Json.readDocument? text).bind decode?)

/-- Whether the name of a file ends in the extension of JSON documents. -/
def isDocumentName (name : Text) : Bool :=
  (Path.ofText name).getLast?.any fun last =>
    5 < last.length && Text.toLower (last.drop (last.length - 5)) == ".json".toList

/-- The settings of a drawing. -/
def readSettings (preview : PreviewRequest) : Job m Preview.Options :=
  match preview.settings with
  | none => return {}
  | some name => do
    let text ← readFile name
    if isDocumentName name then decodeDocument Preview.Options.decode? text
    else
      ofOption (.settings name)
        ((Toml.readDocument? text).bind Preview.Options.decode?)

/-- The size of a drawing. -/
def viewport (preview : PreviewRequest) : Preview.Viewport := .ofSize preview.width preview.height

/-- The tables that were given, in order. -/
def readTables : List Text → Table.Registry → Job m Table.Registry
  | [], registry => return registry
  | entry :: entries, registry => do
    let (name, file) ← ofOption (.noTable entry) (Text.cut? entry "=")
    let rows ← readFile (Text.trim file)
    readTables entries (registry.insert ((Text.trim name).dropWhile (· == '\\')) rows)

/-- What is noted about a loss. -/
def lossNote (loss : Chart.Loss) : Text :=
  let kind : Text := match loss.kind with
    | .unknownOption => "UnknownOption"
    | .unknownCommand => "UnknownCommand"
    | .unresolvedTable => "UnresolvedTable"
    | .emptyPayload => "EmptyPayload"
  "dropped " ++ kind ++ " '" ++ loss.name ++ "' in " ++ loss.place.name

/-- What the series that was asked for shows. -/
def seriesKind (request : SeriesRequest) (dataType : Chart.DataType) (rows : Option Text) :
    Job m Chart.Kind :=
  match rows, request.expression, request.surface with
  | some rows, _, _ => return .ofRows dataType rows
  | none, some expression, none => return .ofCurve expression
  | none, some expression, some style => do
    let plotStyle ← ofExcept Failure.unknownName (Vocabulary.surfaceStyleOf style)
    return .surface { Chart.Surface.ofExpression expression with plotStyle }
  | none, none, _ => throw .noSource

/-- Append the series that was asked for to a chart. -/
def addSeries (chart : Chart) (request : SeriesRequest) : Job m Chart := do
  let rows ← request.rows.mapM readFile
  let dataType ← ofExcept Failure.unknownName (Vocabulary.chartTypeOf request.chartType)
  let lineStyle ← ofExcept Failure.unknownName (Vocabulary.lineStyleOf request.lineStyle)
  let style : Chart.Style := { color := request.color, lineStyle, legend := request.legend }
  let kind ← seriesKind request dataType rows
  return (chart.push style kind).2

/-- The text that a command answers. -/
def ofCommand : Command → Job m Text
  | .classify input => do
    return (Formula.classify (Text.trim (← readInput input))).name
  | .readFormula input tag => do
    let text := Text.trim (← readInput input)
    match tag with
    | none => return Json.pretty (Formula.readClassified text).encode
    | some tag =>
      let tag ← ofExcept Failure.unknownName (Vocabulary.tagOf tag)
      return Json.pretty (Formula.read tag text).encode
  | .writeFormula input => do
    return (← decodeDocument Formula.decode? (← readInput input)).write
  | .readChart input report tables => do
    let code ← readInput input
    let (chart, losses) := Chart.readReport (← readTables tables []) code
    if report then losses.forM fun loss => note (lossNote loss)
    return Json.pretty (← ofExcept Failure.noChart chart).encode
  | .writeChart input => do
    return (← decodeDocument Chart.decode? (← readInput input)).write
  | .addSeries chart series asCode => do
    let chart ← match chart with
      | none => pure {}
      | some name => decodeDocument Chart.decode? (← readFile name)
    let chart ← addSeries chart series
    return if asCode then chart.write else Json.pretty chart.encode
  | .drawChart input preview => do
    let chart ← decodeDocument Chart.decode? (← readInput input)
    return chart.render (viewport preview) (← readSettings preview)
  | .writeShapes input => do
    return Picture.write (← decodeDocument (Json.list? Shape.decode?) (← readInput input))
  | .drawShapes input selected preview => do
    let shapes ← decodeDocument (Json.list? Shape.decode?) (← readInput input)
    return Picture.render shapes (viewport preview) selected (← readSettings preview)
  | .color token asFunction => do
    if !Color.isToken token then
      note ("Warning: '" ++ token ++ "' is not a known color, using black")
    return if asFunction then (Color.ofToken .opacity token).css
      else (Color.ofToken .white token).hex

/-- Carry out a request, and answer what goes to the standard output. -/
def ofRequest (request : Request) : Job m Text := do
  let text ← ofCommand request.command
  match request.output with
  | none => return text ++ ['\n']
  | some name =>
    ofExcept Failure.unusable (← (Surroundings.write name text : m (Except FileFault Unit)))
    note ("Output written to: " ++ name)
    return []

end Job

/-- What the program says about its arguments. -/
def usage : Text := "Usage: texform [OPTIONS] <math|plot|shapes|color> ...\n"

/-- The outcome of arguments that are not carried out as a command. -/
def Outcome.ofStop : Stop → Outcome
  | .misuse => { exitCode := 2, errors := usage }
  | .version => { exitCode := 0, output := "texform 0.1.0\n" }
  | .help => { exitCode := 0, output := usage }

/-- The lines of notes. -/
def writeLines (lines : List Text) : Text := lines.flatMap (· ++ ['\n'])

/-- Run the program. -/
def run {m : Type → Type} [Monad m] [Surroundings m] (arguments : List Text) : m Outcome := do
  match Request.ofArguments arguments with
  | .error stop => return .ofStop stop
  | .ok request =>
    let (answer, notes) ← (Job.ofRequest request).run.run []
    match answer with
    | .ok output => return { exitCode := 0, output, errors := writeLines notes }
    | .error failure =>
      return { exitCode := 1, errors := writeLines (notes ++ ["Error: " ++ failure.message]) }

end TexFigure.CommandLine
