import TexFigure.CommandLine.Arguments
import TexFigure.Decimal.Reader
/-!
# Requests

The commands and the arguments that each of them takes. Every command may be followed by the name
of a file for its result; the name that stands last counts when several commands on the way are
given one.
-/

namespace TexFigure.CommandLine

/-! ## Commands -/

/-- How a drawing is asked for. -/
structure PreviewRequest where
  width : Float := 400.0
  height : Float := 300.0
  /-- The file of its settings. -/
  settings : Option Text := none

/-- How a series is asked for. -/
structure SeriesRequest where
  expression : Option Text := none
  /-- The file of its rows. -/
  rows : Option Text := none
  chartType : Text := "line"
  surface : Option Text := none
  lineStyle : Text := "solid"
  color : Text := []
  legend : Text := []

/-- A command; `input` is the file that it reads, instead of the standard input. -/
inductive Command
  /-- Name the tag of a formula. -/
  | classify (input : Option Text)
  /-- Read a formula, by its tag if one is given. -/
  | readFormula (input tag : Option Text)
  | writeFormula (input : Option Text)
  /-- Read a chart with tables, each given by a name and a file. -/
  | readChart (input : Option Text) (report : Bool) (tables : List Text)
  | writeChart (input : Option Text)
  /-- Append a series to a chart, or to an empty one. -/
  | addSeries (chart : Option Text) (series : SeriesRequest) (asCode : Bool)
  | drawChart (input : Option Text) (preview : PreviewRequest)
  | writeShapes (input : Option Text)
  | drawShapes (input : Option Text) (selected : Option Nat) (preview : PreviewRequest)
  | color (token : Text) (asFunction : Bool)

/-- A command and the file for its result, instead of the standard output. -/
structure Request where
  command : Command
  output : Option Text

/-! ## Their arguments -/

/-- The arguments of a command and what they ask for. -/
structure Verb where
  switches : List Switch := []
  /-- The command, when what was given is enough and without conflict. -/
  command? : Given → Option Command

/-- A command, or a group of commands under one name. -/
inductive Topic
  | verb (verb : Verb)
  | group (verbs : List (Text × Verb))

/-- A whole number of 32 bits; zero may have a minus sign. -/
def readIdentity? (text : Text) : Option Nat :=
  match text with
  | '-' :: digits =>
    if digits.head? = some '+' then none else Decimal.readNat? 1 digits
  | text => Decimal.readNat? (Nat.pow 2 32) text

/-- A switch with any text as its value. -/
def textSwitch (name : Text) : Switch := { name, effect := .once fun _ => true }

/-- A switch with a number as its value. -/
def numberSwitch (name : Text) : Switch :=
  { name, effect := .once fun value => (Decimal.readFloat? value).isSome }

/-- A switch without a value. -/
def flagSwitch (name : Text) : Switch := { name, effect := .flag }

/-- The switches that every command takes. -/
def commonSwitches : List Switch := [
  { name := "output", letter := some 'o', effect := .once fun _ => true },
  { name := "verbose", letter := some 'v', effect := .flag },
  { name := "help", letter := some 'h', effect := .stop .help }]

/-- The switches of the program. -/
def programSwitches : List Switch :=
  { name := "version", letter := some 'V', effect := .stop .version } :: commonSwitches

/-- The switches of commands that draw. -/
def previewSwitches : List Switch :=
  [numberSwitch "width", numberSwitch "height", textSwitch "config"]

/-- How a drawing was asked for. -/
def Given.preview (given : Given) : PreviewRequest :=
  let number (name : Text) (default : Float) : Float :=
    ((given.value? name).bind Decimal.readFloat?).getD default
  { width := number "width" 400.0, height := number "height" 300.0
    settings := given.value? "config" }

/-- The file that was named. -/
def Given.input (given : Given) : Option Text := given.operands.head?

/-- A command that takes no switches of its own. -/
def plainVerb (command : Option Text → Command) : Verb :=
  { command? := fun given => some (command given.input) }

/-- The commands on formulas. -/
def formulaVerbs : List (Text × Verb) := [
  ("classify", plainVerb .classify),
  ("parse",
    { switches := [{ textSwitch "tag" with letter := some 't' }]
      command? := fun given => some (.readFormula given.input (given.value? "tag")) }),
  ("build", plainVerb .writeFormula)]

/-- The series that was asked for, by an expression or by rows and not by both. -/
def Given.series? (given : Given) : Option SeriesRequest :=
  if given.has "expression" && given.has "data" then none
  else
    some {
      expression := given.value? "expression"
      rows := given.value? "data"
      chartType := (given.value? "chart-type").getD "line"
      surface := given.value? "surface"
      lineStyle := (given.value? "line-style").getD "solid"
      color := (given.value? "color").getD []
      legend := (given.value? "legend").getD [] }

/-- The commands on charts. -/
def chartVerbs : List (Text × Verb) := [
  ("parse",
    { switches := [flagSwitch "report", { name := "table", effect := .many }]
      command? := fun given =>
        some (.readChart given.input (given.has "report") (given.values "table")) }),
  ("build", plainVerb .writeChart),
  ("add",
    { switches := [textSwitch "expression", textSwitch "data", textSwitch "chart-type",
        textSwitch "surface", textSwitch "line-style", textSwitch "color", textSwitch "legend",
        flagSwitch "code"]
      command? := fun given =>
        given.series?.map fun series => .addSeries given.input series (given.has "code") }),
  ("render",
    { switches := previewSwitches
      command? := fun given => some (.drawChart given.input given.preview) })]

/-- The commands on shapes. -/
def shapeVerbs : List (Text × Verb) := [
  ("code", plainVerb .writeShapes),
  ("render",
    { switches :=
        { name := "selected", effect := .once fun value => (readIdentity? value).isSome }
          :: previewSwitches
      command? := fun given =>
        some (.drawShapes given.input ((given.value? "selected").bind readIdentity?)
          given.preview) })]

/-- The command on colours, which needs one. -/
def colorVerb : Verb :=
  { switches := [flagSwitch "css"]
    command? := fun given => given.input.map fun token => .color token (given.has "css") }

/-- All commands. -/
def topics : List (Text × Topic) := [
  ("math", .group formulaVerbs), ("plot", .group chartVerbs), ("shapes", .group shapeVerbs),
  ("color", .verb colorVerb)]

namespace Request

/-- What asking for help about commands comes to; help about help is help, too. -/
def helpAbout (commands : List Text) : List Text → Stop
  | [] => .help
  | name :: _ => if name = "help" ∨ commands.contains name then .help else .misuse

/-- Read the name of one of several commands, and the arguments behind it. -/
def choose {α : Type} (switches : List Switch) (choices : List (Text × α)) (arguments : List Text) :
    Except Stop (Given × α × List Text) := do
  let commands := choices.map (·.1)
  let (given, named) ← Level.read { switches, commands := "help" :: commands } arguments {}
  match named with
  | none => .error .misuse
  | some (name, rest) =>
    match choices.lookup name with
    | some choice => return (given, choice, rest)
    | none => .error (helpAbout commands rest)

/-- Read the arguments of a command; `outer` was given before its name. -/
def ofVerb (verb : Verb) (outer : List Given) (arguments : List Text) : Except Stop Request := do
  let (given, _) ←
    Level.read { switches := verb.switches ++ commonSwitches, operands := 1 } arguments {}
  match verb.command? given with
  | none => .error .misuse
  | some command => return ⟨command, (given :: outer).findSome? (Given.value? · "output")⟩

/-- Read the arguments of the program. -/
def ofArguments (arguments : List Text) : Except Stop Request := do
  let (given, topic, rest) ← choose programSwitches topics arguments
  match topic with
  | .verb verb => ofVerb verb [given] rest
  | .group verbs =>
    let (inner, verb, rest) ← choose commonSwitches verbs rest
    ofVerb verb [inner, given] rest

end Request

end TexFigure.CommandLine
