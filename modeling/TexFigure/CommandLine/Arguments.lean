import TexFigure.Text.Basic
/-!
# Arguments

Arguments are switches and operands. A switch starts with two hyphens and has a long name, or
with one and has letters; letters share a hyphen. The value of a switch follows an equals sign,
the last letter, or as the next argument, which must not look like a switch. Two hyphens alone
end the switches. Where names of commands are expected, the first operand is one of them and the
arguments behind it belong to that command.
-/

namespace TexFigure.CommandLine

/-- Why arguments are not carried out as a command. -/
inductive Stop
  | misuse
  | version
  | help
  deriving DecidableEq, Repr

/-- What a switch does. -/
inductive Effect
  /-- It is given once at most. -/
  | flag
  /-- It takes a value that passes a test, and is given once at most. -/
  | once (accepts : Text → Bool)
  /-- It takes a value and may be given again. -/
  | many
  /-- It ends the reading. -/
  | stop (stop : Stop)

/-- Whether a switch takes a value. -/
def Effect.takesValue : Effect → Bool
  | once _ | many => true
  | flag | stop _ => false

/-- A switch, by its long name and perhaps a letter. -/
structure Switch where
  name : Text
  letter : Option Char := none
  effect : Effect

/-- What arguments may be given. -/
structure Level where
  switches : List Switch
  /-- The names of commands; when there are none, operands are plain. -/
  commands : List Text := []
  /-- The largest number of operands. -/
  operands : Nat := 0

/-- What arguments were given: switches by their long name, flags with an empty value, in their
order, and operands. -/
structure Given where
  switches : List (Text × Text) := []
  operands : List Text := []

namespace Given

/-- Whether a switch was given. -/
def has (given : Given) (name : Text) : Bool := (given.switches.lookup name).isSome

/-- The value of a switch. -/
def value? (given : Given) (name : Text) : Option Text := given.switches.lookup name

/-- All values of a switch. -/
def values (given : Given) (name : Text) : List Text :=
  (given.switches.filter (·.1 == name)).map (·.2)

/-- Add a switch with its value. -/
def add (given : Given) (switch : Switch) (value : Text) : Except Stop Given :=
  let longer := { given with switches := given.switches ++ [(switch.name, value)] }
  match switch.effect with
  | .stop stop => .error stop
  | .many => .ok longer
  | .flag => if given.has switch.name then .error .misuse else .ok longer
  | .once accepts =>
    if given.has switch.name || !accepts value then .error .misuse else .ok longer

/-- Add operands, up to a number of them. -/
def addOperands (given : Given) (limit : Nat) (operands : List Text) : Except Stop Given :=
  if given.operands.length + operands.length ≤ limit then
    .ok { given with operands := given.operands ++ operands }
  else .error .misuse

end Given

/-- One argument by its looks. -/
inductive Argument
  | ending
  | long (name : Text) (value : Option Text)
  | letters (letters : Text)
  | plain (text : Text)

/-- The looks of an argument; a hyphen alone is a plain one. -/
def Argument.ofText : Text → Argument
  | ['-', '-'] => ending
  | '-' :: '-' :: body =>
    match body.dropWhile (· != '=') with
    | [] => long body none
    | _ :: value => long (body.takeWhile (· != '=')) (some value)
  | '-' :: letter :: rest => letters (letter :: rest)
  | text => plain text

/-- Whether an argument can be the value of the switch before it. -/
def isValue (text : Text) : Bool :=
  match Argument.ofText text with
  | .plain _ => true
  | _ => false

namespace Level

/-- Read letters behind a hyphen. A switch that waits for its value is answered too. -/
def readLetters (level : Level) : Text → Given → Except Stop (Given × Option Switch)
  | [], given => .ok (given, none)
  | letter :: rest, given =>
    match level.switches.find? (·.letter == some letter) with
    | none => .error .misuse
    | some switch =>
      if switch.effect.takesValue then
        match rest with
        | [] => .ok (given, some switch)
        | '=' :: value => do return (← given.add switch value, none)
        | value => do return (← given.add switch value, none)
      else
        match given.add switch [] with
        | .error stop => .error stop
        | .ok given => readLetters level rest given

/-- Read a long switch. A switch that waits for its value is answered too. -/
def readLong (level : Level) (name : Text) (value : Option Text) (given : Given) :
    Except Stop (Given × Option Switch) :=
  match level.switches.find? (·.name == name), value with
  | none, _ => .error .misuse
  | some switch, some value =>
    if switch.effect.takesValue then do return (← given.add switch value, none)
    else .error .misuse
  | some switch, none =>
    if switch.effect.takesValue then .ok (given, some switch)
    else do return (← given.add switch [], none)

/-- Read arguments: what was given, and the command that was named with the arguments behind
it. -/
def read (level : Level) :
    List Text → Given → Except Stop (Given × Option (Text × List Text))
  | [], given => .ok (given, none)
  | argument :: rest, given =>
    let switches (read : Except Stop (Given × Option Switch)) :
        Except Stop (Given × Option (Text × List Text)) :=
      match read with
      | .error stop => .error stop
      | .ok (given, none) => level.read rest given
      | .ok (given, some switch) =>
        match rest with
        | [] => .error .misuse
        | value :: rest =>
          if isValue value then
            match given.add switch value with
            | .error stop => .error stop
            | .ok given => level.read rest given
          else .error .misuse
    match Argument.ofText argument with
    | .ending => do return (← given.addOperands level.operands rest, none)
    | .long name value => switches (level.readLong name value given)
    | .letters letters => switches (level.readLetters letters given)
    | .plain text =>
      if level.commands.contains text then .ok (given, some (text, rest))
      else
        match given.addOperands level.operands [text] with
        | .error stop => .error stop
        | .ok given => level.read rest given

end Level

end TexFigure.CommandLine
