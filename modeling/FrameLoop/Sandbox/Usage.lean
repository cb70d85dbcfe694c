import FrameLoop.Decimal.Literal
import FrameLoop.Facades

/-! How the sandbox is used: the options of its command line, by name or letter, each at
most once, with values attached or in the next argument, and what it prints about
itself. -/

namespace FrameLoop.Sandbox

inductive Flag
  | frames
  | settings
  | fps
  | scriptWorkers
  | load
  | newGame
  | skipIntro
  | script
  | userDirectory
  | help
  | version
  deriving DecidableEq, Repr

namespace Flag

def all : List Flag :=
  [frames, settings, fps, scriptWorkers, load, newGame, skipIntro, script, userDirectory, help,
    version]

/-- The name after two dashes. -/
def name : Flag → String
  | frames => "frames"
  | settings => "settings"
  | fps => "fps"
  | scriptWorkers => "script-workers"
  | load => "load"
  | newGame => "new-game"
  | skipIntro => "skip-intro"
  | script => "script"
  | userDirectory => "user-dir"
  | help => "help"
  | version => "version"

/-- The letter after one dash. -/
def letter? : Flag → Option Char
  | frames => some 'f'
  | settings => some 's'
  | help => some 'h'
  | version => some 'V'
  | _ => none

def takesValue : Flag → Bool
  | newGame | skipIntro | help | version => false
  | _ => true

end Flag

/-- How a single argument reads. -/
inductive Word
  /-- An option with all it needs; the text of one without a value is empty. -/
  | complete (flag : Flag) (text : String)
  /-- An option whose value is the next argument. -/
  | awaiting (flag : Flag)
  /-- Two dashes, after which there are no options. -/
  | close
  deriving DecidableEq, Repr

namespace Word

/-- An option with the value that is attached to it, if any. -/
def ofFlag? (flag : Flag) (attached : Option String) : Option Word :=
  match flag.takesValue, attached with
  | true, some text => some (complete flag text)
  | true, none => some (awaiting flag)
  | false, none => some (complete flag "")
  | false, some _ => none

/-- An option by name, with a value after an equals sign. -/
def ofLong? (body : List Char) : Option Word :=
  let (name, rest) := body.span (· != '=')
  (Flag.all.find? (·.name == String.ofList name)).bind fun flag =>
    ofFlag? flag (match rest with
      | _ :: value => some (String.ofList value)
      | [] => none)

/-- An option by letter. Its value follows at once or after an equals sign; an option
without a value ends the reading, so what follows it is not looked at. -/
def ofShort? (letter : Char) (rest : List Char) : Option Word :=
  (Flag.all.find? (·.letter? == some letter)).bind fun flag =>
    if flag.takesValue then
      ofFlag? flag (match rest with
        | [] => none
        | '=' :: value => some (String.ofList value)
        | value => some (String.ofList value))
    else ofFlag? flag none

def ofArgument? (argument : String) : Option Word :=
  match argument.toList with
  | ['-', '-'] => some close
  | '-' :: '-' :: body => ofLong? body
  | '-' :: letter :: rest => ofShort? letter rest
  | _ => none

end Word

/-- An option that was given and the text of its value. -/
structure Given where
  flag : Flag
  text : String
  deriving DecidableEq, Repr

/-- Only a lone dash may start with one and still be the value of an option. -/
def isValue (argument : String) : Bool := !argument.startsWith "-" || argument == "-"

/-- The options in their order, up to a call for help or for the version. `awaiting`
is the option whose value comes next. -/
def givens : Option Flag → List String → Option (List Given)
  | none, [] => some []
  | some _, [] => none
  | some flag, argument :: rest =>
    if isValue argument then (givens none rest).map (⟨flag, argument⟩ :: ·) else none
  | none, argument :: rest =>
    match Word.ofArgument? argument with
    | none => none
    | some .close => if rest.isEmpty then some [] else none
    | some (.awaiting flag) => givens (some flag) rest
    | some (.complete flag text) =>
      if flag = .help ∨ flag = .version then some [⟨flag, text⟩]
      else (givens none rest).map (⟨flag, text⟩ :: ·)

/-- What a run is asked to do. -/
structure Options where
  /-- Frames after which the window closes. -/
  frames : Nat
  settings : Option String
  rate : Option Single
  scriptWorkers : Option Int
  load : Option String
  newGame : Bool
  skipIntro : Bool
  script : Option String
  userDirectory : Option String
  deriving DecidableEq

/-- The longest run that can be asked for has less frames than this. -/
def frameBound : Nat := Nat.pow 2 64

/-- Numbers of workers are signed and of 32 bits. -/
def workerBound : Int := Nat.pow 2 31

def path? (text : String) : Option String := if text = "" then none else some text

namespace Options

def defaults : Options where
  frames := 600
  settings := none
  rate := none
  scriptWorkers := none
  load := none
  newGame := false
  skipIntro := false
  script := none
  userDirectory := none

/-- Takes in one option, if its value can be read. -/
def set (o : Options) (g : Given) : Option Options :=
  match g.flag with
  | .frames =>
    (Decimal.natural? g.text.toList).bind fun n =>
      if n < frameBound then some { o with frames := n } else none
  | .settings => (path? g.text).map fun p => { o with settings := some p }
  | .fps => (Binary.ofLiteral? g.text).map fun x => { o with rate := some x }
  | .scriptWorkers =>
    (Decimal.integer? g.text.toList).bind fun n =>
      if -workerBound ≤ n ∧ n < workerBound then some { o with scriptWorkers := some n } else none
  | .load => (path? g.text).map fun p => { o with load := some p }
  | .newGame => some { o with newGame := true }
  | .skipIntro => some { o with skipIntro := true }
  | .script => some { o with script := some g.text }
  | .userDirectory => (path? g.text).map fun p => { o with userDirectory := some p }
  | .help | .version => some o

/-- A save and a new game exclude each other, and only a new game has an intro to
skip. That a new game is missing is not held against a run that loads a save. -/
def consistent (o : Options) : Bool :=
  !(o.load.isSome && o.newGame) && (!o.skipIntro || o.newGame || o.load.isSome)

def startup (o : Options) : StartupMode :=
  match o.load with
  | some path => .loadSave path
  | none => if o.newGame then .newSession o.skipIntro else .mainMenu

end Options

/-- What a command line asks for. -/
inductive Command
  | run (o : Options)
  | help
  | version
  deriving DecidableEq

/-- Takes in the options in order; `seen` are those before them. -/
def collect (o : Options) (seen : List Flag) : List Given → Option Command
  | [] => if o.consistent then some (.run o) else none
  | g :: rest =>
    if g.flag = .help then some .help
    else if g.flag = .version then some .version
    else if g.flag ∈ seen then none
    else (o.set g).bind fun o => collect o (g.flag :: seen) rest

/-- The command of a list of arguments, unless they are rejected. -/
def Command.ofArguments? (arguments : List String) : Option Command :=
  (givens none arguments).bind (collect .defaults [])

/-- What the program prints on a rejected command line. -/
def usage : String :=
  "error: the command line cannot be read\n\nUsage: sandbox [OPTIONS]\n\nFor more information, try '--help'."

def helpText : String :=
  "Runs the Cadence frame loop without a window

Usage: sandbox [OPTIONS]

Options:
  -f, --frames <FRAMES>                  Number of frames to run before the window reports closed [default: 600]
  -s, --settings <SETTINGS>              Settings file, read at startup and written back on exit
      --fps <FPS>                        Override the frame rate limit
      --script-workers <SCRIPT_WORKERS>  Override the number of script worker threads
      --load <LOAD>                      Load this save instead of opening the main menu
      --new-game                         Start a new game instead of opening the main menu
      --skip-intro                       Skip the intro of a new game
      --script <SCRIPT>                  Console script to run once a game is running
      --user-dir <USER_DIR>              Directory holding persistent script storage
  -h, --help                             Print help
  -V, --version                          Print version"

def versionText : String := "sandbox 0.1.0"

end FrameLoop.Sandbox
