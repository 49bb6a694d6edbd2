import SlotChain.CommandLine.Help
import SlotChain.CommandLine.Parser
import SlotChain.LogFilter.Basic
import SlotChain.Op.Run
import SlotChain.Script

/-!
# The program

A run of the whole program: it reads its log filter and its arguments, gets its operations from a
script, from the command line or, if there are none, from the demonstration, and runs them on a new
list. Operations are read before the list is built, and nothing runs unless all of them can be read.
What the program tells besides its output is one text, in the order in which it comes about.
-/

namespace SlotChain

/-- How a run of the program ends. -/
inductive Ending where
  /-- Everything was done, and this was printed. -/
  | done (output : List UInt8)
  /-- Something could not be done; what was printed before stays, and the report tells the causes. -/
  | failed (output : List UInt8) (report : String)
  /-- There is a mistake in the arguments. -/
  | misused (misuse : CommandLine.Misuse)
  /-- The program was stopped by a fault. -/
  | faulted (fault : Fault)
deriving Repr, DecidableEq

/-- The code with which the program exits. -/
def Ending.exitCode : Ending → Nat
  | done _ => 0
  | failed .. => 1
  | misused _ => 2
  | faulted _ => 101

/-- The bytes that the program has printed. -/
def Ending.output : Ending → List UInt8
  | done output => output
  | failed output _ => output
  | misused _ => []
  | faulted _ => []

/-- What a run of the program leaves behind. -/
structure Execution where
  /-- The events on the way. -/
  events : List Event
  /-- The end. -/
  ending : Ending

namespace Program

/-- The report of a failure to get operations, which names the script if there is one. -/
def failureReport (script : Option String) (e : CommandError) : String :=
  match script with
  | none => e.report
  | some path => Text.report ("fail to load script " ++ Text.quoted path) e.messages

/-- The operations that the arguments ask for, given a way to read files. -/
def operations (a : Arguments) (readFile : String → Except IoError ByteArray) :
    Except CommandError (List Op) :=
  match a.script with
  | some path => Script.load (readFile path)
  | none =>
    if a.ops = [] then .ok Op.demo
    else (Op.ofWords a.ops).mapError .op

/-- Run operations on a new list, and print without a limit. -/
def runOps (a : Arguments) (ops : List Op) : Execution :=
  match Op.initialState a.config.capacity.toNat [] none with
  | .error fault => ⟨[], .faulted fault⟩
  | .ok s =>
    match Op.run ops s with
    | .error fault => ⟨[], .faulted fault⟩
    | .ok o =>
      let output := o.state.output.written
      match o.answer with
      | .ok () => ⟨o.events, .done output⟩
      | .error e => ⟨o.events, .failed output e.report⟩

/-- Run the program with arguments that have been read. -/
def start (a : Arguments) (readFile : String → Except IoError ByteArray) : Execution :=
  let starting := Event.starting a.shape.compact
  match operations a readFile with
  | .error e => ⟨[starting], .failed [] (failureReport a.script e)⟩
  | .ok ops =>
    let run := runOps a ops
    ⟨starting :: run.events, run.ending⟩

/-- Run the program. -/
def execute (argv : List String) (readFile : String → Except IoError ByteArray) : Execution :=
  match CommandLine.parse argv with
  | .error (.help full) =>
    ⟨[], .done (Text.utf8 (if full then CommandLine.longHelp else CommandLine.shortHelp))⟩
  | .error .version => ⟨[], .done (Text.utf8 CommandLine.versionText)⟩
  | .error (.misuse m) => ⟨[], .misused m⟩
  | .ok a => start a readFile

end Program

/-- What an end tells. A mistake in the arguments is told piece by piece. -/
def Ending.report : Ending → List String
  | done _ => []
  | failed _ report => ["Error: " ++ report]
  | misused m => [m.text .interrupts]
  | faulted _ => []

/-- The text that a run tells besides its output: complaints about the log filter, the log, and what
its end tells, each closed by a line feed. -/
def Execution.told (x : Execution) (filter : LogFilter) : String :=
  let log := (x.events.filter filter.logs).map Event.logLine
  String.join ((filter.complaints ++ log ++ x.ending.report).map (· ++ "\n"))

/-- What is left of a run. -/
structure Conclusion where
  /-- The end. -/
  ending : Ending
  /-- The text that was told besides the output. -/
  told : String

/-- Run the program with a log filter that is still to be read. A filter that cannot be taken apart
stops it before anything else. -/
def Program.run (log : String) (argv : List String)
    (readFile : String → Except IoError ByteArray) : Conclusion :=
  match LogFilter.parse log with
  | .error fault => ⟨.faulted fault, ""⟩
  | .ok filter =>
    let x := execute argv readFile
    ⟨x.ending, x.told filter⟩

end SlotChain
