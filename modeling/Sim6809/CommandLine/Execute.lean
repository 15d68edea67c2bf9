import Sim6809.Board.Report
import Sim6809.CommandLine.Arguments
import Sim6809.Memory.Dump
import Sim6809.Settings
import Sim6809.Text.Json

/-!
The commands. A command reads its settings and its image, works on a board of its own, and answers
with a text and perhaps the message of a failure.
-/
namespace Sim6809.CommandLine

/-- What a command answers. The text may tell the speed of a run, so it depends on the nanoseconds
that the run took. -/
structure Response where
  text : Nat → String
  failure : Option String

namespace Response

def ofText (text : String) : Response := ⟨fun _ => text, none⟩

def ofFailure (message : String) : Response := ⟨fun _ => "", some message⟩

end Response

def showLines (json : Bool) (lines : List String) : String :=
  if json then (JsonDocument.array (lines.map .text)).render ++ "\n"
  else String.join (lines.map (· ++ "\n"))

def showBlock (json : Bool) (text : String) : String :=
  if json then (JsonDocument.scalar (.text text)).render ++ "\n"
  else if text.endsWith "\n" then text
  else text ++ "\n"

def showSummary (json : Bool) (summary : RunSummary) (nanoseconds : Nat) : String :=
  let speed := RunTime.wholeSpeed ⟨summary.instructions, nanoseconds⟩
  if json then
    (JsonDocument.object [("reason", .text summary.reason),
      ("instructions", .number summary.instructions),
      ("instructions_per_second", .number speed), ("pc", .text summary.pc),
      ("registers", .text summary.registers), ("console", .text summary.console)]).render ++ "\n"
  else
    "stopped: " ++ summary.reason ++ " after " ++ toString summary.instructions ++
      " instructions (" ++ toString speed ++ " instr/s)\n" ++ summary.registers

def loadBoard (files : Files) (settings : Settings) (image : String) : Except String Board :=
  match (Board.new settings.cyclesPerTick).loadFile files image with
  | (.ok (), b) => .ok b
  | (.error e, _) => .error (image ++ ": " ++ e.message)

def setTrace (b : Board) (trace : Bool) : Board :=
  b.setMonitor { b.monitor with receiver := trace, tracing := trace }

/-- Takes the console's output to be echoed. -/
def takeEcho (echo : Bool) (b : Board) : String × Board :=
  if echo then
    let (text, bus) := Console.take b.bus
    (text ++ "\n", b.setBus bus)
  else ("", b)

/-- The summary of a run. What is echoed has been taken from the console, so the summary does not tell
it again. -/
def summaryOf (echo : Bool) (outcome : RunOutcome) (b : Board) : RunSummary :=
  .of outcome (takeEcho echo b).2

/-- What a run shows: its trace, then the console's output if it is echoed, then the summary. -/
def runText (json echo : Bool) (outcome : RunOutcome) (b : Board) (nanoseconds : Nat) : String :=
  String.join (b.monitor.received.toList.map (· ++ "\n")) ++ (takeEcho echo b).1 ++
    showSummary json (summaryOf echo outcome b) nanoseconds

/-- Steps a number of times and collects, behind the lines given, the listing lines of what was
executed; a fault ends the stepping with its message. -/
def stepLines : Nat → Board → Array String → Array String × Option String
  | 0, _, lines => (lines, none)
  | count + 1, b, lines =>
    match b.step with
    | (.error fault, b) => (lines, some ("at $" ++ Hex.word b.pc ++ ": " ++ fault.message))
    | (.ok none, b) => stepLines count b lines
    | (.ok (some op), b) => stepLines count b (lines.push op.line)

def executeRun (settings : Settings) (json : Bool) (b : Board) (steps : Option Nat)
    (breakpoints : List UInt16) (trace timer : Bool) : Response :=
  match settings.breakpointAddresses with
  | .error e => .ofFailure e.message
  | .ok addresses =>
    let b := setTrace { b with ticking := timer } (trace || settings.trace)
    match b.run? (.unasked steps (addresses ++ breakpoints)) with
    | none => .ofFailure "the run does not end"
    | some (outcome, b) => ⟨runText json (settings.echoConsole && !json) outcome b, none⟩

def execute (files : Files) (settings : Settings) (json : Bool) (command : Command) : Response :=
  match loadBoard files settings command.image with
  | .error message => .ofFailure message
  | .ok b =>
    match command with
    | .run _ steps breakpoints trace timer =>
      executeRun settings json b steps breakpoints trace timer
    | .step _ count =>
      let (lines, failure) := stepLines count (setTrace b false) #[]
      ⟨fun _ => showLines json lines.toList, failure⟩
    | .disasm _ address count =>
      let start := address.getD b.pc
      let ops := b.monitor.disassembleRange start (count.getD settings.window)
      .ofText (showLines json (ops.map Operation.line))
    | .dump _ address length =>
      .ofText (showBlock json (b.monitor.memory.dump (address.getD b.pc) length))
    | .registers _ steps =>
      match (setTrace b false).run? (.unasked (some steps) []) with
      | none => .ofFailure "the run does not end"
      | some (_, b) => .ofText (showBlock json b.monitor.core.regs.listing)

/-- The default place of the settings file in the user's configuration directory. -/
def settingsPath (directory : String) : String := directory ++ "/hyper9/config.toml"

def respond (files : Files) (configDirectory : Option String) (invocation : Invocation) :
    Response :=
  let settings :=
    match invocation.settings, configDirectory with
    | some path, _ => Settings.load files path true
    | none, some directory => Settings.load files (settingsPath directory) false
    | none, none => .ok .default
  match settings with
  | .error e => .ofFailure e.message
  | .ok settings => execute files settings invocation.json invocation.command

def filesOf (configDirectory : Option String) (invocation : Invocation) : List String :=
  let image := invocation.command.image
  let settings := invocation.settings.or (configDirectory.map settingsPath)
  settings.toList ++ [image, Path.withExtension image "map"]

end Sim6809.CommandLine
