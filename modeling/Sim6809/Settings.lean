import Sim6809.Address
import Sim6809.Files
import Sim6809.Settings.Document

/-!
The settings of the command line. Each has a default, and a settings file gives each at most once;
a file with an unknown setting or a value of the wrong kind is refused as a whole.
-/
namespace Sim6809

structure Settings where
  cyclesPerTick : UInt64
  window : Nat
  trace : Bool
  echoConsole : Bool
  logLevel : Option String
  breakpoints : List String
  deriving DecidableEq, Repr

inductive SettingsError
  | unreadable (path : String) (reason : ReadError)
  | invalid (path : String)
  | breakpoint (message : String)
  deriving DecidableEq, Repr

def SettingsError.message : SettingsError → String
  | unreadable path reason => "cannot read " ++ path ++ ": " ++ reason.message
  | invalid path => "invalid config " ++ path
  | breakpoint message => "invalid breakpoint: " ++ message

namespace Settings

def default : Settings where
  cyclesPerTick := 1000
  window := 30
  trace := false
  echoConsole := true
  logLevel := none
  breakpoints := []

/-- The settings with one of them replaced; nothing for an unknown key or a value of the wrong
kind. -/
def assign? (s : Settings) : String × Value → Option Settings
  | ("cycles_per_tick", .integer n) =>
    if 0 ≤ n then some { s with cyclesPerTick := .ofNat n.toNat } else none
  | ("window", .integer n) => if 0 ≤ n then some { s with window := n.toNat } else none
  | ("trace", .boolean b) => some { s with trace := b }
  | ("echo_console", .boolean b) => some { s with echoConsole := b }
  | ("log_level", .text level) => some { s with logLevel := some level }
  | ("breakpoints", .texts addresses) => some { s with breakpoints := addresses }
  | _ => none

def parse? (text : String) : Option Settings :=
  match Document.parse? text with
  | none => none
  | some entries =>
    if (entries.map Prod.fst).Nodup then entries.foldlM assign? default else none

/-- The settings of a file. One that the user names has to exist; the one at the default place may
be missing. -/
def load (files : Files) (path : String) (required : Bool) : Except SettingsError Settings :=
  match files.readText path with
  | .ok text =>
    match parse? text with
    | some settings => .ok settings
    | none => .error (.invalid path)
  | .error .notFound => if required then .error (.unreadable path .notFound) else .ok default
  | .error reason => .error (.unreadable path reason)

/-- The addresses of the breakpoints; the first that is no address fails them all. -/
def breakpointAddresses (s : Settings) : Except SettingsError (List UInt16) :=
  s.breakpoints.mapM fun text =>
    match Address.parse text with
    | .ok address => .ok address
    | .error message => .error (.breakpoint message)

end Settings
end Sim6809
