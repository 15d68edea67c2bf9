import Sim6809.Address

/-!
The arguments of the command line. Options may stand before the command or behind it, the ones of a
command only behind it; every option has a long name, and the one for more logging a short one.
-/
namespace Sim6809.CommandLine

inductive Command
  | run (image : String) (steps : Option Nat) (breakpoints : List UInt16) (trace timer : Bool)
  | step (image : String) (count : Nat)
  | disasm (image : String) (address : Option UInt16) (count : Option Nat)
  | dump (image : String) (address : Option UInt16) (length : Nat)
  | registers (image : String) (steps : Nat)
  deriving DecidableEq, Repr

def Command.image : Command → String
  | run image _ _ _ _ | step image _ | disasm image _ _ | dump image _ _ | registers image _ => image

structure Invocation where
  settings : Option String
  json : Bool
  verbosity : Nat
  command : Command
  deriving DecidableEq, Repr

inductive OptionKind
  | flag
  | counter
  | single
  | repeated
  deriving DecidableEq, Repr

abbrev Options := List (String × OptionKind)

def globalOptions : Options := [("config", .single), ("verbose", .counter), ("json", .flag)]

def commandOptions : String → Option Options
  | "run" => some [("steps", .single), ("break", .repeated), ("trace", .flag), ("timer", .flag)]
  | "step" => some [("count", .single)]
  | "disasm" => some [("addr", .single), ("count", .single)]
  | "dump" => some [("addr", .single), ("len", .single)]
  | "registers" => some [("steps", .single)]
  | _ => none

inductive Item
  | option (name : String) (value : String)
  | positional (text : String)
  deriving DecidableEq, Repr

def isValue (text : String) : Bool := text == "-" || !text.startsWith "-"

def splitEquals (text : List Char) : String × Option String :=
  let name := String.ofList (text.takeWhile (· != '='))
  match text.dropWhile (· != '=') with
  | _ :: value => (name, some (String.ofList value))
  | [] => (name, none)

def shortItems? (letters : List Char) : Option (List Item) :=
  if letters.all (· == 'v') then some (letters.map fun _ => .option "verbose" "") else none

def prepend (items : List Item) (result : Option (List Item)) : Option (List Item) :=
  result.map (items ++ ·)

/-- Sorts the arguments behind a command; nothing if one of them is no option of it or lacks its
value. Behind a double dash all are positional. -/
def sort? (options : Options) : List String → Option (List Item)
  | [] => some []
  | argument :: rest =>
    match argument.toList with
    | ['-', '-'] => some (rest.map .positional)
    | '-' :: '-' :: long =>
      let (name, value?) := splitEquals long
      match options.lookup name, value? with
      | some .flag, none | some .counter, none => prepend [.option name ""] (sort? options rest)
      | some .single, some value | some .repeated, some value =>
        prepend [.option name value] (sort? options rest)
      | some .single, none | some .repeated, none =>
        match rest with
        | value :: rest =>
          if isValue value then prepend [.option name value] (sort? options rest) else none
        | [] => none
      | _, _ => none
    | '-' :: letter :: letters =>
      (shortItems? (letter :: letters)).bind fun items => prepend items (sort? options rest)
    | _ => prepend [.positional argument] (sort? options rest)

/-- The options in front of the command, the command, and what stands behind it. -/
def findCommand? : List String → Option (List Item × String × List String)
  | [] => none
  | argument :: rest =>
    match argument.toList with
    | '-' :: '-' :: long =>
      let (name, value?) := splitEquals long
      match globalOptions.lookup name, value? with
      | some .flag, none | some .counter, none => prependItems [.option name ""] (findCommand? rest)
      | some .single, some value => prependItems [.option name value] (findCommand? rest)
      | some .single, none =>
        match rest with
        | value :: rest =>
          if isValue value then prependItems [.option name value] (findCommand? rest) else none
        | [] => none
      | _, _ => none
    | '-' :: letter :: letters =>
      (shortItems? (letter :: letters)).bind fun items => prependItems items (findCommand? rest)
    | _ => some ([], argument, rest)
where
  prependItems (items : List Item) (result : Option (List Item × String × List String)) :
      Option (List Item × String × List String) :=
    result.map fun (before, found) => (items ++ before, found)

def valuesOf (items : List Item) (name : String) : List String :=
  items.filterMap fun
    | .option n value => if n = name then some value else none
    | .positional _ => none

def positionals (items : List Item) : List String :=
  items.filterMap fun
    | .positional text => some text
    | .option _ _ => none

def wellUsed (options : Options) (items : List Item) : Bool :=
  options.all fun (name, kind) =>
    match kind with
    | .flag | .single => (valuesOf items name).length ≤ 1
    | .counter | .repeated => true

def number? (text : String) : Option Nat := (Number.read 10 (1 <<< 64) text.toList).toOption

def address? (text : String) : Option UInt16 := (Address.parse text).toOption

def path? (text : String) : Option String := if text.isEmpty then none else some text

/-- The value of an option, read; nothing for a bad value, and nothing inside for no value. -/
def optional? {α : Type} (read : String → Option α) (items : List Item) (name : String) :
    Option (Option α) :=
  match valuesOf items name with
  | [] => some none
  | text :: _ => (read text).map some

def valueOr? {α : Type} (read : String → Option α) (default : α) (items : List Item)
    (name : String) : Option α :=
  (optional? read items name).map (·.getD default)

def given (items : List Item) (name : String) : Bool := !(valuesOf items name).isEmpty

def command? (name : String) (items : List Item) : Option Command := do
  let [image] := positionals items | none
  let image ← path? image
  match name with
  | "run" =>
    return .run image (← optional? number? items "steps")
      (← (valuesOf items "break").mapM address?) (given items "trace") (given items "timer")
  | "step" => return .step image (← valueOr? number? 1 items "count")
  | "disasm" =>
    return .disasm image (← optional? address? items "addr") (← optional? number? items "count")
  | "dump" =>
    return .dump image (← optional? address? items "addr") (← valueOr? number? 256 items "len")
  | "registers" => return .registers image (← valueOr? number? 0 items "steps")
  | _ => none

/-- How often an option is given behind the command or, if it is not given there, before it. -/
def countOf (before behind : List Item) (name : String) : Nat :=
  let inner := (valuesOf behind name).length
  if inner = 0 then (valuesOf before name).length else inner

/-- Reads a command line; nothing if it is not used as it should be. An option that every place
accepts counts as it is given behind the command, if it is given there. -/
def parse? (arguments : List String) : Option Invocation := do
  let (before, name, rest) ← findCommand? arguments
  let options ← commandOptions name
  let behind ← sort? (globalOptions ++ options) rest
  if !wellUsed globalOptions before || !wellUsed (globalOptions ++ options) behind then none
  else
    let outer ← optional? path? before "config"
    let inner ← optional? path? behind "config"
    return {
      settings := inner.or outer
      json := given before "json" || given behind "json"
      verbosity := countOf before behind "verbose"
      command := ← command? name behind }

end Sim6809.CommandLine
