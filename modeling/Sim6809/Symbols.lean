import Sim6809.Log
import Sim6809.Text.Lines
import Sim6809.Text.Number
import Std.Data.HashMap

/-!
Symbols from a linker's map. A line that begins with the symbol keyword defines a label for an
address; of several labels of one address the first is the one that listings show.
-/
namespace Sim6809

structure Symbol where
  label : String
  file : String
  address : UInt16
  deriving DecidableEq, Repr

namespace Symbol

def keyword : List Char := "Symbol:".toList

def storageClasses : List (List Char) :=
  [".static.function.".toList, ".local.static.".toList, ".global.static.variable.".toList]

def dropHead (head text : List Char) : List Char :=
  if head.isPrefixOf text then text.drop head.length else text

/-- The label without its storage classes, each dropped at most once and in their order. -/
def dropStorage (label : List Char) : List Char :=
  storageClasses.foldl (fun text head => dropHead head text) label

/-- The symbol that the fields of a line define: keyword, label, file, kind and hexadecimal
address. -/
def ofFields? : List (List Char) → Option Symbol
  | first :: label :: file :: _ :: address :: _ =>
    if first = keyword then
      match Number.hexWord address with
      | .ok address => some ⟨String.ofList (dropStorage label), String.ofList file, address⟩
      | .error _ => none
    else none
  | _ => none

def ofLine? (line : List Char) : Option Symbol := ofFields? (Text.fields line)

end Symbol

/-- The symbols in their order, and for each address that has any the position of the first. -/
structure SymbolTable where
  symbols : Array Symbol
  positions : Std.HashMap UInt16 Nat

namespace SymbolTable

def empty : SymbolTable := ⟨#[], ∅⟩

/-- Adds a symbol; a position that its address already has stays. -/
def push (table : SymbolTable) (symbol : Symbol) : SymbolTable where
  symbols := table.symbols.push symbol
  positions := table.positions.insertIfNew symbol.address table.symbols.size

def ofList (symbols : List Symbol) : SymbolTable := symbols.foldl push empty

def lookup? (table : SymbolTable) (address : UInt16) : Option String :=
  (table.positions[address]?.bind (table.symbols[·]?)).map (·.label)

def label (table : SymbolTable) (address : UInt16) : String := (table.lookup? address).getD ""

def size (table : SymbolTable) : Nat := table.symbols.size

def definitions (text : List Char) : List (List Char × Nat) :=
  (Text.lines text).zipIdx.filter fun (line, _) => Symbol.keyword.isPrefixOf line

/-- The table of a map's text; lines that define no symbol are left out. -/
def parse (text : List Char) : SymbolTable :=
  ofList ((definitions text).filterMap fun (line, _) => Symbol.ofLine? line)

def complaints (text : List Char) : List Record :=
  ((definitions text).filter fun (line, _) => (Symbol.ofLine? line).isNone).map
    fun (line, number) =>
      ⟨.warn, "skipping malformed symbol on line " ++ toString (number + 1) ++ ": " ++
        String.ofList line⟩

end SymbolTable
end Sim6809
