import Sim6809.Proofs.Text.Lines
import Sim6809.Proofs.Text.Number
import Sim6809.Symbols

/-!
The table of a map. Its symbols are those of the lines that define one, line after line, and an address
leads to the first symbol that has it.
-/
namespace Sim6809

namespace Symbol

/-- A label without some storage classes in front: each is dropped in its turn where the label begins
with it then. -/
inductive Stripped : List (List Char) → List Char → List Char → Prop
  | done {label : List Char} : Stripped [] label label
  | dropped {head label rest : List Char} {heads : List (List Char)} : Stripped heads label rest →
      Stripped (head :: heads) (head ++ label) rest
  | kept {head label rest : List Char} {heads : List (List Char)} : ¬ head <+: label →
      Stripped heads label rest → Stripped (head :: heads) label rest

/-- The line begins with the keyword, which is a field by itself. A label follows, a file, a kind and the
address in hexadecimal; any further fields do not matter. -/
structure Defines (line : List Char) (symbol : Symbol) : Prop where
  begins : keyword <+: line
  fields : ∃ label kind address more, Text.fields line =
      keyword :: label :: symbol.file.toList :: kind :: address :: more ∧
    Stripped storageClasses label symbol.label.toList ∧
    Number.WritesSigned 16 address symbol.address.toNat

/-- The symbols that lines define, in the order of the lines; a line that defines none is passed over. -/
inductive Listed : List (List Char) → List Symbol → Prop
  | nil : Listed [] []
  | defined {line : List Char} {lines : List (List Char)} {symbol : Symbol} {symbols : List Symbol} :
      Defines line symbol → Listed lines symbols → Listed (line :: lines) (symbol :: symbols)
  | skipped {line : List Char} {lines : List (List Char)} {symbols : List Symbol} :
      (∀ symbol, ¬ Defines line symbol) → Listed lines symbols → Listed (line :: lines) symbols

/-! ### One line -/

theorem stripped_iff {heads : List (List Char)} {label rest : List Char} :
    Stripped heads label rest ↔ heads.foldl (fun text head => dropHead head text) label = rest := by
  induction heads generalizing label with
  | nil =>
      constructor
      · rintro ⟨⟩
        rfl
      · rintro rfl
        exact .done
  | cons head heads ih =>
      rw [List.foldl_cons, ← ih]
      by_cases begins : head <+: label
      · obtain ⟨label, rfl⟩ := begins
        have drops : dropHead head (head ++ label) = label := by simp [dropHead]
        rw [drops]
        constructor
        · intro stripped
          generalize whole : head ++ label = text at stripped
          cases stripped with
          | dropped rest => rwa [List.append_cancel_left whole]
          | kept foreign _ => exact absurd ⟨label, whole⟩ foreign
        · exact .dropped
      · have keeps : dropHead head label = label := by simp [dropHead, begins]
        rw [keeps]
        constructor
        · intro stripped
          cases stripped with
          | dropped _ => exact absurd (List.prefix_append _ _) begins
          | kept _ rest => exact rest
        · exact .kept begins

/-- The symbol of a line that begins with the keyword. -/
def ofDefinition? (line : List Char) : Option Symbol :=
  if keyword.isPrefixOf line then ofLine? line else none

theorem ofFields?_eq_some_iff {fields : List (List Char)} {symbol : Symbol} :
    ofFields? fields = some symbol ↔
      ∃ label kind address more, fields =
          keyword :: label :: symbol.file.toList :: kind :: address :: more ∧
        dropStorage label = symbol.label.toList ∧
        Number.hexWord address = .ok symbol.address := by
  constructor
  · intro defined
    unfold ofFields? at defined
    split at defined
    · rename_i first label file kind address more
      split at defined
      · split at defined
        · rename_i word read
          cases defined
          exact ⟨label, kind, address, more, by simp [*]⟩
        · cases defined
      · cases defined
    · cases defined
  · rintro ⟨label, kind, address, more, rfl, stripped, read⟩
    simp [ofFields?, stripped, read]

theorem ofDefinition?_eq_some_iff {line : List Char} {symbol : Symbol} :
    ofDefinition? line = some symbol ↔ Defines line symbol := by
  have parts : Defines line symbol ↔ keyword <+: line ∧ ofLine? line = some symbol := by
    simp only [ofLine?, ofFields?_eq_some_iff, Number.hexWord_eq_ok_iff]
    constructor
    · rintro ⟨begins, label, kind, address, more, fields, stripped, written⟩
      exact ⟨begins, label, kind, address, more, fields, stripped_iff.mp stripped, written⟩
    · rintro ⟨begins, label, kind, address, more, fields, stripped, written⟩
      exact ⟨begins, label, kind, address, more, fields, stripped_iff.mpr stripped, written⟩
  rw [parts, ofDefinition?]
  split
  · rename_i begins
    simp [List.isPrefixOf_iff_prefix.mp begins]
  · rename_i foreign
    simp [List.isPrefixOf_iff_prefix.not.mp foreign]

theorem ofDefinition?_dropReturn (line : List Char) :
    ofDefinition? (Text.dropReturn line) = ofDefinition? line := by
  simp only [ofDefinition?, ofLine?, Text.fields_dropReturn, List.isPrefixOf_iff_prefix,
    Text.prefix_dropReturn_iff (show '\r' ∉ keyword by decide)]

theorem ofDefinition?_eq_none_iff {line : List Char} :
    ofDefinition? line = none ↔ ∀ symbol, ¬ Defines line symbol := by
  simp only [Option.eq_none_iff_forall_ne_some, ne_eq, ofDefinition?_eq_some_iff]

theorem listed_iff {lines : List (List Char)} {symbols : List Symbol} :
    Listed lines symbols ↔ lines.filterMap ofDefinition? = symbols := by
  constructor
  · intro listed
    induction listed with
    | nil => rfl
    | defined here _ ih =>
        rw [List.filterMap_cons_some (ofDefinition?_eq_some_iff.mpr here), ih]
    | skipped foreign _ ih =>
        rw [List.filterMap_cons_none (ofDefinition?_eq_none_iff.mpr foreign), ih]
  · rintro rfl
    induction lines with
    | nil => exact .nil
    | cons line lines ih =>
        cases found : ofDefinition? line with
        | none =>
            rw [List.filterMap_cons_none found]
            exact .skipped (ofDefinition?_eq_none_iff.mp found) ih
        | some symbol =>
            rw [List.filterMap_cons_some found]
            exact .defined (ofDefinition?_eq_some_iff.mp found) ih

end Symbol

namespace SymbolTable

open Sim6809.Symbol (Listed ofDefinition?)

/-! ### The table -/

@[simp] theorem push_symbols (table : SymbolTable) (symbol : Symbol) :
    (table.push symbol).symbols = table.symbols.push symbol := rfl

/-- The positions are those of a search from the first symbol on. -/
def Indexed (table : SymbolTable) : Prop :=
  ∀ address : UInt16,
    table.positions[address]? = table.symbols.toList.findIdx? (·.address = address)

theorem Indexed.push {table : SymbolTable} (h : table.Indexed) (symbol : Symbol) :
    (table.push symbol).Indexed := by
  intro address
  have found := h address
  simp only [SymbolTable.push, Std.HashMap.getElem?_insertIfNew, Array.toList_push,
    List.findIdx?_append, ← found, beq_iff_eq]
  by_cases same : symbol.address = address
  · subst same
    cases known : table.positions[symbol.address]? <;> simp [Std.HashMap.mem_iff_isSome_getElem?, known]
  · simp [same]

theorem ofList_spec (symbols : List Symbol) :
    (ofList symbols).symbols.toList = symbols ∧ (ofList symbols).Indexed := by
  induction symbols using List.reverseRecOn with
  | nil => exact ⟨rfl, fun address => by simp [ofList, empty]⟩
  | append_singleton symbols symbol ih =>
      have step : ofList (symbols ++ [symbol]) = (ofList symbols).push symbol := by simp [ofList]
      rw [step]
      exact ⟨by simp [ih.1], ih.2.push symbol⟩

theorem Indexed.lookup? {table : SymbolTable} (h : table.Indexed) (address : UInt16) :
    table.lookup? address = (table.symbols.toList.find? (·.address = address)).map (·.label) := by
  simp [SymbolTable.lookup?, h address, List.find?_eq_bind_findIdx?_getElem?]

theorem parse_symbols (text : List Char) :
    (parse text).symbols.toList = (Text.lines text).filterMap ofDefinition? := by
  have unnumbered : (Text.lines text).zipIdx.map Prod.fst = Text.lines text :=
    List.zipIdx_map_fst 0 _
  rw [parse, (ofList_spec _).1, definitions, List.filterMap_filter]
  conv_rhs => rw [← unnumbered, List.filterMap_map]
  rfl

/-- The symbols of a map are those that its lines define, so those of joined maps are those of the one
and then of the other. The positions lead to the first symbol of an address, and a look-up returns the
label of that symbol. -/
theorem parse_listed (text : List Char) :
    (∀ symbols, (parse text).symbols.toList = symbols ↔ Listed (Text.lines text) symbols) ∧
    (∀ more, (parse (text ++ '\n' :: more)).symbols.toList =
      (parse text).symbols.toList ++ (parse more).symbols.toList) ∧
    ∀ address : UInt16,
      (parse text).positions[address]? =
        (parse text).symbols.toList.findIdx? (·.address = address) ∧
      (parse text).lookup? address =
        ((parse text).symbols.toList.find? (·.address = address)).map (·.label) := by
  have indexed : (parse text).Indexed := (ofList_spec _).2
  refine ⟨?_, ?_, fun address => ⟨indexed address, indexed.lookup? address⟩⟩
  · intro symbols
    rw [parse_symbols, Symbol.listed_iff]
  · intro more
    simp only [parse_symbols]
    exact Text.filterMap_lines_join rfl Symbol.ofDefinition?_dropReturn text more

end SymbolTable
end Sim6809
