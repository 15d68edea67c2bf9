import Sim6809.Proofs.Listing.Range
import Sim6809.Proofs.Listing.Trace

/-!
The cached window of a listing. Whatever is done to a machine, its window is a listing of some memory
with the symbols that are in force: no call changes the symbols without dropping it. As an operation
depends on its own bytes and on labels alone, a part of the window whose bytes are still there is as
good as new.
-/
namespace Sim6809

namespace Memory

variable {m n : Memory} {symbols : SymbolTable} {start count : Nat} {op : Operation}

/-- An operation that was listed in one memory is the one that another memory holds, if its bytes are
the same there. -/
theorem decode_of_listed (member : op ∈ m.listing symbols start count)
    (same : op.bytes = n.readBytes op.offset op.bytes.length) :
    op = Operation.decode n symbols op.offset := by
  have decoded := (m.mem_listing symbols member).2
  have bytes : op.bytes = m.readBytes op.offset (Operation.read m op.offset).length := by
    rw [decoded]
    exact Operation.read_bytes
  rw [bytes, length_readBytes] at same
  refine decoded.trans ?_
  unfold Operation.decode
  rw [Operation.read_congr same.symm]
  rfl

end Memory

namespace Monitor

/-! ### What can be done to a machine -/

/-- A call to the monitor, or a change that its owner makes to the processor or on the bus. -/
inductive Call
  | step
  | poke (address : UInt16) (value : UInt8)
  | setRegs (regs : Registers)
  /-- Any other change: lines, requests, handlers, counts, or a memory in place of the old one. -/
  | setCore (core : Core)
  | setSymbols (symbols : SymbolTable)
  | reset
  | load (image : Array UInt8)
  | loadFile (files : Files) (path : String)
  | showWindow (count : Nat)

/-- The machine after a call. -/
def afterCall (m : Monitor) : Call → Monitor
  | .step => m.step.2
  | .poke address value => m.setBus (m.bus.poke address value)
  | .setRegs regs => m.setCore (m.core.setRegs regs)
  | .setCore core => m.setCore core
  | .setSymbols symbols => m.setSymbols symbols
  | .reset => m.reset
  | .load image => (m.load image).2
  | .loadFile files path => (m.loadFile files path).2
  | .showWindow count => (m.showWindow count).2

def afterCalls (m : Monitor) (calls : List Call) : Monitor := calls.foldl afterCall m

/-! ### The window is a listing -/

/-- The window is a listing of some memory with the symbols of the machine. An empty one is a listing
of no operations. -/
def WindowListed (m : Monitor) : Prop :=
  ∃ (memory : Memory) (start count : Nat), m.window = memory.listing m.symbols start count

variable {m n : Monitor}

theorem windowListed_of_empty (empty : m.window = []) : m.WindowListed := ⟨m.memory, 0, 0, empty⟩

theorem WindowListed.of_same (listed : m.WindowListed) (window : n.window = m.window)
    (symbols : n.symbols = m.symbols) : n.WindowListed := by
  obtain ⟨memory, start, count, eq⟩ := listed
  refine ⟨memory, start, count, ?_⟩
  rw [window, symbols]
  exact eq

theorem step_window (m : Monitor) : m.step.2.window = m.window := by
  rcases stepped : m.complained.core.step with ⟨result, core⟩
  cases result with
  | error fault =>
      unfold complained at stepped
      dsimp only [step]
      rw [stepped]
      rfl
  | ok cycles =>
      rw [step_of_ok stepped]
      dsimp only
      split
      · unfold addTrace
        split
        · rfl
        · rfl
      · rfl

theorem WindowListed.load (listed : m.WindowListed) (image : Array UInt8) :
    (m.load image).2.WindowListed := by
  unfold Monitor.load
  split
  · exact listed
  · split
    · exact listed
    · exact windowListed_of_empty rfl

/-- A file that is not loaded may leave records, and one that is loaded replaces the symbols. -/
theorem WindowListed.loadFile (listed : m.WindowListed) (files : Files) (path : String) :
    (m.loadFile files path).2.WindowListed := by
  unfold Monitor.loadFile
  split
  · exact listed
  · rename_i image _
    have noted : (m.addRecords (readSymbols files (Path.withExtension path "map")).2).WindowListed :=
      listed.of_same rfl rfl
    have loaded := noted.load image
    dsimp only
    split
    · rename_i rejected
      rw [rejected] at loaded
      exact loaded
    · exact windowListed_of_empty rfl

theorem WindowListed.showWindow (listed : m.WindowListed) (count : Nat) :
    (m.showWindow count).2.WindowListed := by
  unfold Monitor.showWindow
  split
  · exact listed
  · exact ⟨m.memory, m.pc.toNat, count, rfl⟩

theorem WindowListed.afterCall (listed : m.WindowListed) (call : Call) :
    (m.afterCall call).WindowListed := by
  cases call with
  | step => exact listed.of_same m.step_window m.step_core.2.2
  | poke address value => exact listed.of_same rfl rfl
  | setRegs regs => exact listed.of_same rfl rfl
  | setCore core => exact listed.of_same rfl rfl
  | setSymbols symbols => exact windowListed_of_empty rfl
  | reset => exact windowListed_of_empty rfl
  | load image => exact listed.load image
  | loadFile files path => exact listed.loadFile files path
  | showWindow count => exact listed.showWindow count

theorem WindowListed.afterCalls (listed : m.WindowListed) (calls : List Call) :
    (m.afterCalls calls).WindowListed := by
  induction calls generalizing m with
  | nil => exact listed
  | cons call calls ih => exact ih (listed.afterCall call)

/-! ### What is shown -/

/-- A window that can be shown: contiguous operations around the program counter, each of them as it
would be decoded now unless memory has changed below it. -/
structure Coherent (m : Monitor) (window : List Operation) : Prop where
  around : ∃ first last, window.head? = some first ∧ window.getLast? = some last ∧
    first.offset ≤ m.pc ∧ m.pc ≤ last.offset
  contiguous : Operation.Contiguous window
  ascending : Operation.Ascending window
  fresh : ∀ op ∈ window, op.bytes = m.memory.readBytes op.offset op.bytes.length →
    op = m.disassemble op.offset

/-- Of the operations in ascending order the last has the highest address. -/
theorem offset_le_getLast {first last : Operation} {window : List Operation}
    (ascending : Operation.Ascending window) (head : window.head? = some first)
    (tail : window.getLast? = some last) : first.offset ≤ last.offset := by
  cases window with
  | nil => cases head
  | cons op window =>
      cases head
      rcases List.mem_cons.mp (List.mem_of_getLast? tail) with rfl | later
      · exact UInt16.le_refl _
      · exact Nat.le_of_lt (List.rel_of_pairwise_cons ascending later)

/-- The listing that begins at the program counter goes around it. -/
theorem around_new {count : Nat} (asked : 0 < count) :
    ∃ first last, (m.disassembleRange m.pc count).head? = some first ∧
      (m.disassembleRange m.pc count).getLast? = some last ∧
      first.offset ≤ m.pc ∧ m.pc ≤ last.offset := by
  have lists := m.lists_disassembleRange m.pc count
  obtain ⟨first, head, offset⟩ := Option.map_eq_some_iff.mp (lists.first asked)
  have listed : m.disassembleRange m.pc count ≠ [] := by
    intro empty
    rw [empty] at head
    cases head
  have tail := List.getLast?_eq_some_getLast listed
  have atMost : first.offset ≤ m.pc := Nat.le_of_eq (congrArg UInt16.toNat offset)
  have atLeast : m.pc ≤ first.offset := Nat.le_of_eq (congrArg UInt16.toNat offset.symm)
  have upward := offset_le_getLast lists.ascending head tail
  exact ⟨first, _, head, tail, atMost, UInt16.le_trans atLeast upward⟩

theorem around_cached {window : List Operation} (inside : inWindow window m.pc = true) :
    ∃ first last, window.head? = some first ∧ window.getLast? = some last ∧
      first.offset ≤ m.pc ∧ m.pc ≤ last.offset := by
  unfold inWindow at inside
  split at inside
  · rename_i first last head tail
    rw [Bool.and_eq_true, decide_eq_true_iff, decide_eq_true_iff] at inside
    exact ⟨first, last, head, tail, inside⟩
  · cases inside

theorem WindowListed.coherent {count : Nat} (listed : m.WindowListed) (asked : 0 < count) :
    m.Coherent (m.showWindow count).1 := by
  unfold Monitor.showWindow
  split
  · rename_i inside
    -- The memory that the cached window lists may be an older one.
    obtain ⟨memory, start, size, window⟩ := listed
    refine ⟨around_cached inside, ?_, ?_, ?_⟩
    · rw [window]
      exact memory.contiguous_listing m.symbols start size
    · rw [window]
      exact memory.ascending_listing m.symbols start size
    · rw [window]
      exact fun op member same => Memory.decode_of_listed member same
  · have lists := m.lists_disassembleRange m.pc count
    exact ⟨around_new asked, lists.contiguous, lists.ascending,
      fun op member _ => lists.decoded op member⟩

/-- Whatever is done to a machine without a window, each window that it shows is coherent. -/
theorem showWindow_coherent {count : Nat} (empty : m.window = []) (calls : List Call)
    (asked : 0 < count) : (m.afterCalls calls).Coherent ((m.afterCalls calls).showWindow count).1 :=
  ((windowListed_of_empty empty).afterCalls calls).coherent asked

/-- A program of four NOPs whose listing is shown before the second is overwritten and the first is
executed. -/
def overwritten : List Call :=
  [.poke 0x2000 0x12, .poke 0x2001 0x12, .poke 0x2002 0x12, .poke 0x2003 0x12,
    .setRegs { Registers.zero with pc := 0x2000 }, .showWindow 4, .poke 0x2001 0x39, .step]

/-- The window is still the cached one, and of its second operation alone memory holds another byte. -/
theorem overwritten_shown :
    (blank.afterCalls overwritten).Coherent ((blank.afterCalls overwritten).showWindow 2).1 ∧
      ((blank.afterCalls overwritten).showWindow 2).1.map (fun op =>
        (op.offset, op.bytes, (blank.afterCalls overwritten).memory.read op.offset)) =
        [(0x2000, [0x12], 0x12), (0x2001, [0x12], 0x39), (0x2002, [0x12], 0x12),
          (0x2003, [0x12], 0x12)] :=
  ⟨showWindow_coherent rfl overwritten (by decide), by decide +kernel⟩

end Monitor
end Sim6809
