import Sim6809.Proofs.Processor.Fault
import Sim6809.Proofs.Processor.RegisterMask

/-!
Transfers and exchanges between registers. Each of the ten registers can be named on either side, D
shares its bytes with A and B, and the program counter counts as it is behind the instruction. Between
registers of one width a value is neither cut nor extended, and registers that share no byte can be set
in either order, so the two writes of an exchange swap the values.
-/
namespace Sim6809

namespace Register

/-- The register that a selector stands for; a reserved one stands for D. -/
def ofSelector (selector : UInt8) : Register := (ofCode? selector).getD .d

theorem overlaps_eq_false {register other : Register} (same : register.isWide = other.isWide)
    (ne : register ≠ other) : register.overlaps other = false := by
  revert same ne
  cases register <;> cases other <;> decide

end Register

/-! ### Registers as places -/

namespace Registers

variable (regs saved : Registers) {register other : Register}

/-- Registers that share no byte can be set in either order. -/
theorem set_comm (apart : register.overlaps other = false) (value value' : UInt16) :
    (regs.set register value).set other value' = (regs.set other value').set register value := by
  cases register <;> cases other <;> first | rfl | cases apart

theorem set_set (register : Register) (value value' : UInt16) :
    (regs.set register value).set register value' = regs.set register value' := by
  cases register with
  | _ => rfl

/-- A register that is given its own value stays as it is. -/
theorem set_get (register : Register) : regs.set register (regs.get register) = regs := by
  cases register with
  | d =>
      unfold set get setD d
      dsimp only
      rw [Word.hi_join, Word.lo_join]
  | a => exact congrArg (fun a => { regs with a }) (UInt8.toUInt8_toUInt16 regs.a)
  | b => exact congrArg (fun b => { regs with b }) (UInt8.toUInt8_toUInt16 regs.b)
  | dp => exact congrArg (fun dp => { regs with dp }) (UInt8.toUInt8_toUInt16 regs.dp)
  | cc =>
      have byte : Word.lo (regs.get .cc) = regs.cc.toByte := UInt8.toUInt8_toUInt16 regs.cc.toByte
      unfold set
      dsimp only
      rw [byte, Flags.ofByte_toByte]
  | _ => rfl

/-- Registers have become others by a transfer: the destination has the value of the source, and
registers that share no byte with the destination are as before. -/
structure Transferred (past : Registers) (source destination : Register) (after : Registers) :
    Prop where
  moved : after.get destination = past.get source
  kept : ∀ other, destination.overlaps other = false → after.get other = past.get other

/-- Registers have become others by an exchange: the two have each other's values, and registers that
share no byte with them are as before. -/
structure Exchanged (past : Registers) (first second : Register) (after : Registers) : Prop where
  inFirst : after.get first = past.get second
  inSecond : after.get second = past.get first
  kept : ∀ other, first.overlaps other = false → second.overlaps other = false →
    after.get other = past.get other

theorem transferred_transfer (same : register.isWide = other.isWide) :
    Transferred regs register other (Core.transfer regs register other) where
  moved := regs.get_set_of_width regs same.symm
  kept _ apart := regs.get_set_apart apart _

theorem exchange_self (register : Register) : Core.exchange regs register register = regs := by
  unfold Core.exchange
  rw [set_get, set_get]

theorem exchanged_exchange (same : register.isWide = other.isWide) :
    Exchanged regs register other (Core.exchange regs register other) where
  inFirst := by
    by_cases ne : register = other
    · rw [← ne, exchange_self]
    · have apart := Register.overlaps_eq_false same.symm (Ne.symm ne)
      exact (get_set_apart _ apart _).trans (regs.get_set_of_width regs same)
  inSecond := get_set_of_width _ regs same.symm
  kept _ first second := (get_set_apart _ second _).trans (get_set_apart _ first _)

/-- An exchange undoes itself. -/
theorem exchange_exchange (same : register.isWide = other.isWide) :
    Core.exchange (Core.exchange regs register other) register other = regs := by
  by_cases ne : register = other
  · rw [ne, exchange_self, exchange_self]
  · have apart := Register.overlaps_eq_false same.symm (Ne.symm ne)
    have swapped := regs.exchanged_exchange same
    -- The second exchange writes the old values, each over the new one of its register.
    have again : Core.exchange (Core.exchange regs register other) register other =
        ((Core.exchange regs register other).set register (regs.get register)).set other
          (regs.get other) :=
      congrArg₂ (fun value value' =>
        ((Core.exchange regs register other).set register value).set other value')
        swapped.inSecond swapped.inFirst
    rw [again, Core.exchange, set_comm _ apart, set_set, set_set, set_get, set_get]

end Registers

/-! ### Steps -/

namespace Core

variable {c d : Core}

/-- The byte behind the opcode of an instruction, as the processor reads it. -/
def postbyte (c : Core) : UInt8 := c.located.2.operandByte.1

/-- The register in the high half of the postbyte. -/
def source (c : Core) : Register := .ofSelector (c.postbyte >>> 4)

/-- The register in the low half of the postbyte. -/
def destination (c : Core) : Register := .ofSelector (c.postbyte &&& 0x0F)

theorem selectRegister_fst (c : Core) (code : UInt8) :
    (c.selectRegister code).1 = .ofSelector code := by
  unfold selectRegister Register.ofSelector
  split
  · rename_i register named
    rw [named]
    rfl
  · rename_i reserved
    rw [reserved]
    rfl

theorem selectPair_fst (c : Core) : c.selectPair.1 = Register.pair
    (.ofSelector (c.operandByte.1 >>> 4)) (.ofSelector (c.operandByte.1 &&& 0x0F)) := by
  rw [selectPair_eq]
  dsimp only
  rw [selectRegister_fst, selectRegister_fst]

/-- A transfer or exchange works on the byte behind its opcode, with only the program counter moved. -/
theorem located_of_transfers
    (transfers : c.fetched.instruction = .tfr ∨ c.fetched.instruction = .exg) :
    c.located.1 = 0 ∧ c.located.2.cpu.ea = c.regs.pc + 1 ∧ c.located.2.regs = c.pastMask := by
  have two : c.regs.pc + 1 + 1 = c.regs.pc + 2 := UInt16.add_assoc _ _ _
  have located := c.located_of_immediate8 (mode_of_transfers transfers)
  rw [Opcode.unprefixed_of_transfers _ _ transfers] at located
  unfold pastMask
  rw [← two]
  exact located

/-- Unless a handler answers, the postbyte is the byte in memory behind the opcode. -/
theorem postbyte_of_silent (silent : c.bus.readHandlers = [])
    (transfers : c.fetched.instruction = .tfr ∨ c.fetched.instruction = .exg) :
    c.postbyte = c.bus.memory.read (c.regs.pc + 1) := by
  have beside := located_beside silent
  unfold postbyte operandByte
  rw [readByte_of_silent (beside.bus.readHandlers.trans silent), beside.bus.memory,
    (located_of_transfers transfers).2.1]

section Pair

variable (change : Registers → Register → Register → Registers)

theorem onPair_fst (c : Core) : (c.onPair change).1 = c.selectPair.1.map fun _ => 0 := by
  unfold onPair
  rcases c.selectPair with ⟨chosen, e⟩
  cases chosen with
  | ok pair => rfl
  | error fault => rfl

theorem onPair_regs {pair : Register × Register} (chosen : c.selectPair.1 = .ok pair) :
    (c.onPair change).2.regs = change c.regs pair.1 pair.2 := by
  have regs := c.selectPair_regs
  unfold onPair
  revert chosen regs
  rcases c.selectPair with ⟨result, e⟩
  rintro rfl regs
  exact congrArg (change · pair.1 pair.2) regs

/-- Whether a transfer or exchange fails is decided by its two registers. -/
theorem perform_of_transfers
    (transfers : c.fetched.instruction = .tfr ∨ c.fetched.instruction = .exg) :
    c.perform.1 = (Register.pair c.source c.destination).map fun _ => c.fetched.cycles := by
  have executed : (c.located.2.execute c.fetched.instruction).1 =
      (Register.pair c.source c.destination).map fun _ => 0 := by
    have pair : c.located.2.selectPair.1 = Register.pair c.source c.destination :=
      c.located.2.selectPair_fst
    rw [← pair]
    rcases transfers with tfr | exg
    · rw [tfr]
      exact onPair_fst transfer c.located.2
    · rw [exg]
      exact onPair_fst exchange c.located.2
  rw [perform_eq, executed, (located_of_transfers transfers).1]
  cases Register.pair c.source c.destination with
  | ok pair => rfl
  | error fault => rfl

/-- A step that executes an instruction on the two registers of its postbyte: it fails and puts the
registers back if they differ in width, and else it changes registers as the instruction does. -/
structure ChangesPair (c d : Core) (changed : Registers → Prop) : Prop where
  fails : ∀ fault, c.step.1 = .error fault ↔ d.source.isWide ≠ d.destination.isWide ∧
    fault = .mismatchedRegisters d.source d.destination
  restored : d.source.isWide ≠ d.destination.isWide → c.step.2.regs = d.regs
  succeeds : d.source.isWide = d.destination.isWide →
    c.step.1 = .ok (c.entryCost + d.fetched.cycles) ∧ changed c.step.2.regs

theorem changesPair (begins : c.begins? = some d)
    (transfers : d.fetched.instruction = .tfr ∨ d.fetched.instruction = .exg)
    (executes : d.located.2.execute d.fetched.instruction = d.located.2.onPair change)
    {changed : Registers → Prop} (right : d.source.isWide = d.destination.isWide →
      changed (change d.pastMask d.source d.destination)) : c.ChangesPair d changed := by
  have performed := perform_of_transfers transfers
  unfold Register.pair at performed
  by_cases same : d.source.isWide = d.destination.isWide
  · rw [if_pos same] at performed
    have chosen : d.located.2.selectPair.1 = .ok (d.source, d.destination) :=
      d.located.2.selectPair_fst.trans (if_pos same)
    have regs : d.perform.2.regs = change d.pastMask d.source d.destination := by
      rw [perform_eq, executes, onPair_regs change chosen, (located_of_transfers transfers).2.2]
    have stepped := step_of_performed begins performed
    have result : c.step.1 = .ok (c.entryCost + d.fetched.cycles) := congrArg Prod.fst stepped
    refine ⟨fun fault => ?_, fun differ => absurd same differ, fun _ => ⟨result, ?_⟩⟩
    · rw [result]
      exact ⟨nofun, fun mismatched => absurd same mismatched.1⟩
    · rw [stepped]
      exact regs ▸ right same
  · rw [if_neg same] at performed
    have stepped := step_of_failed begins performed
    refine ⟨fun fault => ?_, fun _ => congrArg (fun step => step.2.regs) stepped,
      fun equal => absurd equal same⟩
    rw [stepped]
    exact ⟨fun failed => ⟨same, (Except.error.inj failed).symm⟩,
      fun mismatched => congrArg Except.error mismatched.2.symm⟩

end Pair

/-- A transfer or an exchange takes its registers from its postbyte, the byte behind the opcode, and
fails exactly if they differ in width. Else a transfer gives the destination the value of the source and
an exchange swaps the two, with the program counter taken behind the instruction, and no register
changes besides those that share a byte with one that is written. To exchange registers of one width
twice changes nothing. -/
theorem step_transfers (begins : c.begins? = some d) :
    (d.fetched.instruction = .tfr →
      c.ChangesPair d (Registers.Transferred d.pastMask d.source d.destination)) ∧
    (d.fetched.instruction = .exg →
      c.ChangesPair d (Registers.Exchanged d.pastMask d.source d.destination)) ∧
    (d.fetched.instruction = .tfr ∨ d.fetched.instruction = .exg → d.bus.readHandlers = [] →
      d.postbyte = d.bus.memory.read (d.regs.pc + 1)) ∧
    ∀ (regs : Registers) (first second : Register), first.isWide = second.isWide →
      exchange (exchange regs first second) first second = regs := by
  refine ⟨fun tfr => ?_, fun exg => ?_, fun transfers silent => postbyte_of_silent silent transfers,
    fun regs _ _ => regs.exchange_exchange⟩
  · refine changesPair transfer begins (.inl tfr) ?_ d.pastMask.transferred_transfer
    rw [tfr]
    rfl
  · refine changesPair exchange begins (.inr exg) ?_ d.pastMask.exchanged_exchange
    rw [exg]
    rfl

/-- A processor before an exchange of the program counter with what a reserved selector stands for. -/
def exchangingPc : Core where
  cpu := { Cpu.zero with regs := { Registers.zero with a := 0x12, b := 0x34, x := 7, pc := 0x2000 } }
  bus := Bus.blank.pokeBytes 0x2000 [0x1E, 0x57]

theorem exchangingPc_swapped : exchangingPc.step.2.regs.get .pc = 0x1234 ∧
    exchangingPc.step.2.regs.get .d = 0x2002 ∧ exchangingPc.step.2.regs.get .x = 7 := by
  have begins : exchangingPc.begins? = some exchangingPc.applyRequests.releaseSync := rfl
  have exchanged := (((step_transfers begins).2.1 rfl).succeeds rfl).2
  exact ⟨exchanged.inFirst, exchanged.inSecond, exchanged.kept .x rfl rfl⟩

end Core
end Sim6809
