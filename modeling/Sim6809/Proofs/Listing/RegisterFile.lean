import Sim6809.Proofs.Listing.Unshown
import Sim6809.Proofs.Listing.Window
import Sim6809.Proofs.Text.Column
import Sim6809.Proofs.Text.Hex

/-!
The register file in a trace line. Every register has a field of fixed width in it, so equal lines are
lines of equal registers; in front of them stands a column of fixed width with the instruction. A
machine that is traced leaves such a line of every step that it shows. So runs with equal traces go
through equal register files, if no step of theirs changes the registers without a line.
-/
namespace Sim6809

theorem Flags.length_text (flags : Flags) : flags.text.length = 8 := by
  rw [Flags.text, String.length_ofList]
  rfl

namespace Registers

variable {r s : Registers}

/-- The last field of a line and what stands before it can be told apart if the field has a fixed
width. -/
theorem field_inj {front front' tag field field' : String} (width : field.length = field'.length)
    (same : front ++ tag ++ field = front' ++ tag ++ field') : front = front' ∧ field = field' := by
  have chars := congrArg String.toList same
  simp only [String.toList_append] at chars
  obtain ⟨before, last⟩ := List.append_inj' chars (by simpa only [String.length_toList] using width)
  exact ⟨String.toList_inj.mp (List.append_cancel_right before), String.toList_inj.mp last⟩

theorem line_injective (same : r.line = s.line) : r = s := by
  have bytes (b c : UInt8) : (Hex.byte b).length = (Hex.byte c).length := by
    rw [Hex.length_byte, Hex.length_byte]
  have words (v w : UInt16) : (Hex.word v).length = (Hex.word w).length := by
    rw [Hex.length_word, Hex.length_word]
  have flags (f g : Flags) : f.text.length = g.text.length := by
    rw [f.length_text, g.length_text]
  unfold line at same
  -- The fields are taken off the line from its end.
  obtain ⟨same, pc⟩ := field_inj (words _ _) same
  obtain ⟨same, s'⟩ := field_inj (words _ _) same
  obtain ⟨same, u⟩ := field_inj (words _ _) same
  obtain ⟨same, y⟩ := field_inj (words _ _) same
  obtain ⟨same, x⟩ := field_inj (words _ _) same
  obtain ⟨same, cc⟩ := field_inj (flags _ _) same
  obtain ⟨same, dp⟩ := field_inj (bytes _ _) same
  obtain ⟨same, b⟩ := field_inj (bytes _ _) same
  have a := (String.append_right_inj _).mp same
  obtain ⟨_, _, _, _, _, _, _, _, _⟩ := r
  obtain ⟨_, _, _, _, _, _, _, _, _⟩ := s
  exact mk.injEq .. ▸ ⟨Hex.byte_injective a, Hex.byte_injective b, Hex.byte_injective dp,
    Flags.text_injective cc, Hex.word_injective x, Hex.word_injective y, Hex.word_injective u,
    Hex.word_injective s', Hex.word_injective pc⟩

theorem line_inj : r.line = s.line ↔ r = s := ⟨line_injective, congrArg line⟩

end Registers

namespace Monitor

/-! ### Trace lines -/

theorem toList_traceLine (text : String) (regs : Registers) : (traceLine text regs).toList =
    text.toList.takeD 60 ' ' ++ regs.line.toList := by
  rw [traceLine, String.toList_append, Text.toList_column, traceWidth]

/-- A trace line is a column of sixty characters, which holds the text cut off or filled up with
blanks, and behind it the registers. -/
theorem traceLine_columns (text : String) (regs : Registers) :
    (traceLine text regs).toList.take 60 = text.toList.takeD 60 ' ' ∧
      (traceLine text regs).toList.drop 60 = regs.line.toList := by
  rw [toList_traceLine]
  have width : (text.toList.takeD 60 ' ').length = 60 := List.takeD_length _ _ _
  exact ⟨List.take_left' width, List.drop_left' width⟩

/-! ### Traces of runs -/

/-- A machine whose trace lines go to a receiver that has none of them yet. -/
def listening (m : Monitor) : Monitor := { m with receiver := true, received := #[], tracing := true }

/-- What a call shows: only steps show something. -/
def shownBy (m : Monitor) : Call → List (String × Registers)
  | .step => m.shownByStep
  | _ => []

def shown (m : Monitor) : List Call → List (String × Registers)
  | [] => []
  | call :: calls => m.shownBy call ++ (m.afterCall call).shown calls

/-- The register files that a run goes through: those that its calls leave. -/
def registerFiles (m : Monitor) : List Call → List Registers
  | [] => []
  | call :: calls => (m.afterCall call).core.regs :: (m.afterCall call).registerFiles calls

/-- A call changes no registers behind the trace: a step hides nothing, and any other call leaves the
registers alone. -/
def Discloses (m : Monitor) : Call → Prop
  | .step => ¬ m.Hides
  | call => (m.afterCall call).core.regs = m.core.regs

def DisclosesAll (m : Monitor) : List Call → Prop
  | [] => True
  | call :: calls => m.Discloses call ∧ (m.afterCall call).DisclosesAll calls

/-- A run goes through the register files of a list in their order. It stays for any number of calls on
the one that there was at first and on each of the others. -/
inductive Lingers : Registers → List Registers → List Registers → Prop
  | done {r : Registers} : Lingers r [] []
  | stay {r : Registers} {listed files : List Registers} :
      Lingers r listed files → Lingers r listed (r :: files)
  | go {r s : Registers} {listed files : List Registers} :
      Lingers s listed files → Lingers r (s :: listed) (s :: files)

variable {m n : Monitor}

/-- A run ends with the last of the registers that it goes through. -/
theorem Lingers.getLastD_eq {r : Registers} {listed files : List Registers}
    (h : Lingers r listed files) : files.getLastD r = listed.getLastD r := by
  induction h with
  | done => rfl
  | stay _ ih => rw [List.getLastD_cons, ih]
  | go _ ih => rw [List.getLastD_cons, List.getLastD_cons, ih]

/-- The trace lines of a machine go to a receiver. -/
structure Listens (m : Monitor) : Prop where
  receiver : m.receiver = true
  tracing : m.tracing = true

/-- A machine has come from another while its receiver has got the lines of what was shown. -/
structure Receives (m n : Monitor) (shown : List (String × Registers)) : Prop extends Listens n where
  received : n.received.toList =
    m.received.toList ++ shown.map fun entry => traceLine entry.1 entry.2

theorem Listens.silent (h : m.Listens) (receiver : n.receiver = m.receiver)
    (tracing : n.tracing = m.tracing) (received : n.received = m.received) : Receives m n [] where
  receiver := receiver.trans h.receiver
  tracing := tracing.trans h.tracing
  received := by rw [received, List.map_nil, List.append_nil]

theorem Receives.trans {l m n : Monitor} {early late : List (String × Registers)}
    (first : Receives l m early) (second : Receives m n late) : Receives l n (early ++ late) where
  toListens := second.toListens
  received := by
    rw [second.received, first.received, List.map_append, List.append_assoc]

theorem Listens.addTrace (h : m.Listens) (text : String) (regs : Registers) :
    Receives m (m.addTrace (traceLine text regs)) [(text, regs)] := by
  unfold Monitor.addTrace
  rw [if_pos h.receiver]
  exact ⟨⟨h.receiver, h.tracing⟩, Array.toList_push⟩

/-- One step: a line goes to the receiver if the step is shown. -/
theorem Listens.step (h : m.Listens) : Receives m m.step.2 m.shownByStep := by
  have beside (core : Core) : Receives m (m.complained.setCore core) [] := h.silent rfl rfl rfl
  rcases stepped : m.complained.core.step with ⟨result, core⟩
  cases result with
  | error fault =>
      have failed : m.step = (.error fault, m.complained.setCore core) := by
        unfold complained at stepped ⊢
        dsimp only [Monitor.step]
        rw [stepped]
      rw [shownByStep_of_error (congrArg Prod.fst failed), failed]
      exact beside core
  | ok cycles =>
      have answered := step_of_ok stepped
      have after : core.cpu = m.core.step.2.cpu := by
        have cpu : m.step.2.core.cpu = core.cpu := by
          rw [answered]
          dsimp only
          split
          · exact (addTrace_sameState _ (traceLine m.upcomingText core.regs)).1.cpu
          · rfl
        exact cpu.symm.trans m.step_cpu
      have regs : core.regs = m.core.step.2.regs := congrArg Cpu.regs after
      rw [shownByStep_of_ok (congrArg Prod.fst answered), answered, h.tracing, ← after, ← regs]
      cases waits : m.cpu.isWaiting && core.cpu.isWaiting with
      | true => exact beside core
      | false => exact (beside core).trans ((beside core).toListens.addTrace m.upcomingText core.regs)

theorem Listens.load (h : m.Listens) (image : Array UInt8) : Receives m (m.load image).2 [] := by
  have put (bus : Bus) (text : String) :
      Receives m ((m.setBus bus).addRecord .debug text).reset [] := h.silent rfl rfl rfl
  unfold Monitor.load
  split
  · exact h.silent rfl rfl rfl
  · split
    · exact h.silent rfl rfl rfl
    · exact put _ _

theorem Listens.loadFile (h : m.Listens) (files : Files) (path : String) :
    Receives m (m.loadFile files path).2 [] := by
  unfold Monitor.loadFile
  split
  · exact h.silent rfl rfl rfl
  · rename_i image _
    have noted : Receives m (m.addRecords (readSymbols files (Path.withExtension path "map")).2) [] :=
      h.silent rfl rfl rfl
    have loaded := noted.trans (noted.toListens.load image)
    dsimp only
    split
    · rename_i rejected
      rw [rejected] at loaded
      exact loaded
    · rename_i accepted
      rw [accepted] at loaded
      exact loaded.trans (loaded.toListens.silent rfl rfl rfl)

theorem Listens.afterCall (h : m.Listens) (call : Call) :
    Receives m (m.afterCall call) (m.shownBy call) := by
  cases call with
  | step => exact h.step
  | poke address value => exact h.silent rfl rfl rfl
  | setRegs regs => exact h.silent rfl rfl rfl
  | setCore core => exact h.silent rfl rfl rfl
  | setSymbols symbols => exact h.silent rfl rfl rfl
  | reset => exact h.silent rfl rfl rfl
  | load image => exact h.load image
  | loadFile files path => exact h.loadFile files path
  | showWindow count =>
      dsimp only [Monitor.afterCall, Monitor.showWindow]
      split
      · exact h.silent rfl rfl rfl
      · exact h.silent rfl rfl rfl

/-- A run: the receiver has got the lines of what its calls have shown. -/
theorem Listens.afterCalls (h : m.Listens) (calls : List Call) :
    Receives m (m.afterCalls calls) (m.shown calls) := by
  induction calls generalizing m with
  | nil => exact h.silent rfl rfl rfl
  | cons call calls ih =>
      have first := h.afterCall call
      exact first.trans (ih first.toListens)

/-- The registers that a call shows are those that it leaves. -/
theorem shownBy_cases (m : Monitor) (call : Call) : m.shownBy call = [] ∨
    ∃ text, m.shownBy call = [(text, (m.afterCall call).core.regs)] := by
  cases call with
  | step =>
      dsimp only [shownBy, shownByStep, afterCall]
      rcases m.step with ⟨answer, after⟩
      cases answer with
      | error fault => exact .inl rfl
      | ok op? =>
          dsimp only
          split
          · exact .inl rfl
          · exact .inr ⟨_, rfl⟩
  | _ => exact .inl rfl

theorem Discloses.kept {call : Call} (h : m.Discloses call) (unshown : m.shownBy call = []) :
    (m.afterCall call).core.regs = m.core.regs := by
  cases call with
  | step => exact Classical.byContradiction fun changed => h (hides_iff.mpr ⟨unshown, changed⟩)
  | _ => exact h

/-- A run that discloses its changes goes through the register files that it shows. -/
theorem lingers_of_discloses {calls : List Call} (h : m.DisclosesAll calls) :
    Lingers m.core.regs ((m.shown calls).map Prod.snd) (m.registerFiles calls) := by
  -- By induction on the calls: each goes on to the registers that it shows, or stays.
  induction calls generalizing m with
  | nil => exact .done
  | cons call calls ih =>
      have rest := ih h.2
      unfold shown registerFiles
      rcases m.shownBy_cases call with unshown | ⟨text, showing⟩
      · rw [unshown, List.nil_append]
        rw [h.1.kept unshown] at rest ⊢
        exact rest.stay
      · rw [showing]
        exact rest.go

/-- What the lines of a run have behind their first column is the registers that it shows. -/
theorem registers_of_received (m : Monitor) (calls : List Call) :
    (m.listening.afterCalls calls).received.toList.map (fun line => line.toList.drop 60) =
      ((m.listening.shown calls).map Prod.snd).map fun regs => regs.line.toList := by
  have listens : m.listening.Listens := ⟨rfl, rfl⟩
  have fresh : m.listening.received.toList = [] := rfl
  rw [(listens.afterCalls calls).received, fresh, List.nil_append, List.map_map, List.map_map]
  refine List.map_congr_left fun entry _ => ?_
  rw [Function.comp, (traceLine_columns entry.1 entry.2).2, Function.comp]

theorem shown_of_received {calls others : List Call}
    (same : (m.listening.afterCalls calls).received = (n.listening.afterCalls others).received) :
    (m.listening.shown calls).map Prod.snd = (n.listening.shown others).map Prod.snd := by
  have lines := m.registers_of_received calls
  rw [same, n.registers_of_received others] at lines
  have different : Function.Injective fun regs : Registers => regs.line.toList :=
    fun r s equal => Registers.line_injective (String.toList_inj.mp equal)
  exact (List.map_injective_iff.mpr different lines).symm

theorem received_step_eq_empty_iff :
    m.listening.step.2.received = #[] ↔ m.listening.shownByStep = [] := by
  have listens : m.listening.Listens := ⟨rfl, rfl⟩
  have fresh : m.listening.received.toList = [] := rfl
  have received := listens.step.received
  rw [fresh, List.nil_append] at received
  rw [← Array.toList_eq_nil_iff, received, List.map_eq_nil_iff]

/-- A trace line is the text of the operation, cut off or filled up to sixty characters, and the line of
the registers, which is the same for no two register files. So the trace of a run lists register files,
and runs with equal traces go through the same ones, as long as no change of the registers stays behind
the trace. The steps that change registers without a line are those that execute CWAI or SYNC out of a
wait and those that fail in the handler of FIRQ that they have entered, and no others. -/
theorem trace_shows_registers (m n : Monitor) :
    (∀ (text : String) (regs : Registers),
      (traceLine text regs).toList.take 60 = text.toList.takeD 60 ' ' ∧
        (traceLine text regs).toList.drop 60 = regs.line.toList) ∧
    (∀ r s : Registers, r.line = s.line ↔ r = s) ∧
    (∀ calls others : List Call,
      m.listening.DisclosesAll calls → n.listening.DisclosesAll others →
      (m.listening.afterCalls calls).received = (n.listening.afterCalls others).received →
        ∃ listed : List Registers,
          (m.listening.afterCalls calls).received.toList.map (fun line => line.toList.drop 60) =
            listed.map (fun regs => regs.line.toList) ∧
          Lingers m.core.regs listed (m.listening.registerFiles calls) ∧
          Lingers n.core.regs listed (n.listening.registerFiles others)) ∧
    (m.listening.Hides ↔
      m.listening.step.2.received = #[] ∧ m.listening.step.2.core.regs ≠ m.core.regs) := by
  refine ⟨traceLine_columns, fun r s => Registers.line_inj, ?_, ?_⟩
  · intro calls others first second same
    have listed := lingers_of_discloses second
    rw [← shown_of_received same] at listed
    exact ⟨_, m.registers_of_received calls, lingers_of_discloses first, listed⟩
  · rw [received_step_eq_empty_iff]
    exact hides_iff

/-- A CWAI wait that NMI ends. -/
def awakened : Monitor := blank.setCore ((blank.core.setWait .cwaiWait).setLine .nmi true)

/-- The wait ends in one step; with another memory, which the trace does not show, it is the same. -/
theorem awakened_registers : ∃ listed : List Registers,
    (awakened.listening.afterCalls [.step]).received.toList.map (fun line => line.toList.drop 60) =
      listed.map (fun regs => regs.line.toList) ∧
    Lingers awakened.core.regs listed (awakened.listening.registerFiles [.step]) ∧
    Lingers awakened.core.regs listed
      (awakened.listening.registerFiles [.poke 0x3000 0x12, .step]) := by
  have discloses (m : Monitor) (served : m.core.serves? .step = some .nmi) : m.Discloses .step := by
    have unbegun := (Core.step_of_slow served (by decide)).1
    rintro (⟨_, ⟨d, begins, _⟩ | ⟨d, begins, _⟩⟩ | ⟨_, firq⟩)
    · rw [unbegun] at begins
      cases begins
    · rw [unbegun] at begins
      cases begins
    · rw [served] at firq
      cases firq
  have poked (m : Monitor) (address : UInt16) (value : UInt8) :
      m.Discloses (.poke address value) := rfl
  exact (trace_shows_registers awakened awakened).2.2.1 [.step] [.poke 0x3000 0x12, .step]
    ⟨discloses _ (by decide +kernel), trivial⟩
    ⟨poked _ _ _, discloses _ (by decide +kernel), trivial⟩ (by decide +kernel)

/-- A SYNC wait in front of CWAI, with both interrupts masked. -/
def drowsing : Monitor :=
  let m := blank.setBus (blank.bus.pokeBytes 0x0000 [0x3C, 0xFF])
  m.setCore (m.core.setWait .syncWait)

/-- If IRQ is raised, the step executes CWAI out of the wait, and no trace line tells of it. -/
theorem trace_misses_cwai : ¬ ∀ (m n : Monitor) (calls others : List Call),
    m.core.regs = n.core.regs →
    (m.listening.afterCalls calls).received = (n.listening.afterCalls others).received →
      ∃ listed : List Registers, Lingers m.core.regs listed (m.listening.registerFiles calls) ∧
        Lingers n.core.regs listed (n.listening.registerFiles others) := by
  intro shows
  have kept (m : Monitor) : (m.setCore (m.core.setLine .irq true)).core.regs = m.core.regs := rfl
  obtain ⟨listed, first, second⟩ := shows (drowsing.setCore (drowsing.core.setLine .irq true))
    drowsing [.step] [.step] (kept drowsing) (by decide +kernel)
  have last := first.getLastD_eq
  rw [kept, ← second.getLastD_eq] at last
  exact absurd (congrArg Registers.s last) (by decide +kernel)

end Monitor
end Sim6809
