import Sim6809.Proofs.Board.Setup
import Sim6809.Proofs.Interrupt.Wait
import Sim6809.Proofs.Listing.Agreement

/-!
What the monitor tells of a step: the operation that was at the program counter before it, and a
trace line with the text of that operation. They show the instruction that a running processor
executes unless an interrupt is admitted, since the operation is read before that is decided.
-/
namespace Sim6809

/-- The texts of the trace records. -/
def Log.traceLines (log : Log) : List String :=
  (log.toList.filter (·.level = .trace)).map Record.text

theorem Log.traceLines_push (log : Log) (record : Record) :
    Log.traceLines (log.push record) =
      log.traceLines ++ if record.level = .trace then [record.text] else [] := by
  unfold Log.traceLines
  rw [Array.toList_push, List.filter_append, List.map_append]
  split
  · rename_i trace
    simp [trace]
  · rename_i other
    simp [other]

/-- Decoding makes no trace record. -/
theorem Log.traceLines_complaints (log : Log) (ops : List Operation) :
    Log.traceLines (log.appendList (ops.filterMap Operation.complaint?)) = log.traceLines := by
  have other : (ops.filterMap Operation.complaint?).filter (·.level = .trace) = [] := by
    rw [List.filter_eq_nil_iff]
    intro record member
    obtain ⟨op, _, complaint⟩ := List.mem_filterMap.mp member
    unfold Operation.complaint? at complaint
    split at complaint
    · split at complaint
      · cases complaint
        simp
      · cases complaint
    · cases complaint
  have appended : (log.appendList (ops.filterMap Operation.complaint?)).toList =
      log.toList ++ ops.filterMap Operation.complaint? := Array.toList_appendList
  unfold Log.traceLines
  rw [appended, List.filter_append, other, List.append_nil]

namespace Core

variable {c : Core}

/-- On a bus without handlers the processor makes no trace record. -/
theorem traceLines_stable (lines : List String) :
    StepStable fun c => c.bus.Plain ∧ Log.traceLines c.bus.log = lines where
  setRegs h _ := h
  setEa h _ := h
  setWait h _ := h
  addRecord {c} h level text other := by
    refine ⟨h.1, ?_⟩
    have pushed := Log.traceLines_push c.bus.log ⟨level, text⟩
    rw [if_neg other, List.append_nil] at pushed
    exact pushed.trans h.2
  readByte h address := by
    rw [readByte_of_plain h.1]
    exact h
  writeByte {c} h address value := by
    change (c.bus.cpuWrite address value).Plain ∧
      Log.traceLines (c.bus.cpuWrite address value).log = lines
    rw [h.1.cpuWrite]
    exact h
  account h _ := h
  applyRequests h := h
  dropLine h _ := h
  countInterrupt h := h

/-- A processor that in a step neither serves an interrupt nor begins an instruction goes on waiting. -/
theorem step_waits (idle : c.begins? = none) (unserved : c.serves? .step = none) :
    c.step.2.cpu.isWaiting = true := by
  rw [serves?_step] at unserved
  unfold begins? admitted at idle
  rw [unserved] at idle
  dsimp only at idle
  rw [step_eq_finish, admitted, unserved]
  change (c.applyRequests.proceed 0).2.cpu.isWaiting = true
  rw [proceed_eq]
  split at idle
  · rename_i waiting
    rw [if_pos waiting]
    exact waiting
  · cases idle

end Core

namespace Monitor

variable {m : Monitor} {op? : Option Operation}

/-- The trace lines so far, wherever they go. -/
def traced (m : Monitor) : List String :=
  if m.receiver then m.received.toList else Log.traceLines m.bus.log

theorem traced_addTrace (m : Monitor) (line : String) :
    (m.addTrace line).traced = m.traced ++ [line] := by
  unfold addTrace
  by_cases receiver : m.receiver = true
  · rw [if_pos receiver]
    unfold traced
    rw [if_pos receiver, if_pos receiver, Array.toList_push]
  · have pushed := Log.traceLines_push m.bus.log ⟨.trace, line⟩
    rw [if_neg receiver]
    unfold traced
    rw [if_neg receiver]
    exact (if_neg receiver).trans pushed

theorem traced_setCore {core : Core}
    (kept : Log.traceLines core.bus.log = Log.traceLines m.bus.log) :
    (m.setCore core).traced = m.traced := by
  unfold traced
  change (if m.receiver then m.received.toList else Log.traceLines core.bus.log) = _
  rw [kept]

/-- The monitor as it steps its processor: the decoding may have made a record. -/
def complained (m : Monitor) : Monitor := m.addComplaints m.upcoming?.toList

/-- The text of the operation that a step tells. -/
def upcomingText (m : Monitor) : String := (m.upcoming?.map Operation.line).getD ""

theorem step_of_ok {cycles : Nat} {core : Core}
    (stepped : m.complained.core.step = (.ok cycles, core)) : m.step = (.ok m.upcoming?,
      if m.tracing && !(m.cpu.isWaiting && core.cpu.isWaiting) then
        (m.complained.setCore core).addTrace (traceLine m.upcomingText core.regs)
      else m.complained.setCore core) := by
  unfold complained at stepped ⊢
  dsimp only [step]
  rw [stepped]
  dsimp only
  unfold upcomingText
  cases m.upcoming? with
  | none => exact (apply_ite (Prod.mk _) _ _ _).symm
  | some op => exact (apply_ite (Prod.mk _) _ _ _).symm

/-- A step tells the operation that was at the program counter before it, and traces it unless the
processor goes on waiting. -/
theorem step_traced (plain : m.bus.Plain) (tracing : m.tracing = true)
    (ok : m.step.1 = .ok op?) : op? = m.upcoming? ∧ m.step.2.traced = m.traced ++
      if m.cpu.isWaiting && m.step.2.cpu.isWaiting then []
      else [traceLine m.upcomingText m.step.2.core.regs] := by
  have begun : m.complained.bus.Plain ∧
      Log.traceLines m.complained.bus.log = Log.traceLines m.bus.log :=
    ⟨plain, Log.traceLines_complaints m.bus.log m.upcoming?.toList⟩
  have kept := ((Core.traceLines_stable _).step begun).2
  rcases stepped : m.complained.core.step with ⟨result, core⟩
  rw [stepped] at kept
  have same : (m.complained.setCore core).traced = m.traced := traced_setCore kept
  cases result with
  | error fault =>
      have failed : m.step.1 = .error fault := by
        unfold complained at stepped
        dsimp only [step]
        rw [stepped]
      rw [failed] at ok
      cases ok
  | ok cycles =>
      rw [step_of_ok stepped, tracing, Bool.true_and] at ok ⊢
      refine ⟨(Except.ok.inj ok).symm, ?_⟩
      dsimp only
      cases waits : m.cpu.isWaiting && core.cpu.isWaiting with
      | true =>
          rw [Bool.not_true, if_neg Bool.false_ne_true]
          have still : (m.cpu.isWaiting && (m.complained.setCore core).cpu.isWaiting) = true := waits
          rw [still, if_pos rfl, List.append_nil]
          exact same
      | false =>
          have cpu (line : String) :
              ((m.complained.setCore core).addTrace line).core.cpu = core.cpu :=
            (addTrace_sameState _ line).1.cpu
          rw [Bool.not_false, if_pos rfl, traced_addTrace, same]
          unfold Monitor.cpu Core.regs
          rw [cpu]
          exact congrArg (m.traced ++ ·) (if_neg (Bool.eq_false_iff.mp waits)).symm

/-- What the monitor tells of a step is the instruction that the processor executes in it, as a listing
shows it where it was fetched. One line that begins with its text is traced, and no such line if the
step executes no instruction. -/
structure ReportsExecuted (m : Monitor) (op? : Option Operation) : Prop where
  told : op? = m.core.begins?.map fun d => Operation.decode d.bus.memory m.symbols d.regs.pc
  traced : ∀ op ∈ op?, m.step.2.traced = m.traced ++ [traceLine op.line m.step.2.core.regs]
  silent : op? = none → ∃ lines, m.step.2.traced = m.traced ++ lines ∧
    ∀ line ∈ lines, line = traceLine "" m.step.2.core.regs

/-- A step that begins in a wait tells nothing and traces no instruction. -/
theorem reportsExecuted_waiting (plain : m.bus.Plain) (tracing : m.tracing = true)
    (waiting : m.cpu.isWaiting = true) (idle : m.core.begins? = none)
    (ok : m.step.1 = .ok op?) : op? = none ∧ m.ReportsExecuted op? := by
  obtain ⟨rfl, traced⟩ := step_traced plain tracing ok
  have unseen : m.upcoming? = none := if_pos waiting
  rw [unseen]
  refine ⟨rfl, ?_, (fun _ absent => nomatch absent), ?_⟩
  · rw [idle]
    rfl
  · intro _
    refine ⟨_, traced, ?_⟩
    unfold upcomingText
    rw [unseen]
    split
    · exact nofun
    · intro line member
      exact List.mem_singleton.mp member

theorem upcoming?_running (running : m.cpu.isWaiting = false) :
    m.upcoming? = some (m.disassemble m.pc) :=
  if_neg (Bool.eq_false_iff.mp running)

/-- A step of a running processor traces the operation that was at the program counter before it. -/
theorem traced_running (plain : m.bus.Plain) (tracing : m.tracing = true)
    (running : m.cpu.isWaiting = false) (ok : m.step.1 = .ok op?) :
    op? = some (m.disassemble m.pc) ∧ m.step.2.traced =
      m.traced ++ [traceLine (m.disassemble m.pc).line m.step.2.core.regs] := by
  obtain ⟨rfl, traced⟩ := step_traced plain tracing ok
  have seen := upcoming?_running running
  refine ⟨seen, ?_⟩
  rw [traced, running, upcomingText, seen]
  rfl

/-- With trace lines on and no handlers, a step of a running processor tells and traces the operation
that was at the program counter before it, whether or not it serves an interrupt. If it serves none,
that is the instruction which it executes. A step that begins in a wait and executes no instruction
tells nothing, and traces nothing at all if it serves no interrupt either. -/
theorem step_reports (plain : m.bus.Plain) (tracing : m.tracing = true)
    (ok : m.step.1 = .ok op?) :
    (m.cpu.isWaiting = false →
      op? = some (m.disassemble m.pc) ∧ m.step.2.traced =
        m.traced ++ [traceLine (m.disassemble m.pc).line m.step.2.core.regs] ∧
      (m.core.serves? .step = none → m.ReportsExecuted op? ∧
        m.core.begins? = some m.core.applyRequests ∧ m.core.step = m.core.applyRequests.step ∧
        m.core.applyRequests.CarriesOut (m.disassemble m.pc))) ∧
    (m.cpu.isWaiting = true → m.core.begins? = none →
      op? = none ∧ m.ReportsExecuted op? ∧
      (m.core.serves? .step = none → m.step.2.traced = m.traced)) := by
  refine ⟨?_, ?_⟩
  · intro running
    obtain ⟨rfl, traced⟩ := traced_running plain tracing running ok
    refine ⟨rfl, traced, ?_⟩
    intro unserved
    have awake := Core.isWaiting_eq_false_iff.mp running
    have begun := Core.begins?_of_unserved awake unserved
    refine ⟨⟨?_, ?_, nofun⟩, begun, m.core.step_applyRequests.symm, ?_⟩
    · rw [begun]
      rfl
    · rintro op ⟨⟩
      exact traced
    · have stepped := Core.step_of_quiet (c := m.core.applyRequests) awake rfl
        ((Core.serves?_step _).symm.trans unserved)
      exact (Core.carriesOut_listed (c := m.core.applyRequests) plain stepped).withLabels m.symbols
  · intro waiting idle
    obtain ⟨told, reported⟩ := reportsExecuted_waiting plain tracing waiting idle ok
    refine ⟨told, reported, ?_⟩
    intro unserved
    have waits := Core.step_waits idle unserved
    have cpu : m.step.2.cpu = m.core.step.2.cpu := m.step_core.2.1.cpu
    rw [(step_traced plain tracing ok).2, waiting, cpu, waits]
    exact List.append_nil _

/-- The long call, with the processor in a CWAI wait. -/
def wrappedCallAsleep : Monitor := wrappedCall.setCore (wrappedCall.core.setWait .cwaiWait)

theorem wrappedCall_reported :
    wrappedCall.ReportsExecuted (some (wrappedCall.disassemble wrappedCall.pc)) ∧
      wrappedCallAsleep.step.1 = .ok none ∧
      wrappedCallAsleep.step.2.traced = wrappedCallAsleep.traced := by
  have ok : wrappedCall.step.1 = .ok (some (wrappedCall.disassemble wrappedCall.pc)) := by rfl
  have asleep : wrappedCallAsleep.step.1 = .ok none := by rfl
  have called := (step_reports (m := wrappedCall) ⟨rfl, rfl⟩ rfl ok).1 rfl
  have slept := (step_reports (m := wrappedCallAsleep) ⟨rfl, rfl⟩ rfl asleep).2 rfl rfl
  exact ⟨(called.2.2 rfl).1, asleep, slept.2.2 rfl⟩

/-- The long call with IRQ raised, which the processor serves instead. -/
def wrappedCallInterrupted : Monitor :=
  wrappedCall.setCore (wrappedCall.core.setLine .irq true)

theorem interrupted_call_told : ¬ ∀ (m : Monitor) (op? : Option Operation), m.bus.Plain →
    m.tracing = true → m.step.1 = .ok op? → m.ReportsExecuted op? := by
  intro executed
  have ok : wrappedCallInterrupted.step.1 =
      .ok (some (wrappedCall.disassemble wrappedCall.pc)) := by rfl
  have told := (executed wrappedCallInterrupted _ ⟨rfl, rfl⟩ rfl ok).told
  have entered : wrappedCallInterrupted.core.begins? = none := by rfl
  rw [entered] at told
  cases told

end Monitor
end Sim6809
