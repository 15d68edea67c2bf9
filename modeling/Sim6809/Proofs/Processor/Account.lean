import Sim6809.Proofs.Processor.Step

/-!
The counters. A step that succeeds is counted once, with the cycles that it gives, whichever of its
endings it takes; a step that fails is not counted. No phase before the ending touches the counters.
-/
namespace Sim6809.Core

/-- Equal counts of cycles and of executed steps. -/
def SameCounts (c d : Core) : Prop :=
  d.cpu.cycles = c.cpu.cycles ∧ d.cpu.executed = c.cpu.executed

/-- The counts after a step, given what became of it. -/
def Counted (c : Core) : Except Fault Nat × Core → Prop
  | (.ok cycles, d) =>
      d.cpu.cycles = c.cpu.cycles + cycles ∧ d.cpu.executed = c.cpu.executed + 1
  | (.error _, d) => SameCounts c d

/-- No primitive of an instruction touches the counters. -/
theorem sameCounts_congruence (e : Core) : Congruence fun c d => c = d ∧ SameCounts e d where
  regs r := congrArg Core.regs r.1
  setRegs r regs := ⟨congrArg (·.setRegs regs) r.1, r.2⟩
  setEa r ea := ⟨congrArg (·.setEa ea) r.1, r.2⟩
  setWait r wait := ⟨congrArg (·.setWait wait) r.1, r.2⟩
  addRecord r level text _ := ⟨congrArg (·.addRecord level text) r.1, r.2⟩
  readByte r address := by
    obtain ⟨rfl, same⟩ := r
    exact ⟨rfl, rfl, same⟩
  writeByte r address value := ⟨congrArg (·.writeByte address value) r.1, r.2⟩

variable {c d : Core}

theorem SameCounts.counted (h : SameCounts c d) {result : Except Fault Nat × Core}
    (counted : d.Counted result) : c.Counted result := by
  obtain ⟨answer, e⟩ := result
  cases answer with
  | ok cycles => exact ⟨counted.1.trans (by rw [h.1]), counted.2.trans (by rw [h.2])⟩
  | error fault => exact ⟨counted.1.trans h.1, counted.2.trans h.2⟩

theorem account_counted (c : Core) (cycles : Nat) : c.Counted (.ok cycles, c.account cycles) :=
  ⟨rfl, rfl⟩

theorem enter_counts (c : Core) (line : InterruptLine) : SameCounts c (c.enter line) := by
  have law := sameCounts_congruence c
  have pushed : SameCounts c (c.pushFrame line) := (law.pushFrame ⟨rfl, rfl, rfl⟩ rfl line).2
  rw [enter_eq]
  refine (law.jumpThrough ⟨rfl, ?_⟩ line).2
  cases line with
  | nmi => exact pushed
  | irq => exact pushed
  | firq => exact pushed

theorem releaseSync_counts (c : Core) : SameCounts c c.releaseSync := by
  unfold releaseSync
  split
  · exact ⟨rfl, rfl⟩
  · exact ⟨rfl, rfl⟩

theorem perform_counts (c : Core) : SameCounts c c.perform.2 :=
  ((sameCounts_congruence c).perform ⟨rfl, rfl, rfl⟩).2.2

/-- Only the end of a step counts it. -/
theorem conclude_counted (c : Core) (spent : Nat) {performed : Except Fault Nat × Core}
    (same : SameCounts c performed.2) : c.Counted (c.conclude spent performed) := by
  obtain ⟨answer, d⟩ := performed
  cases answer with
  | ok cycles => exact same.counted (d.account_counted (spent + cycles))
  | error fault => exact same

theorem proceed_counted (c : Core) (spent : Nat) : c.Counted (c.proceed spent) := by
  apply c.releaseSync_counts.counted
  rw [proceed_eq]
  split
  · exact account_counted _ _
  · exact conclude_counted _ _ (perform_counts _)

/-- A step that succeeds counts itself and the cycles that it gives, and one that fails counts
nothing, not even the cycles of an interrupt that it has entered. -/
theorem step_counted (c : Core) : c.Counted c.step := by
  have applied : SameCounts c c.applyRequests := ⟨rfl, rfl⟩
  apply applied.counted
  rw [step_eq_finish]
  unfold admitted
  cases c.applyRequests.cpu.admission? with
  | none => exact proceed_counted _ 0
  | some line =>
      apply (c.applyRequests.enter_counts line).counted
      simp only [finish]
      split
      · exact proceed_counted _ _
      · exact account_counted _ _

end Sim6809.Core
