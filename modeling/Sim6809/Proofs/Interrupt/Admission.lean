import Mathlib.Tactic.SplitIfs
import Sim6809.Proofs.Interrupt.Stimulus

/-!
Admission of interrupts over whole runs. A step serves the first of NMI, IRQ and FIRQ that is asserted
and not masked, and a served IRQ or FIRQ gives up its latch. So a request is served once: it stays
latched until then, and a second service of its line takes a second request.
-/
namespace Sim6809.Core

/-- The latches and the count of interrupts are out of reach of the instructions. -/
theorem stable_lines (latches : Latches) (count : Nat) :
    Stable fun c => c.cpu.latches = latches ∧ c.cpu.interrupts = count where
  setRegs p _ := p
  setEa p _ := p
  setWait p _ := p
  addRecord p _ _ _ := p
  readByte p _ := p
  writeByte p _ _ := p
  account p _ := p

theorem acknowledge_lines (c : Core) (line : InterruptLine) :
    (c.acknowledge line).cpu.latches = c.cpu.latches.served (some line) ∧
      (c.acknowledge line).cpu.interrupts = c.cpu.interrupts := by
  cases line with
  | nmi => exact ⟨rfl, rfl⟩
  | irq => exact ⟨rfl, rfl⟩
  | firq => exact ⟨rfl, rfl⟩

theorem enter_lines (c : Core) (line : InterruptLine) :
    (c.enter line).cpu.latches = c.cpu.latches.served (some line) ∧
      (c.enter line).cpu.interrupts = c.cpu.interrupts + 1 := by
  have pushed := (stable_lines c.cpu.latches c.cpu.interrupts).pushFrame ⟨rfl, rfl⟩ line
  rw [enter_eq]
  apply (stable_lines _ _).jumpThrough
  obtain ⟨latches, count⟩ := acknowledge_lines (((c.pushFrame line).setFlags
    (c.pushFrame line).regs.cc.maskInterrupts).setWait .running).countInterrupt line
  constructor
  · rw [latches]
    exact congrArg (·.served (some line)) pushed.1
  · rw [count]
    exact congrArg (· + 1) pushed.2

theorem proceed_lines (c : Core) (spent : Nat) :
    (c.proceed spent).2.cpu.latches = c.cpu.latches ∧
      (c.proceed spent).2.cpu.interrupts = c.cpu.interrupts :=
  (stable_lines c.cpu.latches c.cpu.interrupts).proceed ⟨rfl, rfl⟩ spent

/-- What a step does to the lines, whether or not its instruction fails. -/
theorem step_lines (c : Core) :
    c.step.2.cpu.latches = (c.cpu.latches.applyAll c.bus.requests).served (c.serves? .step) ∧
      c.step.2.cpu.interrupts = c.cpu.interrupts + (c.serves? .step).toList.length := by
  rw [serves?_step, step_eq_finish, ← applyRequests_latches]
  unfold admitted
  cases c.applyRequests.cpu.admission? with
  | none => exact proceed_lines c.applyRequests 0
  | some line =>
      have entered := enter_lines c.applyRequests line
      simp only [finish]
      split
      · have proceeded := proceed_lines (c.applyRequests.enter line)
          (entryCycles c.applyRequests.cpu.wait line)
        exact ⟨proceeded.1.trans entered.1, proceeded.2.trans entered.2⟩
      · exact entered

theorem after_isSet (c : Core) (stimulus : Stimulus) (line : InterruptLine) :
    (c.after stimulus).cpu.latches.isSet line =
      ((c.cpu.latches.applyAll (c.carriedOut stimulus)).isSet line &&
        (line == .nmi || c.serves? stimulus != some line)) := by
  cases stimulus with
  | step => exact (congrArg (·.isSet line) (step_lines c).1).trans (Latches.isSet_served _ _ _)
  | change request => simp [after, carriedOut, serves?, setLine, Latches.applyAll, Latches.apply]
  | queue request => simp [after, carriedOut, serves?, Latches.applyAll]

theorem after_interrupts (c : Core) (stimulus : Stimulus) :
    (c.after stimulus).cpu.interrupts =
      c.cpu.interrupts + (c.serves? stimulus).toList.length := by
  cases stimulus with
  | step => exact (step_lines c).2
  | change request => rfl
  | queue request => rfl

/-- The admission of one step, in terms of the latches once the queue is carried out and of the
masks. -/
structure ServesByPriority (c : Core) (latches : Latches) (flags : Flags) : Prop where
  nmi : c.serves? .step = some .nmi ↔ latches.nmi = true
  irq : c.serves? .step = some .irq ↔
    latches.nmi = false ∧ latches.irq = true ∧ flags.irqMask = false
  firq : c.serves? .step = some .firq ↔
    latches.nmi = false ∧ ¬ (latches.irq = true ∧ flags.irqMask = false) ∧
      latches.firq = true ∧ flags.firqMask = false
  none : c.serves? .step = none ↔
    latches.nmi = false ∧ ¬ (latches.irq = true ∧ flags.irqMask = false) ∧
      ¬ (latches.firq = true ∧ flags.firqMask = false)
  /-- To serve a line is to enter its interrupt, which ends the step for NMI and IRQ. -/
  entry (line : InterruptLine) : c.serves? .step = some line →
    c.step = finish (some (line, entryCycles c.cpu.wait line), c.applyRequests.enter line)
  idle : c.serves? .step = Option.none → c.step = c.applyRequests.proceed 0
  count : c.step.2.cpu.interrupts =
    c.cpu.interrupts + if (c.serves? .step).isSome then 1 else 0
  cleared (line : InterruptLine) : c.step.2.cpu.latches.isSet line =
    (latches.isSet line && (line == .nmi || c.serves? .step != some line))

theorem servesByPriority (c : Core) :
    c.ServesByPriority (c.cpu.latches.applyAll c.bus.requests) c.regs.cc := by
  have admission : c.serves? .step =
      if (c.cpu.latches.applyAll c.bus.requests).nmi then some .nmi
      else if (c.cpu.latches.applyAll c.bus.requests).irq && !c.regs.cc.irqMask then some .irq
      else if (c.cpu.latches.applyAll c.bus.requests).firq && !c.regs.cc.firqMask then some .firq
      else none := serves?_step c
  refine ⟨?_, ?_, ?_, ?_, ?_, ?_, ?_, after_isSet c .step⟩
  · rw [admission]
    split_ifs <;> simp_all
  · rw [admission]
    split_ifs <;> simp_all
  · rw [admission]
    split_ifs <;> simp_all
  · rw [admission]
    split_ifs <;> simp_all
  · intro line served
    rw [serves?_step] at served
    rw [step_eq_finish, admitted, served]
    rfl
  · intro unserved
    rw [serves?_step] at unserved
    rw [step_eq_finish, admitted, unserved]
    rfl
  · rw [(step_lines c).2]
    cases c.serves? .step with
    | none => rfl
    | some line => rfl

theorem isSet_of_serves {c : Core} {stimulus : Stimulus} {line : InterruptLine}
    (served : c.serves? stimulus = some line) :
    (c.cpu.latches.applyAll c.bus.requests).isSet line = true := by
  cases stimulus with
  | step =>
      have law := c.servesByPriority
      cases line with
      | nmi => exact law.nmi.mp served
      | irq => exact (law.irq.mp served).2.1
      | firq => exact (law.firq.mp served).2.2.1
  | change request => cases served
  | queue request => cases served

/-- No assertion of a line is latched or waits in the queue. -/
def Unrequested (c : Core) (line : InterruptLine) : Prop :=
  c.cpu.latches.isSet line = false ∧ .assert line ∉ c.bus.requests

theorem Unrequested.not_serves {c : Core} {line : InterruptLine} (h : c.Unrequested line)
    (stimulus : Stimulus) : c.serves? stimulus ≠ some line := by
  intro served
  have raised := isSet_of_serves served
  rw [Latches.isSet_applyAll_eq_false h.1 h.2] at raised
  cases raised

theorem Unrequested.after {c : Core} {line : InterruptLine} (h : c.Unrequested line)
    {stimulus : Stimulus} (unmade : .assert line ∉ c.made stimulus) :
    (c.after stimulus).Unrequested line := by
  cases stimulus with
  | step =>
      refine ⟨?_, unmade⟩
      rw [after_isSet]
      have down : (c.cpu.latches.applyAll (c.carriedOut .step)).isSet line = false :=
        Latches.isSet_applyAll_eq_false h.1 h.2
      rw [down, Bool.false_and]
  | change request =>
      refine ⟨?_, h.2⟩
      rw [after_isSet]
      have down : (c.cpu.latches.applyAll [request]).isSet line = false :=
        Latches.isSet_applyAll_eq_false h.1 unmade
      exact (congrArg (· && _) down).trans (Bool.false_and _)
  | queue request =>
      refine ⟨h.1, ?_⟩
      intro member
      rcases List.mem_append.mp member with old | new
      · exact h.2 old
      · exact unmade new

/-- A served line is not requested any more, unless the step itself brought a new assertion. -/
theorem unrequested_of_serves {c : Core} {stimulus : Stimulus} {line : InterruptLine}
    (maskable : line ≠ .nmi) (served : c.serves? stimulus = some line)
    (unmade : .assert line ∉ c.made stimulus) : (c.after stimulus).Unrequested line := by
  cases stimulus with
  | step =>
      refine ⟨?_, unmade⟩
      rw [after_isSet, served]
      simp [maskable]
  | change request => cases served
  | queue request => cases served

variable (start : Core) (run : Nat → Stimulus) {line : InterruptLine} {m n : Nat}

/-- An asserted line stays latched until it is dropped or, but for NMI, served. -/
theorem latched_until (hmn : m ≤ n)
    (latched : (start.trajectory run m).cpu.latches.isSet line = true)
    (kept : ∀ k, m ≤ k → k < n → .deassert line ∉ (start.trajectory run k).carriedOut (run k) ∧
      (line ≠ .nmi → (start.trajectory run k).serves? (run k) ≠ some line)) :
    (start.trajectory run n).cpu.latches.isSet line = true := by
  induction hmn with
  | refl => exact latched
  | @step n hmn ih =>
      have up := ih fun k from_m below => kept k from_m (Nat.lt_succ_of_lt below)
      obtain ⟨undropped, unserved⟩ := kept n hmn (Nat.lt_succ_self n)
      have carried := Latches.isSet_applyAll_eq_true up undropped
      change ((start.trajectory run n).after (run n)).cpu.latches.isSet line = true
      rw [after_isSet, carried, Bool.true_and]
      by_cases h : line = .nmi
      · simp [h]
      · simp [unserved h]

/-- After its service a line is not requested until a stimulus asserts it. -/
theorem unrequested_until (hmn : m < n) (maskable : line ≠ .nmi)
    (served : (start.trajectory run m).serves? (run m) = some line)
    (unmade : ∀ k, m ≤ k → k < n → .assert line ∉ (start.trajectory run k).made (run k)) :
    (start.trajectory run n).Unrequested line := by
  induction hmn with
  | refl => exact unrequested_of_serves maskable served (unmade m m.le_refl m.lt_succ_self)
  | @step n hmn ih =>
      have before := ih fun k from_m below => unmade k from_m (Nat.lt_succ_of_lt below)
      exact before.after (unmade n (Nat.le_of_succ_le hmn) n.lt_succ_self)

/-- Two services of a maskable line have an assertion between them. -/
theorem asserted_between (hmn : m < n) (maskable : line ≠ .nmi)
    (first : (start.trajectory run m).serves? (run m) = some line)
    (second : (start.trajectory run n).serves? (run n) = some line) :
    ∃ k, m ≤ k ∧ k < n ∧ .assert line ∈ (start.trajectory run k).made (run k) := by
  apply Classical.byContradiction
  intro none_made
  have unmade : ∀ k, m ≤ k → k < n →
      .assert line ∉ (start.trajectory run k).made (run k) :=
    fun k from_m below asserted => none_made ⟨k, from_m, below, asserted⟩
  exact (unrequested_until start run hmn maskable first unmade).not_serves (run n) second

/-- Along every run each step admits by priority and mask, interrupts are counted as they are
served, asserted lines stay latched until they are dropped or served, and no request is served
twice. -/
theorem admission_over_runs :
    (∀ n, run n = .step → (start.trajectory run n).ServesByPriority
      ((start.trajectory run n).cpu.latches.applyAll (start.trajectory run n).bus.requests)
      (start.trajectory run n).regs.cc) ∧
    (∀ n, (start.trajectory run (n + 1)).cpu.interrupts =
      (start.trajectory run n).cpu.interrupts +
        if ((start.trajectory run n).serves? (run n)).isSome then 1 else 0) ∧
    (∀ line m n, m ≤ n → (start.trajectory run m).cpu.latches.isSet line = true →
      (∀ k, m ≤ k → k < n → .deassert line ∉ (start.trajectory run k).carriedOut (run k) ∧
        (line ≠ .nmi → (start.trajectory run k).serves? (run k) ≠ some line)) →
      (start.trajectory run n).cpu.latches.isSet line = true) ∧
    (∀ line m n, line ≠ .nmi → m < n →
      (start.trajectory run m).serves? (run m) = some line →
      (start.trajectory run n).serves? (run n) = some line →
      ∃ k, m ≤ k ∧ k < n ∧ .assert line ∈ (start.trajectory run k).made (run k)) := by
  refine ⟨?_, ?_, ?_, ?_⟩
  · intro n _
    exact servesByPriority _
  · intro n
    have counted := after_interrupts (start.trajectory run n) (run n)
    change ((start.trajectory run n).after (run n)).cpu.interrupts = _
    cases h : (start.trajectory run n).serves? (run n) with
    | none => simpa [h] using counted
    | some line => simpa [h] using counted
  · intro line m n hmn latched kept
    exact latched_until start run hmn latched kept
  · intro line m n maskable hmn first second
    exact asserted_between start run hmn maskable first second

end Sim6809.Core
