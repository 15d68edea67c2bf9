import Sim6809.Proofs.Interrupt.Admission

/-!
The latest request for a line decides its level. A request in the queue stands back until the next
step carries out the queue, so it also decides against what changes the line at once while it waits:
a change from outside, or the service of the line.
-/
namespace Sim6809

namespace LineRequest

/-- The level that a request asks for a line, if it is for that line. -/
def levelFor? (request : LineRequest) (line : InterruptLine) : Option Bool :=
  if request.line = line then some request.level else none

/-- The level that the latest of some requests asks for a line, the oldest request being first. -/
def latest? (requests : List LineRequest) (line : InterruptLine) : Option Bool :=
  (requests.filterMap (·.levelFor? line)).getLast?

theorem latest?_append (early late : List LineRequest) (line : InterruptLine) :
    latest? (early ++ late) line = (latest? late line).or (latest? early line) := by
  unfold latest?
  rw [List.filterMap_append, List.getLast?_append]

theorem latest?_single (request : LineRequest) (line : InterruptLine) :
    latest? [request] line = request.levelFor? line := by
  cases asked : request.levelFor? line with
  | none => simp [latest?, asked]
  | some level => simp [latest?, asked]

end LineRequest

open LineRequest

theorem Latches.isSet_applyAll (latches : Latches) (requests : List LineRequest)
    (line : InterruptLine) :
    (latches.applyAll requests).isSet line =
      (latest? requests line).getD (latches.isSet line) := by
  induction requests generalizing latches with
  | nil => rfl
  | cons request requests ih =>
      change ((latches.apply request).applyAll requests).isSet line = _
      rw [ih, isSet_apply, ← List.singleton_append, latest?_append, latest?_single, levelFor?]
      cases latest? requests line with
      | some level => rfl
      | none =>
          by_cases same : request.line = line
          · rw [if_pos same, if_pos same.symm]
            rfl
          · rw [if_neg same, if_neg (Ne.symm same)]
            rfl

namespace Bus

/-- The bus has got no request but behind those given. -/
def Extends (requests : List LineRequest) (b : Bus) : Prop := requests <+: b.requests

variable {requests : List LineRequest} {b : Bus}

theorem Extends.requestLine (h : Extends requests b) (request : LineRequest) :
    Extends requests (b.requestLine request) :=
  h.trans (List.prefix_append _ _)

theorem Extends.settle (h : Extends requests b) (reaction : Reaction) :
    Extends requests (b.settle reaction) :=
  h.trans (List.prefix_append _ _)

theorem Extends.cpuRead (h : Extends requests b) (address : UInt16) :
    Extends requests (b.cpuRead address).2 := by
  dsimp only [Bus.cpuRead]
  split
  · exact h
  · exact h.settle _

theorem Extends.cpuWrite (h : Extends requests b) (address : UInt16) (value : UInt8) :
    Extends requests (b.cpuWrite address value) := by
  unfold Bus.cpuWrite
  split
  · exact h
  · rename_i handler _
    cases handler with
    | hosted react =>
        dsimp only [handleWrite]
        split
        · exact h.settle _
        · exact h.settle _
    | console => exact h
    | timerStatus =>
        dsimp only [handleWrite]
        split
        · exact h
        · exact Extends.requestLine h _
    | timerControl => exact h

end Bus

namespace Core

/-- Whatever runs after the queue is carried out only adds to the queue. -/
theorem extends_stable (requests : List LineRequest) :
    Stable fun c => c.bus.Extends requests where
  setRegs h _ := h
  setEa h _ := h
  setWait h _ := h
  addRecord h _ _ _ := h
  readByte h address := h.cpuRead address
  writeByte h address value := h.cpuWrite address value
  account h _ := h

/-- The level at which a step finds a line, once the queue is carried out. -/
def standing (c : Core) (line : InterruptLine) : Bool := c.applyRequests.cpu.latches.isSet line

theorem standing_eq (c : Core) (line : InterruptLine) :
    c.standing line = (latest? c.bus.requests line).getD (c.cpu.latches.isSet line) :=
  Latches.isSet_applyAll _ _ _

/-- The step serves a line and so clears its latch. -/
def clears (c : Core) (line : InterruptLine) : Bool := line != .nmi && c.serves? .step == some line

/-- The requests that handlers make in a step before its service of a line clears the latch. -/
def madeBeforeClearing (c : Core) (line : InterruptLine) : List LineRequest :=
  (c.applyRequests.pushFrame line).bus.requests

/-- The requests that handlers make in a step after its service of a line has cleared the latch. -/
def madeAfterClearing (c : Core) (line : InterruptLine) : List LineRequest :=
  (c.made .step).drop (c.madeBeforeClearing line).length

theorem made_of_serves {c : Core} {line : InterruptLine} (served : c.serves? .step = some line) :
    c.made .step = c.madeBeforeClearing line ++ c.madeAfterClearing line := by
  have stable := extends_stable (c.madeBeforeClearing line)
  have pushed : (c.applyRequests.pushFrame line).bus.Extends (c.madeBeforeClearing line) :=
    List.prefix_refl _
  have entered : (c.applyRequests.enter line).bus.Extends (c.madeBeforeClearing line) := by
    rw [enter_eq]
    apply stable.jumpThrough
    cases line with
    | nmi => exact pushed
    | irq => exact pushed
    | firq => exact pushed
  have stepped : c.step.2.bus.Extends (c.madeBeforeClearing line) := by
    rw [c.servesByPriority.entry line served, finish]
    split
    · exact stable.proceed entered _
    · exact entered
  obtain ⟨later, made⟩ := stepped
  have made : c.made .step = c.madeBeforeClearing line ++ later := made.symm
  rw [madeAfterClearing, made, List.drop_left]

/-- The level that a stimulus asks for a line at the latest: by a request that is made in it, or by
the clearing of the latch if no request comes after that. -/
def asks? (c : Core) (line : InterruptLine) : Stimulus → Option Bool
  | .step =>
    if c.clears line then (latest? (c.madeAfterClearing line) line).or (some false)
    else latest? (c.made .step) line
  | .change request => request.levelFor? line
  | .queue request => request.levelFor? line

/-- The level that a waiting request asks for a line while a stimulus changes the line at once. -/
def overruling? (c : Core) (line : InterruptLine) : Stimulus → Option Bool
  | .step =>
    if c.clears line && (latest? (c.madeAfterClearing line) line).isNone then
      latest? (c.madeBeforeClearing line) line
    else none
  | .change _ => latest? c.bus.requests line
  | .queue _ => none

theorem serves_of_clears {c : Core} {line : InterruptLine} (clears : c.clears line = true) :
    c.serves? .step = some line :=
  beq_iff_eq.mp ((Bool.and_eq_true _ _).mp clears).2

theorem standing_step (c : Core) (line : InterruptLine) : c.step.2.standing line =
    (latest? (c.made .step) line).getD (c.standing line && !c.clears line) := by
  have kept : (!c.clears line) = (line == .nmi || c.serves? .step != some line) := by
    unfold clears bne
    rw [Bool.not_and, Bool.not_not]
  rw [standing_eq, kept]
  exact congrArg (Option.getD _) (after_isSet c .step line)

theorem standing_change (c : Core) (request : LineRequest) (line : InterruptLine) :
    (c.after (.change request)).standing line = (latest? c.bus.requests line).getD
      ((request.levelFor? line).getD (c.cpu.latches.isSet line)) := by
  have changed : (c.after (.change request)).cpu.latches.isSet line =
      (request.levelFor? line).getD (c.cpu.latches.isSet line) := by
    rw [← latest?_single]
    exact Latches.isSet_applyAll _ [request] line
  rw [standing_eq, changed]
  rfl

theorem standing_queue (c : Core) (request : LineRequest) (line : InterruptLine) :
    (c.after (.queue request)).standing line =
      (request.levelFor? line).getD (c.standing line) := by
  have queued : (c.after (.queue request)).standing line =
      (latest? (c.bus.requests ++ [request]) line).getD (c.cpu.latches.isSet line) :=
    standing_eq _ line
  rw [queued, latest?_append, latest?_single, standing_eq]
  cases request.levelFor? line with
  | none => rfl
  | some level => rfl

/-- A stimulus leaves a line at the level that it asks for at the latest, or at the one that a
request asks for that waits meanwhile. -/
theorem standing_after (c : Core) (line : InterruptLine) (stimulus : Stimulus) :
    (c.after stimulus).standing line = match c.asks? line stimulus with
      | some level => (c.overruling? line stimulus).getD level
      | none => c.standing line := by
  cases stimulus with
  | step =>
      refine (standing_step c line).trans ?_
      unfold asks? overruling?
      cases clears : c.clears line with
      | false =>
          rw [Bool.not_false, Bool.and_true]
          cases latest? (c.made .step) line with
          | none => rfl
          | some level => rfl
      | true =>
          -- What is asked for behind the clearing comes later than the clearing itself.
          rw [made_of_serves (serves_of_clears clears), latest?_append]
          cases latest? (c.madeAfterClearing line) line with
          | some level => rfl
          | none =>
              rw [Bool.not_true, Bool.and_false]
              rfl
  | change request =>
      refine (standing_change c request line).trans ?_
      dsimp only [asks?, overruling?]
      cases request.levelFor? line with
      | none => exact (standing_eq c line).symm
      | some level => rfl
  | queue request =>
      refine (standing_queue c request line).trans ?_
      dsimp only [asks?, overruling?]
      cases request.levelFor? line with
      | none => rfl
      | some level => rfl

variable (start : Core) (run : Nat → Stimulus) {line : InterruptLine}

/-- What no stimulus asks for stays as it is. -/
theorem standing_of_unasked {m n : Nat} (hmn : m ≤ n)
    (unasked : ∀ k, m ≤ k → k < n → (start.trajectory run k).asks? line (run k) = none) :
    (start.trajectory run n).standing line = (start.trajectory run m).standing line := by
  induction hmn with
  | refl => rfl
  | @step n hmn ih =>
      have before := ih fun k from_m below => unasked k from_m (Nat.lt_succ_of_lt below)
      change ((start.trajectory run n).after (run n)).standing line = _
      rw [standing_after, unasked n hmn n.lt_succ_self]
      exact before

/-- Along every run, each step finds each line at the level that was asked for it at the latest, by
a change at once, a request to the queue, a handler's request or the clearing at its service. Only
what took effect at once while a request for the line waited in the queue is overruled by the latest
such request. A line for which nothing was asked is as it was at the start. -/
theorem latest_request_wins (line : InterruptLine) (n : Nat) :
    (∀ k < n, ∀ level, (start.trajectory run k).asks? line (run k) = some level →
      (∀ j, k < j → j < n → (start.trajectory run j).asks? line (run j) = none) →
      (start.trajectory run n).applyRequests.cpu.latches.isSet line =
        ((start.trajectory run k).overruling? line (run k)).getD level) ∧
    ((∀ k < n, (start.trajectory run k).asks? line (run k) = none) →
      (start.trajectory run n).applyRequests.cpu.latches.isSet line =
        start.applyRequests.cpu.latches.isSet line) := by
  refine ⟨?_, ?_⟩
  · intro k below level asked silent
    have since : (start.trajectory run n).standing line =
        ((start.trajectory run k).after (run k)).standing line :=
      standing_of_unasked start run below silent
    refine since.trans ?_
    rw [standing_after, asked]
  · intro silent
    exact standing_of_unasked start run n.zero_le fun k _ below => silent k below

/-- A run in which IRQ is asserted by the queue and then deasserted at once. -/
def queuedThenChanged : Nat → Stimulus
  | 0 => .queue (.assert .irq)
  | 1 => .change (.deassert .irq)
  | _ => .step

theorem queuedThenChanged_raised :
    (Core.trajectory ⟨.zero, .blank⟩ queuedThenChanged 1).asks? .irq (queuedThenChanged 1) =
        some false ∧
      (Core.trajectory ⟨.zero, .blank⟩ queuedThenChanged 2).applyRequests.cpu.latches.isSet .irq =
        true := by
  refine ⟨rfl, ?_⟩
  exact (latest_request_wins ⟨.zero, .blank⟩ queuedThenChanged .irq 2).1 1 (by decide) false rfl
    fun j later earlier => absurd (Nat.lt_of_lt_of_le earlier later) (Nat.lt_irrefl j)

/-- A request that waits in the queue wins against a later change at once. -/
theorem waiting_request_wins : ¬ ∀ (start : Core) (run : Nat → Stimulus) (line : InterruptLine)
    (n k : Nat) (level : Bool), k < n →
    (start.trajectory run k).asks? line (run k) = some level →
    (∀ j, k < j → j < n → (start.trajectory run j).asks? line (run j) = none) →
    (start.trajectory run n).applyRequests.cpu.latches.isSet line = level := by
  intro latest_wins
  have down := latest_wins ⟨.zero, .blank⟩ queuedThenChanged .irq 2 1 false (by decide) rfl
    fun j later earlier => absurd (Nat.lt_of_lt_of_le earlier later) (Nat.lt_irrefl j)
  have up : (Core.trajectory ⟨.zero, .blank⟩ queuedThenChanged 2).applyRequests.cpu.latches.isSet
      .irq = true := rfl
  rw [up] at down
  cases down

end Core
end Sim6809
