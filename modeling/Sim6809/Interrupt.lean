/-!
Interrupt lines, requests to change one, and the latches that hold their levels. The latest
request for a line decides its level and leaves the other lines alone.
-/
namespace Sim6809

/-- The three asynchronous interrupt inputs. -/
inductive InterruptLine
  | nmi | irq | firq
  deriving DecidableEq, Repr

def InterruptLine.name : InterruptLine → String
  | nmi => "Nmi"
  | irq => "Irq"
  | firq => "Firq"

inductive LineRequest
  | assert (line : InterruptLine)
  | deassert (line : InterruptLine)
  deriving DecidableEq, Repr

namespace LineRequest

def line : LineRequest → InterruptLine
  | assert l => l
  | deassert l => l

def level : LineRequest → Bool
  | assert _ => true
  | deassert _ => false

end LineRequest

structure Latches where
  nmi : Bool
  irq : Bool
  firq : Bool
  deriving DecidableEq, Repr

namespace Latches

def clear : Latches := ⟨false, false, false⟩

def isSet (latches : Latches) : InterruptLine → Bool
  | .nmi => latches.nmi
  | .irq => latches.irq
  | .firq => latches.firq

def set (latches : Latches) (line : InterruptLine) (level : Bool) : Latches :=
  match line with
  | .nmi => { latches with nmi := level }
  | .irq => { latches with irq := level }
  | .firq => { latches with firq := level }

def any (latches : Latches) : Bool := latches.nmi || latches.irq || latches.firq

def apply (latches : Latches) (request : LineRequest) : Latches :=
  latches.set request.line request.level

/-- The requests of a queue, the oldest first. -/
def applyAll (latches : Latches) (requests : List LineRequest) : Latches :=
  requests.foldl apply latches

def text (latches : Latches) : String :=
  String.ofList [if latches.nmi then 'N' else '-', if latches.irq then 'I' else '-',
    if latches.firq then 'F' else '-']

theorem isSet_set (latches : Latches) (line other : InterruptLine) (level : Bool) :
    (latches.set line level).isSet other = if other = line then level else latches.isSet other := by
  cases line <;> cases other <;> rfl

theorem any_iff (latches : Latches) : latches.any = true ↔ ∃ line, latches.isSet line = true := by
  constructor
  · intro h
    obtain ⟨nmi, irq, firq⟩ := latches
    cases nmi
    · cases irq
      · exact ⟨.firq, by simpa [any, isSet] using h⟩
      · exact ⟨.irq, rfl⟩
    · exact ⟨.nmi, rfl⟩
  · rintro ⟨line, h⟩
    cases line <;> simp_all [isSet, any]

theorem applyAll_append (latches : Latches) (early late : List LineRequest) :
    latches.applyAll (early ++ late) = (latches.applyAll early).applyAll late :=
  List.foldl_append

end Latches
end Sim6809
