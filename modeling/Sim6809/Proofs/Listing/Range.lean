import Mathlib.Algebra.GroupWithZero.Nat
import Mathlib.Data.List.Chain
import Sim6809.Proofs.Listing.OwnBytes

/-!
Listings of a stretch of memory. Every operation takes a byte at least, so a listing goes up by each of
them: either it has as many operations as are asked for, or it has come to the top of memory. It can be
cut anywhere and taken up again where its first part ends.
-/
namespace Sim6809

/-! ### Rows of operations -/

namespace Operation

/-- The bytes that operations take together. -/
def span (ops : List Operation) : Nat := (ops.map fun op => op.size.toNat).sum

/-- Each operation begins where the one before it ends, without wrapping at the top of memory. -/
def Contiguous (ops : List Operation) : Prop :=
  ops.IsChain fun op next => next.offset.toNat = op.offset.toNat + op.size.toNat

/-- The operations stand in the order of their addresses, no two at the same one. -/
def Ascending (ops : List Operation) : Prop :=
  ops.Pairwise fun op later => op.offset.toNat < later.offset.toNat

theorem span_cons (op : Operation) (ops : List Operation) :
    span (op :: ops) = op.size.toNat + span ops := by
  unfold span
  rw [List.map_cons, List.sum_cons]

theorem one_le_size (m : Memory) (symbols : SymbolTable) (address : UInt16) :
    1 ≤ (decode m symbols address).size.toNat :=
  Nat.le_trans one_le_length (Nat.le_of_eq toNat_size.symm)

end Operation

/-! ### What a listing consists of -/

namespace Memory

variable (m : Memory) (symbols : SymbolTable)

/-- The operation at an address that a listing has come to. -/
def operationAt (start : Nat) : Operation := Operation.decode m symbols (UInt16.ofNat start)

variable {start count : Nat}

theorem toNat_offset_operationAt (inside : start < size) :
    (m.operationAt symbols start).offset.toNat = start :=
  UInt16.toNat_ofNat_of_lt inside

theorem listing_inside (inside : start < size) (count : Nat) :
    m.listing symbols start (count + 1) = m.operationAt symbols start ::
      m.listing symbols (start + (m.operationAt symbols start).size.toNat) count :=
  if_pos inside

/-- Nothing is listed beyond the top. -/
theorem listing_beyond (beyond : size ≤ start) (count : Nat) : m.listing symbols start count = [] := by
  cases count with
  | zero => rfl
  | succ count => exact if_neg (Nat.not_lt.mpr beyond)

/-- An operation of a listing is the one that is decoded at its address, and that is not below the
start. -/
theorem mem_listing {op : Operation} (member : op ∈ m.listing symbols start count) :
    start ≤ op.offset.toNat ∧ op = Operation.decode m symbols op.offset := by
  induction count generalizing start with
  | zero => cases member
  | succ count ih =>
      rcases Nat.lt_or_ge start size with inside | beyond
      · rw [listing_inside m symbols inside] at member
        rcases List.mem_cons.mp member with rfl | later
        · exact ⟨Nat.le_of_eq (m.toNat_offset_operationAt symbols inside).symm, rfl⟩
        · obtain ⟨behind, decoded⟩ := ih later
          exact ⟨Nat.le_of_add_right_le behind, decoded⟩
      · rw [listing_beyond m symbols beyond] at member
        cases member

theorem head?_listing (inside : start < size) (asked : 0 < count) :
    (m.listing symbols start count).head? = some (m.operationAt symbols start) := by
  obtain ⟨before, rfl⟩ := Nat.exists_eq_add_of_lt asked
  rw [Nat.zero_add, listing_inside m symbols inside, List.head?_cons]

/-- Whatever a listing begins with stands at the start. -/
theorem offset_of_mem_head? {op : Operation}
    (first : op ∈ (m.listing symbols start count).head?) : op.offset.toNat = start := by
  cases count with
  | zero => cases first
  | succ count =>
      rcases Nat.lt_or_ge start size with inside | beyond
      · rw [head?_listing m symbols inside count.succ_pos, Option.mem_some] at first
        rw [← first]
        exact m.toNat_offset_operationAt symbols inside
      · rw [listing_beyond m symbols beyond] at first
        cases first

theorem contiguous_listing (start count : Nat) :
    Operation.Contiguous (m.listing symbols start count) := by
  induction count generalizing start with
  | zero => exact List.IsChain.nil
  | succ count ih =>
      rcases Nat.lt_or_ge start size with inside | beyond
      · rw [listing_inside m symbols inside]
        refine List.isChain_cons.mpr ⟨fun next follows => ?_, ih _⟩
        rw [m.offset_of_mem_head? symbols follows, m.toNat_offset_operationAt symbols inside]
      · rw [listing_beyond m symbols beyond]
        exact List.IsChain.nil

theorem ascending_listing (start count : Nat) :
    Operation.Ascending (m.listing symbols start count) := by
  induction count generalizing start with
  | zero => exact List.Pairwise.nil
  | succ count ih =>
      rcases Nat.lt_or_ge start size with inside | beyond
      · rw [listing_inside m symbols inside]
        refine List.Pairwise.cons (fun later member => ?_) (ih _)
        have behind := (m.mem_listing symbols member).1
        have size : 1 ≤ (m.operationAt symbols start).size.toNat := Operation.one_le_size _ _ _
        rw [m.toNat_offset_operationAt symbols inside]
        omega
      · rw [listing_beyond m symbols beyond]
        exact List.Pairwise.nil

theorem length_listing_le (start count : Nat) : (m.listing symbols start count).length ≤ count := by
  induction count generalizing start with
  | zero => exact Nat.le_refl 0
  | succ count ih =>
      rcases Nat.lt_or_ge start size with inside | beyond
      · rw [listing_inside m symbols inside, List.length_cons]
        exact Nat.succ_le_succ (ih _)
      · rw [listing_beyond m symbols beyond]
        exact Nat.zero_le _

/-- There is room for as many operations as there are bytes up to the top. -/
theorem length_listing_le_room (start count : Nat) :
    (m.listing symbols start count).length ≤ size - start := by
  induction count generalizing start with
  | zero => exact Nat.zero_le _
  | succ count ih =>
      rcases Nat.lt_or_ge start size with inside | beyond
      · rw [listing_inside m symbols inside, List.length_cons]
        have rest := ih (start + (m.operationAt symbols start).size.toNat)
        have size : 1 ≤ (m.operationAt symbols start).size.toNat := Operation.one_le_size _ _ _
        omega
      · rw [listing_beyond m symbols beyond]
        exact Nat.zero_le _

/-- A listing that is shorter than it was asked for has come to the top. -/
theorem size_le_of_short (short : (m.listing symbols start count).length < count) :
    size ≤ start + Operation.span (m.listing symbols start count) := by
  induction count generalizing start with
  | zero => cases short
  | succ count ih =>
      rcases Nat.lt_or_ge start size with inside | beyond
      · rw [listing_inside m symbols inside, List.length_cons] at short
        rw [listing_inside m symbols inside, Operation.span_cons, ← Nat.add_assoc]
        exact ih (Nat.lt_of_succ_lt_succ short)
      · exact Nat.le_add_right_of_le beyond

/-- A listing can be taken up where its first part ends. -/
theorem listing_add (start first more : Nat) :
    m.listing symbols start (first + more) = m.listing symbols start first ++
      m.listing symbols (start + Operation.span (m.listing symbols start first)) more := by
  induction first generalizing start with
  | zero => rw [Nat.zero_add]; rfl
  | succ first ih =>
      rcases Nat.lt_or_ge start size with inside | beyond
      · rw [Nat.add_right_comm, listing_inside m symbols inside, ih,
          listing_inside m symbols inside, Operation.span_cons, ← Nat.add_assoc]
        rfl
      · -- The whole is empty here, and so are both of its parts.
        rw [listing_beyond m symbols beyond, listing_beyond m symbols beyond,
          listing_beyond m symbols (Nat.le_add_right_of_le beyond)]
        rfl

end Memory

/-! ### The listing of a range -/

namespace Monitor

/-- What a listing of at most so many operations from an address on has to be. -/
structure Lists (m : Monitor) (start : UInt16) (count : Nat) (ops : List Operation) : Prop where
  first : 0 < count → ops.head?.map Operation.offset = some start
  contiguous : Operation.Contiguous ops
  ascending : Operation.Ascending ops
  inside : ∀ op ∈ ops, op.offset.toNat < Memory.size
  decoded : ∀ op ∈ ops, op = m.disassemble op.offset
  atMost : ops.length ≤ count
  room : ops.length ≤ Memory.size - start.toNat
  complete : ops.length < count → Memory.size ≤ start.toNat + Operation.span ops

theorem lists_disassembleRange (m : Monitor) (start : UInt16) (count : Nat) :
    m.Lists start count (m.disassembleRange start count) where
  first asked := by
    unfold disassembleRange
    rw [m.memory.head?_listing m.symbols start.toNat_lt asked, Option.map_some]
    exact congrArg some UInt16.ofNat_toNat
  contiguous := m.memory.contiguous_listing m.symbols _ _
  ascending := m.memory.ascending_listing m.symbols _ _
  inside op _ := op.offset.toNat_lt
  decoded _ member := (m.memory.mem_listing m.symbols member).2
  atMost := m.memory.length_listing_le m.symbols _ _
  room := m.memory.length_listing_le_room m.symbols _ _
  complete := m.memory.size_le_of_short m.symbols

/-- The operations that come after a first part. The address behind it may lie beyond the top, and
then there are none. -/
def listedBehind (m : Monitor) (start : UInt16) (first : List Operation) (count : Nat) :
    List Operation :=
  let behind := start.toNat + Operation.span first
  if behind < Memory.size then m.disassembleRange (UInt16.ofNat behind) count else []

theorem listedBehind_eq (m : Monitor) (start : UInt16) (first : List Operation) (count : Nat) :
    m.listedBehind start first count =
      m.memory.listing m.symbols (start.toNat + Operation.span first) count := by
  unfold listedBehind disassembleRange
  dsimp only
  split
  · rename_i inside
    exact congrArg (m.memory.listing m.symbols · count) (UInt16.toNat_ofNat_of_lt inside)
  · rename_i beyond
    exact (m.memory.listing_beyond m.symbols (Nat.not_lt.mp beyond) count).symm

/-- A range lists contiguous operations from its start up, each as it is decoded alone, and fewer
than asked for only at the top of memory. It is a first part of it followed by the range that begins
behind that part. -/
theorem disassembleRange_lists_and_resumes (m : Monitor) (start : UInt16) :
    (∀ count, m.Lists start count (m.disassembleRange start count)) ∧
      ∀ n k, m.disassembleRange start (n + k) = m.disassembleRange start n ++
        m.listedBehind start (m.disassembleRange start n) k := by
  refine ⟨m.lists_disassembleRange start, fun n k => ?_⟩
  rw [listedBehind_eq]
  exact m.memory.listing_add m.symbols start.toNat n k

/-- The last operation may wrap at the top, and nothing is listed behind it. -/
example : let m := blank.setBus (blank.bus.pokeBytes 0xFFFE [0x12, 0xCC])
    (m.disassembleRange 0xFFFE 9).map Operation.offset = [0xFFFE, 0xFFFF] ∧
      Operation.span (m.disassembleRange 0xFFFE 9) = 4 := by
  decide +kernel

end Monitor
end Sim6809
