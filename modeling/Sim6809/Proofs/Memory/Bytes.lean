import Mathlib.Logic.Basic
import Sim6809.Memory

/-!
Stretches of memory, which may wrap at the top: what a write leaves of them, what is read back from
them, and how two of them are compared byte by byte. What may have been written is kept as a list of
addresses.
-/
namespace Sim6809

namespace Memory

theorem toNat_sub_eq (a b : UInt16) : (b - a).toNat = (b.toNat + (65536 - a.toNat)) % 65536 := by
  rw [UInt16.toNat_sub]
  omega

theorem sub_sub_eq (a b c : UInt16) : a - b - c = a - (b + c) := by
  have ha := a.toNat_lt
  have hb := b.toNat_lt
  have hc := c.toNat_lt
  apply UInt16.toNat_inj.1
  rw [toNat_sub_eq, toNat_sub_eq, toNat_sub_eq, UInt16.toNat_add]
  omega

theorem toNat_add_one (a : UInt16) : (a + 1).toNat = (a.toNat + 1) % 65536 := UInt16.toNat_add a 1

theorem add_ofNat_succ (a : UInt16) (j : Nat) :
    a + UInt16.ofNat (j + 1) = a + 1 + UInt16.ofNat j := by
  rw [UInt16.ofNat_add, UInt16.add_comm (UInt16.ofNat j), UInt16.add_assoc]
  rfl

/-- An address that lies beyond an interval lies beyond the rest of the interval. -/
theorem outside_rest {a b : UInt16} {n : Nat} (outside : n + 1 ≤ (b - a).toNat) :
    a ≠ b ∧ n ≤ (b - (a + 1)).toNat := by
  have base := a.toNat_lt
  have target := b.toNat_lt
  rw [toNat_sub_eq] at outside ⊢
  rw [toNat_add_one]
  constructor
  · rintro rfl
    omega
  · omega

/-- A write outside of an interval of addresses, which may wrap, leaves its bytes. -/
theorem readBytes_write {a b : UInt16} {n : Nat} (m : Memory) (value : UInt8)
    (outside : n ≤ (b - a).toNat) : (m.write b value).readBytes a n = m.readBytes a n := by
  induction n generalizing a with
  | zero => rfl
  | succ n ih =>
      obtain ⟨other, rest⟩ := outside_rest outside
      rw [readBytes, readBytes, read_write_of_ne _ _ other, ih rest]

theorem read_writeBytes {a b : UInt16} {bytes : List UInt8} (m : Memory)
    (outside : bytes.length ≤ (b - a).toNat) : (m.writeBytes a bytes).read b = m.read b := by
  induction bytes generalizing m a with
  | nil => rfl
  | cons byte bytes ih =>
      obtain ⟨other, rest⟩ := outside_rest outside
      rw [writeBytes, ih _ rest, read_write_of_ne _ _ (Ne.symm other)]

theorem write_comm {a b : UInt16} (m : Memory) (v w : UInt8) (other : a ≠ b) :
    (m.write a v).write b w = (m.write b w).write a v := by
  apply ext
  intro address
  rw [read_write, read_write, read_write, read_write]
  split
  · rename_i same
    rw [if_neg (same ▸ other.symm)]
  · rfl

/-- A write outside of a stretch goes through before or after it. -/
theorem writeBytes_write {a b : UInt16} {bytes : List UInt8} (m : Memory) (value : UInt8)
    (outside : bytes.length ≤ (b - a).toNat) :
    (m.writeBytes a bytes).write b value = (m.write b value).writeBytes a bytes := by
  induction bytes generalizing m a with
  | nil => rfl
  | cons byte bytes ih =>
      obtain ⟨other, rest⟩ := outside_rest outside
      rw [writeBytes, writeBytes, ih _ rest, write_comm m byte value other]

/-- Bytes that are written directly below others make one stretch with them. -/
theorem writeBytes_below {a : UInt16} {bytes behind : List UInt8} (m : Memory)
    (small : bytes.length + behind.length ≤ 65536) :
    (m.writeBytes (a + UInt16.ofNat bytes.length) behind).writeBytes a bytes =
      m.writeBytes a (bytes ++ behind) := by
  induction bytes generalizing m a with
  | nil => exact congrArg (m.writeBytes · behind) (UInt16.add_zero a)
  | cons byte bytes ih =>
      have base := a.toNat_lt
      rw [List.length_cons] at small ⊢
      -- The bytes behind do not come round to the first cell.
      have outside : behind.length ≤ (a - (a + 1 + UInt16.ofNat bytes.length)).toNat := by
        rw [toNat_sub_eq, UInt16.toNat_add, toNat_add_one, UInt16.toNat_ofNat']
        omega
      rw [writeBytes, add_ofNat_succ, writeBytes_write m byte outside, ih _ (by omega)]
      rfl

/-- Each of the written bytes is read back. -/
theorem read_writeBytes_add {a : UInt16} {bytes : List UInt8} (m : Memory) {i : Nat}
    (inside : i < bytes.length) (small : bytes.length ≤ 65536) :
    (m.writeBytes a bytes).read (a + UInt16.ofNat i) = bytes[i] := by
  induction bytes generalizing m a i with
  | nil => exact absurd inside i.not_lt_zero
  | cons byte bytes ih =>
      rw [List.length_cons] at inside small
      rw [writeBytes]
      cases i with
      | zero =>
          have base := a.toNat_lt
          have outside : bytes.length ≤ (a - (a + 1)).toNat := by
            rw [toNat_sub_eq, toNat_add_one]
            omega
          have first : a + UInt16.ofNat 0 = a := UInt16.add_zero a
          rw [first, read_writeBytes _ outside, read_write_self]
          rfl
      | succ i =>
          rw [add_ofNat_succ]
          exact ih _ (Nat.lt_of_succ_lt_succ inside) (Nat.le_of_succ_le small)

/-- Written bytes are read back with what lies behind them. -/
theorem readBytes_writeBytes {a : UInt16} {bytes : List UInt8} {n : Nat} (m : Memory)
    (small : bytes.length + n ≤ 65536) : (m.writeBytes a bytes).readBytes a (bytes.length + n) =
      bytes ++ m.readBytes (a + UInt16.ofNat bytes.length) n := by
  induction bytes generalizing m a with
  | nil =>
      rw [List.length_nil, Nat.zero_add, List.nil_append]
      exact congrArg (m.readBytes · n) (UInt16.add_zero a).symm
  | cons byte bytes ih =>
      have base := a.toNat_lt
      rw [List.length_cons] at small
      have first : ((m.write a byte).writeBytes (a + 1) bytes).read a = byte := by
        rw [read_writeBytes _ (by rw [toNat_sub_eq, toNat_add_one]; omega), read_write_self]
      have behind : n ≤ (a - (a + 1 + UInt16.ofNat bytes.length)).toNat := by
        rw [toNat_sub_eq, UInt16.toNat_add, toNat_add_one, UInt16.toNat_ofNat']
        omega
      have later := ih (m.write a byte) (a := a + 1) (by omega)
      rw [readBytes_write m byte behind] at later
      rw [List.length_cons, show bytes.length + 1 + n = bytes.length + n + 1 by omega]
      rw [writeBytes, readBytes, first, later, List.cons_append, add_ofNat_succ]

theorem readBytes_writeBytes_self {a : UInt16} {bytes : List UInt8} (m : Memory)
    (small : bytes.length ≤ 65536) : (m.writeBytes a bytes).readBytes a bytes.length = bytes := by
  have read := readBytes_writeBytes (a := a) (n := 0) m small
  exact read.trans (List.append_nil bytes)

theorem length_readBytes (m : Memory) (a : UInt16) (n : Nat) : (m.readBytes a n).length = n := by
  induction n generalizing a with
  | zero => rfl
  | succ n ih => exact congrArg (· + 1) (ih (a + 1))

theorem readBytes_add (m : Memory) (a : UInt16) (j k : Nat) :
    m.readBytes a (j + k) = m.readBytes a j ++ m.readBytes (a + UInt16.ofNat j) k := by
  induction j generalizing a with
  | zero =>
      rw [Nat.zero_add]
      exact congrArg (m.readBytes · k) (UInt16.add_zero a).symm
  | succ j ih =>
      rw [add_ofNat_succ, Nat.add_right_comm]
      exact congrArg (m.read a :: ·) (ih (a + 1))

theorem readBytes_eq_map (m : Memory) (a : UInt16) (n : Nat) :
    m.readBytes a n = (List.range n).map fun i => m.read (a + UInt16.ofNat i) := by
  induction n generalizing a with
  | zero => rfl
  | succ n ih =>
      rw [readBytes, ih, List.range_succ_eq_map, List.map_cons, List.map_map]
      congr 1
      · exact congrArg m.read (UInt16.add_zero a).symm
      · exact List.map_congr_left fun i _ => congrArg m.read (add_ofNat_succ a i).symm

/-- Memories that hold equal bytes at as many addresses read equal stretches. -/
theorem readBytes_congr {m n : Memory} {a b : UInt16} {length : Nat}
    (same : ∀ i < length, n.read (b + UInt16.ofNat i) = m.read (a + UInt16.ofNat i)) :
    n.readBytes b length = m.readBytes a length := by
  induction length generalizing a b with
  | zero => rfl
  | succ length ih =>
      have first : n.read b = m.read a := by
        have base := same 0 (Nat.succ_pos length)
        rwa [show UInt16.ofNat 0 = 0 from rfl, UInt16.add_zero, UInt16.add_zero] at base
      have rest : n.readBytes (b + 1) length = m.readBytes (a + 1) length := by
        apply ih
        intro i below
        have later := same (i + 1) (Nat.succ_lt_succ below)
        rwa [add_ofNat_succ, add_ofNat_succ] at later
      exact congrArg₂ List.cons first rest

/-- Equal stretches are equal in their first bytes and in what lies behind these. -/
theorem readBytes_parts {m n : Memory} {a b : UInt16} {j k : Nat}
    (same : n.readBytes b (j + k) = m.readBytes a (j + k)) :
    n.readBytes b j = m.readBytes a j ∧
      n.readBytes (b + UInt16.ofNat j) k = m.readBytes (a + UInt16.ofNat j) k := by
  rw [readBytes_add, readBytes_add] at same
  apply List.append_inj same
  rw [length_readBytes, length_readBytes]

theorem read_of_readBytes {m n : Memory} {a b : UInt16} {k : Nat}
    (same : n.readBytes b (k + 1) = m.readBytes a (k + 1)) : n.read b = m.read a :=
  (List.cons.inj same).1

theorem readWord_of_readBytes {m n : Memory} {a b : UInt16}
    (same : n.readBytes b 2 = m.readBytes a 2) : n.readWord b = m.readWord a := by
  have low : n.readBytes (b + 1) 1 = m.readBytes (a + 1) 1 := (List.cons.inj same).2
  unfold readWord
  rw [read_of_readBytes same, read_of_readBytes low]

/-! ### What writes leave alone -/

/-- The addresses directly below another one, the nearest first. -/
def below (top : UInt16) : Nat → List UInt16
  | 0 => []
  | n + 1 => (top - 1) :: below (top - 1) n

theorem below_add (top : UInt16) (m n : Nat) :
    below top (m + n) = below top m ++ below (top - UInt16.ofNat m) n := by
  induction m generalizing top with
  | zero =>
      rw [Nat.zero_add]
      exact congrArg (below · n) (UInt16.sub_zero top).symm
  | succ m ih =>
      have next : top - 1 - UInt16.ofNat m = top - UInt16.ofNat (m + 1) := by
        rw [sub_sub_eq, UInt16.ofNat_add, UInt16.add_comm]
        rfl
      rw [Nat.add_right_comm, below, ih, next]
      rfl

/-- Two memories hold the same byte at every address that is not listed. -/
def SameOutside (addresses : List UInt16) (m n : Memory) : Prop :=
  ∀ a, a ∉ addresses → n.read a = m.read a

namespace SameOutside

variable {m n o : Memory} {first second : List UInt16}

theorem refl (addresses : List UInt16) (m : Memory) : SameOutside addresses m m := fun _ _ => rfl

theorem mono (h : SameOutside first m n) (wider : first ⊆ second) : SameOutside second m n :=
  fun a outside => h a fun listed => outside (wider listed)

theorem trans (h : SameOutside first m n) (k : SameOutside second n o) :
    SameOutside (first ++ second) m o := by
  intro a outside
  obtain ⟨early, late⟩ := not_or.mp (mt List.mem_append.mpr outside)
  exact (k a late).trans (h a early)

theorem eq (h : SameOutside [] m n) : n = m := ext fun a => h a List.not_mem_nil

end SameOutside

theorem sameOutside_write (m : Memory) (a : UInt16) (value : UInt8) :
    SameOutside [a] m (m.write a value) :=
  fun _ outside => read_write_of_ne m value fun same => outside (List.mem_singleton.mpr same)

theorem sameOutside_writeWord (m : Memory) (a value : UInt16) :
    SameOutside [a, a + 1] m (m.writeWord a value) :=
  (sameOutside_write m a _).trans (sameOutside_write _ (a + 1) _)

end Memory

end Sim6809
