import Sim6809.Word

/-!
The 64K address space. A memory is known by the byte that it holds at each address: a write
changes that byte and no other, and memories that hold the same bytes are equal.
-/
namespace Sim6809

structure Memory where
  pages : Vector (Vector UInt8 256) 256
  deriving DecidableEq

namespace Memory

def size : Nat := 65536

def page (address : UInt16) : Fin 256 := ⟨(Word.hi address).toNat, (Word.hi address).toNat_lt⟩

def column (address : UInt16) : Fin 256 := ⟨(Word.lo address).toNat, (Word.lo address).toNat_lt⟩

def blank : Memory := ⟨Vector.replicate 256 (Vector.replicate 256 0)⟩

def ofFn (f : UInt16 → UInt8) : Memory :=
  ⟨Vector.ofFn fun p => Vector.ofFn fun c => f (Word.join (UInt8.ofFin p) (UInt8.ofFin c))⟩

def read (m : Memory) (address : UInt16) : UInt8 := m.pages[page address][column address]

def write (m : Memory) (address : UInt16) (value : UInt8) : Memory :=
  ⟨m.pages.set (page address) (m.pages[page address].set (column address) value)⟩

/-- The big-endian word at an address; the second byte of the top address is at zero. -/
def readWord (m : Memory) (address : UInt16) : UInt16 :=
  Word.join (m.read address) (m.read (address + 1))

def writeWord (m : Memory) (address value : UInt16) : Memory :=
  (m.write address (Word.hi value)).write (address + 1) (Word.lo value)

/-- Writes bytes one after the other from an address on and wraps at the top. -/
def writeBytes (m : Memory) (address : UInt16) : List UInt8 → Memory
  | [] => m
  | b :: bs => (m.write address b).writeBytes (address + 1) bs

/-- The bytes from an address on, wrapping at the top. -/
def readBytes (m : Memory) (address : UInt16) : Nat → List UInt8
  | 0 => []
  | n + 1 => m.read address :: m.readBytes (address + 1) n

theorem read_blank (address : UInt16) : blank.read address = 0 := by
  simp [read, blank]

theorem read_ofFn (f : UInt16 → UInt8) (address : UInt16) : (ofFn f).read address = f address := by
  have hp : UInt8.ofFin (page address) = Word.hi address := rfl
  have hc : UInt8.ofFin (column address) = Word.lo address := rfl
  simp [read, ofFn, hp, hc]

theorem page_eq_and_column_eq {a b : UInt16} (hp : page a = page b) (hc : column a = column b) :
    a = b :=
  Word.ext (UInt8.toNat_inj.1 (congrArg Fin.val hp)) (UInt8.toNat_inj.1 (congrArg Fin.val hc))

theorem read_write (m : Memory) (a b : UInt16) (v : UInt8) :
    (m.write a v).read b = if b = a then v else m.read b := by
  unfold read write
  by_cases hp : page a = page b
  · by_cases hc : column a = column b
    · have : b = a := (page_eq_and_column_eq hp hc).symm
      subst this
      simp
    · have hba : b ≠ a := fun h => hc (by rw [h])
      have hcv : (column a : Nat) ≠ column b := fun h => hc (Fin.ext h)
      simp [hba, hp, hcv]
  · have hba : b ≠ a := fun h => hp (by rw [h])
    have hpv : (page a : Nat) ≠ page b := fun h => hp (Fin.ext h)
    simp [hba, hpv]

@[simp] theorem read_write_self (m : Memory) (a : UInt16) (v : UInt8) :
    (m.write a v).read a = v := by
  simp [read_write]

theorem read_write_of_ne (m : Memory) {a b : UInt16} (v : UInt8) (h : b ≠ a) :
    (m.write a v).read b = m.read b := by
  simp [read_write, h]

theorem ext {m n : Memory} (h : ∀ a, m.read a = n.read a) : m = n := by
  obtain ⟨ps⟩ := m
  obtain ⟨qs⟩ := n
  congr 1
  apply Vector.ext
  intro i hi
  apply Vector.ext
  intro j hj
  have := h (Word.join (UInt8.ofNat i) (UInt8.ofNat j))
  have ei : (UInt8.ofNat i).toNat = i := UInt8.toNat_ofNat_of_lt hi
  have ej : (UInt8.ofNat j).toNat = j := UInt8.toNat_ofNat_of_lt hj
  simpa [read, page, column, ei, ej] using this

end Memory
end Sim6809
