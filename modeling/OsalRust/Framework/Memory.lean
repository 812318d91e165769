import Mathlib.Algebra.Group.Nat.Defs
import Mathlib.Order.Interval.Set.Basic

/-!
# Byte memory

A memory maps every address to a byte. A word is stored as its little-endian bytes; it can be
read back as long as none of its bytes is written.
-/

namespace OsalRust.Framework

def toBytes : Nat → Nat → List UInt8
  | 0, _ => []
  | n + 1, word => UInt8.ofNat word :: toBytes n (word / 256)

def ofBytes : List UInt8 → Nat
  | [] => 0
  | byte :: bytes => byte.toNat + 256 * ofBytes bytes

@[simp] theorem toBytes_length (n word : Nat) : (toBytes n word).length = n := by
  induction n generalizing word with
  | zero => rfl
  | succ n ih => rw [toBytes, List.length_cons, ih]

theorem ofBytes_toBytes {n word : Nat} (h : word < 256 ^ n) : ofBytes (toBytes n word) = word := by
  induction n generalizing word with
  | zero =>
    rw [Nat.pow_zero, Nat.lt_one_iff] at h
    exact h.symm
  | succ n ih =>
    have hdiv : word / 256 < 256 ^ n := by
      rw [Nat.div_lt_iff_lt_mul (by decide), ← Nat.pow_succ]
      exact h
    rw [toBytes, ofBytes, ih hdiv, UInt8.toNat_ofNat']
    exact Nat.mod_add_div word 256

abbrev Memory := Nat → UInt8

namespace Memory

variable {m m' : Memory} {a n x : Nat} {b : List UInt8}

def write (m : Memory) (a : Nat) (bytes : List UInt8) : Memory := fun x =>
  if a ≤ x then (bytes[x - a]?).getD (m x) else m x

def read (m : Memory) (a n : Nat) : List UInt8 := (List.range n).map fun i => m (a + i)

theorem write_of_notMem (h : x ∉ Set.Ico a (a + b.length)) : m.write a b x = m x := by
  unfold write
  split
  · next hle =>
    have hlen : b.length ≤ x - a := by
      rw [Set.mem_Ico, not_and, Nat.not_lt] at h
      have := h hle
      omega
    rw [List.getElem?_eq_none hlen, Option.getD_none]
  · rfl

theorem read_write : (m.write a b).read a b.length = b := by
  refine List.ext_getElem (by simp [read]) fun i hi hi' => ?_
  simp [read, write, List.getElem?_eq_getElem hi']

theorem read_congr (h : ∀ x ∈ Set.Ico a (a + n), m' x = m x) : m'.read a n = m.read a n := by
  refine List.map_congr_left fun i hi => h (a + i) ?_
  rw [List.mem_range] at hi
  exact ⟨Nat.le_add_right a i, by omega⟩

end Memory

end OsalRust.Framework
