import Mathlib.Tactic

/-!
# OSAL types

The error, timeout and duration types of the `osal-api` crate, the width of the target's
`usize`, and the faults of compiled Rust (a failed bounds check, an arithmetic overflow, a
failed assertion), which the models of this development return instead of a value.
-/

namespace OsalRust

inductive Error where
  | outOfMemory
  | timeout
  | queueFull
  | queueEmpty
  | queueClosed
  | invalidMessageSize
  | lockFailed
  | overflow
  | notFound
  | invalidParameter
  | alreadyInitialized
  | notInitialized
  | busy
  | unsupported
  | internal (text : String)
  deriving DecidableEq, Repr

abbrev Result (α : Type) := Except Error α

/-- Largest value of `core::time::Duration` in nanoseconds: `u64::MAX` seconds and
999 999 999 nanoseconds. -/
def durationMaxNanos : Nat := 2 ^ 64 * 1000000000 - 1

/-- `core::time::Duration`, as its number of nanoseconds. -/
structure Duration where
  nanos : Nat
  le_max : nanos ≤ durationMaxNanos
  deriving DecidableEq

namespace Duration

def zero : Duration := ⟨0, Nat.zero_le _⟩

def max : Duration := ⟨durationMaxNanos, Nat.le_refl _⟩

/-- `Duration::new`, with a nanosecond part below one second. -/
def new (secs nanos : Nat) (hs : secs < 2 ^ 64) (hn : nanos < 1000000000) : Duration :=
  ⟨secs * 1000000000 + nanos, by rw [durationMaxNanos]; omega⟩

def fromNanos (nanos : UInt64) : Duration :=
  ⟨nanos.toNat, by have := nanos.toNat_lt; rw [durationMaxNanos]; omega⟩

def checkedAdd (a b : Duration) : Option Duration :=
  if h : a.nanos + b.nanos ≤ durationMaxNanos then some ⟨a.nanos + b.nanos, h⟩ else none

def saturatingSub (a b : Duration) : Duration :=
  ⟨a.nanos - b.nanos, Nat.le_trans (Nat.sub_le _ _) a.le_max⟩

instance : LE Duration := ⟨fun a b => a.nanos ≤ b.nanos⟩
instance : LT Duration := ⟨fun a b => a.nanos < b.nanos⟩
instance (a b : Duration) : Decidable (a ≤ b) := inferInstanceAs (Decidable (a.nanos ≤ b.nanos))
instance (a b : Duration) : Decidable (a < b) := inferInstanceAs (Decidable (a.nanos < b.nanos))

end Duration

inductive Timeout where
  | noWait
  | after (d : Duration)
  | forever
  deriving DecidableEq

structure ExitCode where
  code : UInt32
  deriving DecidableEq

def ExitCode.success : ExitCode := ⟨0⟩

/-- Width of the target's `usize`, at least the 16 bits the language promises. -/
structure UsizeWidth where
  bits : Nat
  ge : 16 ≤ bits

def width64 : UsizeWidth := ⟨64, by decide⟩

inductive Fault where
  | arithmeticOverflow
  | indexOutOfBounds
  | copyLengthMismatch
  | remainderByZero
  | assertionFailed
  deriving DecidableEq, Repr

abbrev Checked (α : Type) := Except Fault α

namespace UsizeWidth

def add (w : UsizeWidth) (a b : Nat) : Checked Nat :=
  if a + b < 2 ^ w.bits then .ok (a + b) else .error .arithmeticOverflow

def mul (w : UsizeWidth) (a b : Nat) : Checked Nat :=
  if a * b < 2 ^ w.bits then .ok (a * b) else .error .arithmeticOverflow

def checkedMul (w : UsizeWidth) (a b : Nat) : Option Nat :=
  if a * b < 2 ^ w.bits then some (a * b) else none

theorem add_ok {w : UsizeWidth} {a b : Nat} (h : a + b < 2 ^ w.bits) : w.add a b = .ok (a + b) :=
  if_pos h

theorem mul_ok {w : UsizeWidth} {a b : Nat} (h : a * b < 2 ^ w.bits) : w.mul a b = .ok (a * b) :=
  if_pos h

end UsizeWidth

namespace Checked

def sub (a b : Nat) : Checked Nat :=
  if b ≤ a then .ok (a - b) else .error .arithmeticOverflow

def rem (a b : Nat) : Checked Nat :=
  if b = 0 then .error .remainderByZero else .ok (a % b)

def assert (p : Prop) [Decidable p] : Checked Unit :=
  if p then .ok () else .error .assertionFailed

def slice (bytes : List UInt8) (start stop : Nat) : Checked (List UInt8) :=
  if start ≤ stop ∧ stop ≤ bytes.length then .ok ((bytes.drop start).take (stop - start))
  else .error .indexOutOfBounds

def copyFromSlice (bytes : List UInt8) (start stop : Nat) (source : List UInt8) :
    Checked (List UInt8) :=
  if start ≤ stop ∧ stop ≤ bytes.length then
    if source.length = stop - start then
      .ok (bytes.take start ++ source ++ bytes.drop stop)
    else .error .copyLengthMismatch
  else .error .indexOutOfBounds

theorem sub_ok {a b : Nat} (h : b ≤ a) : sub a b = .ok (a - b) := if_pos h

theorem rem_ok {a b : Nat} (h : 0 < b) : rem a b = .ok (a % b) := if_neg (by omega)

theorem assert_ok {p : Prop} [Decidable p] (h : p) : assert p = .ok () := if_pos h

theorem slice_ok {bytes : List UInt8} {start stop : Nat} (h : start ≤ stop)
    (h' : stop ≤ bytes.length) :
    slice bytes start stop = .ok ((bytes.drop start).take (stop - start)) :=
  if_pos ⟨h, h'⟩

theorem copyFromSlice_ok (bytes source : List UInt8) {start stop : Nat} (h : start ≤ stop)
    (h' : stop ≤ bytes.length) (hs : source.length = stop - start) :
    copyFromSlice bytes start stop source =
      .ok (bytes.take start ++ source ++ bytes.drop stop) := by
  rw [copyFromSlice, if_pos ⟨h, h'⟩, if_pos hs]

end Checked

end OsalRust
