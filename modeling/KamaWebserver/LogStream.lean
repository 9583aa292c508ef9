import KamaWebserver.AsyncLogging
import KamaWebserver.Library.Block
import KamaWebserver.Library.Decimal
import KamaWebserver.Library.Outcome
import Mathlib.Tactic.IntervalCases

set_option autoImplicit false

namespace KamaWebserver

open Outcome Decimal

def kSmallBufferSize : Nat := 4096

/-- `kMaxNumberSize` of `LogStream`. -/
def kMaxNumberSize : Nat := 32

/-- All the bytes of `data_`, and `size_`; `cur_` points at the byte of index `size_`. -/
structure BufferMemory (bufferSize : Nat) where
  data : List UInt8
  size : Nat
  whole : data.length = bufferSize
  fits : size ≤ bufferSize

/-- The integer types `operator<<` is overloaded for. -/
inductive IntegerType
  | short
  | unsignedShort
  | int
  | unsignedInt
  | long
  | unsignedLong
  | longLong
  | unsignedLongLong
  deriving DecidableEq, Repr

namespace IntegerType

def width : IntegerType → Nat
  | .short | .unsignedShort => 16
  | .int | .unsignedInt => 32
  | .long | .unsignedLong | .longLong | .unsignedLongLong => 64

def isSigned : IntegerType → Bool
  | .short | .int | .long | .longLong => true
  | .unsignedShort | .unsignedInt | .unsignedLong | .unsignedLongLong => false

def min (type : IntegerType) : Int := if type.isSigned then -2 ^ (type.width - 1) else 0

def max (type : IntegerType) : Int :=
  if type.isSigned then 2 ^ (type.width - 1) - 1 else 2 ^ type.width - 1

/-- The values of the type. -/
def Value (type : IntegerType) : Type := { num : Int // type.min ≤ num ∧ num ≤ type.max }

end IntegerType

namespace BufferMemory

variable {bufferSize : Nat}

def avail (b : BufferMemory bufferSize) : Nat := bufferSize - b.size

/-- The bytes in front of `cur_`. -/
def contents (b : BufferMemory bufferSize) : List UInt8 := b.data.take b.size

/-- The buffer as its readers see it. -/
def view (b : BufferMemory bufferSize) : FixedBuffer bufferSize :=
  ⟨b.contents, Nat.le_trans (List.length_take_le _ _) b.fits⟩

/-- Bytes stored into `data_`. -/
def store (b : BufferMemory bufferSize) (position : Nat) (bytes : List UInt8) :
    Except Fault (BufferMemory bufferSize) :=
  match written : Block.write b.data position bytes with
  | some data => .ok { b with data, whole := (Block.write_length written).trans b.whole }
  | none => .error .outOfBounds

def add (b : BufferMemory bufferSize) (len : Nat) : Except Fault (BufferMemory bufferSize) :=
  if fits : b.size + len ≤ bufferSize then .ok { b with size := b.size + len, fits }
  else .error .outOfBounds

def append (b : BufferMemory bufferSize) (buf : List UInt8) :
    Except Fault (BufferMemory bufferSize) :=
  if buf.length < b.avail then do
    let b ← b.store b.size buf
    b.add buf.length
  else .ok b

/-- `std::reverse` of the bytes at `first` up to `last`. -/
def reverse (b : BufferMemory bufferSize) (first last : Nat) :
    Except Fault (BufferMemory bufferSize) :=
  b.store first (Block.window b.data first last).reverse

end BufferMemory

/-- The table `digits`. -/
def digitTable : List UInt8 := ascii "9876543210123456789"

/-- `zero[remainder]`, where `zero` points at the tenth character of the table. -/
def zero (remainder : Int) : Except Fault UInt8 :=
  if 0 ≤ 9 + remainder then
    match digitTable[(9 + remainder).toNat]? with
    | some char => .ok char
    | none => .error .outOfBounds
  else .error .outOfBounds

/-- The loop of `formatInteger`; `room` bytes are left from `cur` to the end of `data_`. -/
def formatDigits {bufferSize : Nat} : (room : Nat) → BufferMemory bufferSize → (cur : Nat) →
    (num : Int) → Except Fault (BufferMemory bufferSize × Nat)
  | 0, _, _, _ => .error .outOfBounds
  | room + 1, b, cur, num => do
      let digit ← zero (num.tmod 10)
      let b ← b.store cur [digit]
      if num.tdiv 10 ≠ 0 then formatDigits room b (cur + 1) (num.tdiv 10)
      else return (b, cur + 1)

/-- The sign, when there is one, goes behind the digits before all is reversed. -/
def formatInteger {bufferSize : Nat} (b : BufferMemory bufferSize) (num : Int) :
    Except Fault (BufferMemory bufferSize) :=
  if kMaxNumberSize ≤ b.avail then do
    let start := b.size
    let (b, cur) ← formatDigits (bufferSize - start) b start num
    let b ← (if num < 0 then b.store cur (ascii "-") else return b)
    let cur := if num < 0 then cur + 1 else cur
    let b ← b.store cur [0]
    let b ← b.reverse start cur
    b.add (cur - start)
  else .ok b

namespace BufferMemory

variable {bufferSize : Nat} {b after : BufferMemory bufferSize}

theorem store_eq_ok_iff (position : Nat) (bytes : List UInt8) :
    b.store position bytes = .ok after ↔
      Block.write b.data position bytes = some after.data ∧ after.size = b.size := by
  obtain ⟨data, size, whole, fits⟩ := after
  unfold store
  split
  · rename_i stored written
    simp [written, eq_comm]
  · rename_i outside
    simp [outside]

theorem store_ok (b : BufferMemory bufferSize) (position : Nat) (bytes : List UInt8)
    (inside : position + bytes.length ≤ bufferSize) :
    ∃ after, b.store position bytes = .ok after ∧
      Block.write b.data position bytes = some after.data ∧ after.size = b.size := by
  obtain ⟨data, written⟩ :=
    Block.write_of_fits b.data bytes position (by rw [b.whole]; exact inside)
  let after : BufferMemory bufferSize :=
    { b with data, whole := (Block.write_length written).trans b.whole }
  have stored : b.store position bytes = .ok after :=
    (store_eq_ok_iff position bytes).mpr ⟨written, rfl⟩
  exact ⟨after, stored, written, rfl⟩

@[simp] theorem contents_length (b : BufferMemory bufferSize) : b.contents.length = b.size := by
  rw [contents, List.length_take_of_le (by rw [b.whole]; exact b.fits)]

/-- What is stored behind the contents becomes part of them. -/
theorem add_contents {stored : BufferMemory bufferSize} {bytes tail : List UInt8}
    (written : Block.write b.data b.size (bytes ++ tail) = some stored.data)
    (same : stored.size = b.size) :
    ∃ after, stored.add bytes.length = .ok after ∧ after.data = stored.data ∧
      after.contents = b.contents ++ bytes := by
  obtain ⟨fits, split⟩ := (Block.write_eq_some_iff _ _ _ _).mp written
  rw [b.whole, List.length_append] at fits
  have front : (b.data.take b.size).length = b.size := b.contents_length
  refine ⟨{ stored with size := stored.size + bytes.length, fits := by omega }, ?_, rfl, ?_⟩
  · rw [add, dif_pos (by omega)]
  · have covered : b.size + bytes.length = (b.data.take b.size ++ bytes).length := by
      rw [List.length_append, front]
    simp only [contents, ← split, same]
    rw [← List.append_assoc, List.append_assoc _ tail, covered, List.take_left]

/-- `append` of the bytes in memory is `append` of the contents. -/
theorem append_view (b : BufferMemory bufferSize) (buf : List UInt8) :
    ∃ after, b.append buf = .ok after ∧ after.view = b.view.append buf := by
  have count : b.view.avail = b.avail := by
    simp [FixedBuffer.avail, view, avail]
  unfold append
  by_cases room : buf.length < b.avail
  · obtain ⟨stored, returned, written, same⟩ := b.store_ok b.size buf
      (by unfold avail at room; omega)
    rw [← List.append_nil buf] at written
    obtain ⟨after, added, -, grown⟩ := add_contents written same
    refine ⟨after, ?_, ?_⟩
    · rw [if_pos room, returned]
      exact added
    · rw [FixedBuffer.append, dif_pos (count ▸ room)]
      simp [view, grown]
  · refine ⟨b, by rw [if_neg room], ?_⟩
    rw [FixedBuffer.append, dif_neg (count ▸ room)]

end BufferMemory

/-- The table holds the digit of a remainder of either sign. -/
theorem zero_ok {remainder : Int} (small : remainder.natAbs < 10) :
    zero remainder = .ok (digit remainder.natAbs) := by
  have range : -10 < remainder ∧ remainder < 10 := by omega
  obtain ⟨low, high⟩ := range
  interval_cases remainder <;> decide

theorem formatDigits_ok {bufferSize : Nat} (room : Nat) (b : BufferMemory bufferSize) (cur : Nat)
    (num : Int) (fits : cur + (digits num.natAbs).length ≤ bufferSize)
    (left : bufferSize ≤ cur + room) :
    ∃ after, formatDigits room b cur num = .ok (after, cur + (digits num.natAbs).length) ∧
      Block.write b.data cur (digits num.natAbs).reverse = some after.data ∧
      after.size = b.size := by
  have positive := digits_length_pos num.natAbs
  have remainder : (num.tmod 10).natAbs = num.natAbs % 10 := Int.natAbs_tmod num 10
  have quotient : (num.tdiv 10).natAbs = num.natAbs / 10 := Int.natAbs_tdiv num 10
  induction room generalizing b cur num with
  | zero => omega
  | succ room ih =>
      have found : zero (num.tmod 10) = .ok (digit (num.tmod 10).natAbs) := zero_ok (by omega)
      obtain ⟨stored, put, written, same⟩ := b.store_ok cur [digit (num.tmod 10).natAbs]
        (by rw [List.length_singleton]; omega)
      simp only [formatDigits, found, put, bind, Except.bind]
      by_cases small : num.natAbs < 10
      · have single : digits num.natAbs = [digit (num.tmod 10).natAbs] := by
          rw [digits_eq, if_pos small, remainder, Nat.mod_eq_of_lt small]
        have ends : num.tdiv 10 = 0 := by omega
        rw [if_neg (by simp [ends]), single]
        exact ⟨stored, rfl, written, same⟩
      · have longer : digits num.natAbs =
            digits (num.tdiv 10).natAbs ++ [digit (num.tmod 10).natAbs] := by
          rw [digits_eq, if_neg small, remainder, quotient]
        have goes : num.tdiv 10 ≠ 0 := by omega
        rw [if_pos goes]
        rw [longer, List.length_append, List.length_singleton] at fits
        obtain ⟨after, returned, rest, kept⟩ := ih stored (cur + 1) (num.tdiv 10) (by omega)
          (by omega) (digits_length_pos _) (Int.natAbs_tmod _ 10) (Int.natAbs_tdiv _ 10)
        refine ⟨after, ?_, ?_, kept.trans same⟩
        · have behind : cur + 1 + (digits (num.tdiv 10).natAbs).length =
              cur + ((digits (num.tdiv 10).natAbs).length + 1) := by omega
          rw [returned, longer, List.length_append, List.length_singleton, behind]
        · rw [longer, List.reverse_append, List.reverse_singleton]
          exact Block.write_append written rest

end KamaWebserver
