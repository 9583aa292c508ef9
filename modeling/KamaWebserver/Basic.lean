import Mathlib.Algebra.Group.Nat.Defs
import Mathlib.Tactic.Common

set_option autoImplicit false

namespace KamaWebserver

/-- One more than the largest `size_t`. -/
def sizeModulus : Nat := 2 ^ 64

/-- `max_size()` of a vector or string of bytes, and the bound on any object. -/
def maxSize : Nat := 2 ^ 63 - 1

/-- Addition of two `size_t`, modulo 2^64. -/
def addSize (a b : Nat) : Nat := (a + b) % sizeModulus

/-- Subtraction of two `size_t`, modulo 2^64. -/
def subSize (a b : Nat) : Nat := (a + (sizeModulus - b)) % sizeModulus

theorem addSize_eq (a b : Nat) (fits : a + b < sizeModulus) : addSize a b = a + b :=
  Nat.mod_eq_of_lt fits

theorem subSize_eq (a b : Nat) (ordered : b ≤ a) (fits : a < sizeModulus) :
    subSize a b = a - b := by
  have wraps : a + (sizeModulus - b) = (a - b) + sizeModulus := by omega
  rw [subSize, wraps, Nat.add_mod_right, Nat.mod_eq_of_lt (by omega)]

/-- The bytes of an object in memory, whose size no array exceeds. -/
structure ByteString where
  bytes : List UInt8
  bounded : bytes.length ≤ maxSize
  deriving DecidableEq

/-- A rest of it is no larger. -/
theorem ByteString.drop_bounded (data : ByteString) (count : Nat) :
    (data.bytes.drop count).length ≤ maxSize := by
  have bounded := data.bounded
  rw [List.length_drop]
  omega

/-- Why an operation does not return normally. -/
inductive Fault
  | notEnabled
  | lengthError
  | outOfBounds
  | nullPointer
  | abort
  deriving DecidableEq, Repr

/-- The errno values the code tells apart; EWOULDBLOCK is EAGAIN. -/
inductive Errno
  | EAGAIN
  | EPIPE
  | ECONNRESET
  | other (code : Nat)
  deriving DecidableEq, Repr

/-- Result of a write-like system call: a byte count, or -1 with errno. -/
inductive IoResult
  | count (n : Nat)
  | error (errno : Errno)
  deriving DecidableEq, Repr

/-- The part of the offered bytes the kernel takes. A count never exceeds what
was offered, so a larger number stands for all of it. -/
def IoResult.accepted (result : IoResult) (offered : List UInt8) : List UInt8 :=
  match result with
  | .count n => offered.take n
  | .error _ => []

@[simp] theorem IoResult.accepted_nil (result : IoResult) : result.accepted [] = [] := by
  cases result <;> simp [accepted]

/-- What readv delivers: the next bytes of the socket, none at end of stream, or
an errno. -/
inductive ReadResult
  | data (bytes : List UInt8)
  | error (errno : Errno)
  deriving DecidableEq, Repr

end KamaWebserver
