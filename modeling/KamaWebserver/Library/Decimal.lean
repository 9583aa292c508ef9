import Mathlib.Algebra.Group.Nat.Defs
import Mathlib.Tactic.Common
import Std.Data.String.ToInt

set_option autoImplicit false

/- Decimal numbers as bytes. -/
namespace Decimal

/-- The bytes of a text of one-byte characters. -/
def ascii (text : String) : List UInt8 := text.toList.map fun c => UInt8.ofNat c.toNat

/-- The text the bytes stand for. -/
def text (bytes : List UInt8) : String :=
  String.ofList (bytes.map fun byte => Char.ofNat byte.toNat)

/-- The character of one digit. -/
def digit (d : Nat) : UInt8 := UInt8.ofNat (48 + d)

def digits (n : Nat) : List UInt8 := ascii n.repr

/-- The number without leading zeros, behind a sign when it is negative. -/
def decimal (n : Int) : List UInt8 := ascii n.repr

theorem ascii_append (first second : String) :
    ascii (first ++ second) = ascii first ++ ascii second := by
  simp [ascii]

theorem text_ascii {s : String} (small : ∀ c ∈ s.toList, c.toNat < 256) : text (ascii s) = s := by
  have same : ∀ c ∈ s.toList, Char.ofNat (UInt8.ofNat c.toNat).toNat = c := by
    intro c inside
    have byte : (UInt8.ofNat c.toNat).toNat = c.toNat := by
      rw [UInt8.toNat_ofNat']
      exact Nat.mod_eq_of_lt (small c inside)
    rw [byte, Char.ofNat_toNat]
  have back : (s.toList.map fun c => Char.ofNat (UInt8.ofNat c.toNat).toNat) = s.toList := by
    rw [List.map_congr_left same]
    exact List.map_id' _
  simp only [text, ascii, List.map_map, Function.comp_def, back, String.ofList_toList]

theorem digitChar_byte {d : Nat} (small : d < 10) :
    UInt8.ofNat (Nat.digitChar d).toNat = digit d := by
  rw [digit, Nat.toNat_digitChar_of_lt_ten small]

theorem digit_toNat {d : Nat} (small : d < 10) : (digit d).toNat = 48 + d := by
  rw [digit, UInt8.toNat_ofNat']
  omega

/-- The last digit comes off the end. -/
theorem digits_eq (n : Nat) :
    digits n = if n < 10 then [digit n] else digits (n / 10) ++ [digit (n % 10)] := by
  simp only [digits, ascii, Nat.toList_repr]
  rw [Nat.toDigits_eq_if (by decide)]
  split
  · rename_i small
    simp [digitChar_byte small]
  · simp [digitChar_byte (Nat.mod_lt n (by decide))]

theorem digits_length (n : Nat) : (digits n).length = (Nat.toDigits 10 n).length := by
  simp [digits, ascii]

theorem digits_length_pos (n : Nat) : 0 < (digits n).length := by
  rw [digits_length]
  exact Nat.length_toDigits_pos

theorem digits_length_le_iff {n k : Nat} (positive : 0 < k) :
    (digits n).length ≤ k ↔ n < 10 ^ k := by
  rw [digits_length]
  exact Nat.length_toDigits_le_iff (by decide) positive

theorem decimal_of_nonneg {n : Int} (nonneg : 0 ≤ n) : decimal n = digits n.natAbs := by
  rw [decimal, digits, Int.repr_eq_if, if_pos nonneg]
  congr 2
  omega

theorem decimal_of_neg {n : Int} (negative : n < 0) :
    decimal n = ascii "-" ++ digits n.natAbs := by
  rw [decimal, digits, Int.repr_eq_if, if_neg (by omega), ascii_append]
  congr 3
  omega

theorem toNat_of_isDigit {c : Char} (digit : c.isDigit = true) : c.toNat < 256 := by
  simp only [Char.isDigit, Bool.and_eq_true, decide_eq_true_eq] at digit
  have bound : c.val.toNat ≤ 57 := digit.2
  exact Nat.lt_of_le_of_lt bound (by decide)

/-- Reading a decimal number gives the number. -/
theorem toInt_decimal (n : Int) : (text (decimal n)).toInt? = some n := by
  have digit (m : Nat) : ∀ c ∈ m.repr.toList, c.toNat < 256 := by
    intro c inside
    rw [Nat.toList_repr] at inside
    exact toNat_of_isDigit (Nat.isDigit_of_mem_toDigits (by decide) (by decide) inside)
  have small : ∀ c ∈ n.repr.toList, c.toNat < 256 := by
    rw [Int.repr_eq_if]
    split
    · exact digit _
    · intro c inside
      rw [String.toList_append, List.mem_append] at inside
      rcases inside with sign | inside
      · obtain rfl : c = '-' := by simpa using sign
        decide
      · exact digit _ c inside
  rw [decimal, text_ascii small, Int.toInt?_repr]

end Decimal
