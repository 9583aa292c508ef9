import KamaWebserver.LogStream

set_option autoImplicit false

namespace KamaWebserver

open Outcome Decimal

/-- The characters of a number as the loop and the sign leave them. -/
def reversedNumber (num : Int) : List UInt8 :=
  (digits num.natAbs).reverse ++ if num < 0 then ascii "-" else []

theorem reversedNumber_reverse (num : Int) : (reversedNumber num).reverse = decimal num := by
  unfold reversedNumber
  by_cases negative : num < 0
  · rw [if_pos negative, List.reverse_append, List.reverse_reverse, decimal_of_neg negative]
    rfl
  · rw [if_neg negative, List.append_nil, List.reverse_reverse, decimal_of_nonneg (by omega)]

theorem reversedNumber_length (num : Int) :
    (reversedNumber num).length = (decimal num).length := by
  rw [← reversedNumber_reverse, List.length_reverse]

variable {bufferSize : Nat}

/-- The digits, the sign and the NUL, one behind the other. -/
theorem formatDigits_signed (b : BufferMemory bufferSize) (num : Int)
    (room : b.size + (decimal num).length < bufferSize) :
    ∃ middle signed ended cur, formatDigits (bufferSize - b.size) b b.size num = .ok (middle, cur) ∧
      (if num < 0 then middle.store cur (ascii "-") else .ok middle) = .ok signed ∧
      (if num < 0 then cur + 1 else cur) = b.size + (decimal num).length ∧
      signed.store (b.size + (decimal num).length) [0] = .ok ended ∧
      Block.write b.data b.size (reversedNumber num ++ [0]) = some ended.data ∧
      ended.size = b.size := by
  have length := reversedNumber_length num
  have minus : (ascii "-").length = 1 := rfl
  have total : (reversedNumber num).length =
      (digits num.natAbs).length + if num < 0 then 1 else 0 := by
    unfold reversedNumber
    split <;> simp [minus]
  obtain ⟨middle, formatted, wrote, same⟩ := formatDigits_ok (bufferSize - b.size) b b.size num
    (by split at total <;> omega) (by omega)
  have signed : ∃ signed, (if num < 0 then middle.store (b.size + (digits num.natAbs).length)
        (ascii "-") else .ok middle) = .ok signed ∧
      Block.write b.data b.size (reversedNumber num) = some signed.data ∧
      signed.size = b.size := by
    unfold reversedNumber
    split at total
    · rename_i negative
      obtain ⟨signed, put, written, kept⟩ := middle.store_ok
        (b.size + (digits num.natAbs).length) (ascii "-") (by omega)
      rw [if_pos negative, if_pos negative]
      rw [← List.length_reverse] at written
      exact ⟨signed, put, Block.write_append wrote written, kept.trans same⟩
    · rename_i nonneg
      rw [if_neg nonneg, if_neg nonneg, List.append_nil]
      exact ⟨middle, rfl, wrote, same⟩
  obtain ⟨signed, put, written, kept⟩ := signed
  obtain ⟨ended, terminated, nul, last⟩ := signed.store_ok (b.size + (decimal num).length) [0]
    (by rw [List.length_singleton]; omega)
  refine ⟨middle, signed, ended, _, formatted, put, ?_, terminated, ?_, last.trans kept⟩
  · split at total <;> rename_i sign <;> simp only [sign, ↓reduceIte] <;> omega
  · rw [← length] at nul
    exact Block.write_append written nul

/-- With room for any number, `formatInteger` puts the number and a NUL behind the contents
and takes the number into them. -/
theorem formatInteger_ok (b : BufferMemory bufferSize) (num : Int)
    (room : kMaxNumberSize ≤ b.avail) (short : (decimal num).length < kMaxNumberSize) :
    ∃ after, formatInteger b num = .ok after ∧
      Block.write b.data b.size (decimal num ++ [0]) = some after.data ∧
      after.contents = b.contents ++ decimal num := by
  have fits : b.size + (decimal num).length < bufferSize := by
    unfold BufferMemory.avail at room
    omega
  obtain ⟨middle, signed, ended, cur, formatted, put, last, terminated, written, same⟩ :=
    formatDigits_signed b num fits
  have window : Block.window ended.data b.size (b.size + (decimal num).length) =
      reversedNumber num := by
    have self := congrArg (List.take (reversedNumber num).length) (Block.write_window_self written)
    rw [Block.window_take _ _ _ _ (by simp), List.take_left] at self
    rwa [reversedNumber_length] at self
  obtain ⟨turned, reversed, onto, kept⟩ := ended.store_ok b.size (decimal num) (by omega)
  have whole : Block.write b.data b.size (decimal num ++ [0]) = some turned.data := by
    have covers := Block.write_over written onto (by simp [reversedNumber_length])
    rwa [List.drop_left' (reversedNumber_length num)] at covers
  obtain ⟨after, added, data, grown⟩ :=
    BufferMemory.add_contents whole (kept.trans same)
  refine ⟨after, ?_, data ▸ whole, grown⟩
  have turn : ended.reverse b.size (b.size + (decimal num).length) = .ok turned := by
    rw [BufferMemory.reverse, window, reversedNumber_reverse]
    exact reversed
  unfold formatInteger
  rw [if_pos room]
  simp only [formatted, bind, Except.bind, pure, Except.pure, put, last, terminated, turn,
    Nat.add_sub_cancel_left, added]

namespace IntegerType

theorem natAbs_le (type : IntegerType) (num : type.Value) :
    if type.isSigned then num.val.natAbs ≤ 2 ^ 63 else 0 ≤ num.val ∧ num.val.natAbs < 2 ^ 64 := by
  obtain ⟨num, low, high⟩ := num
  cases type <;>
    simp only [min, max, isSigned, width, ↓reduceIte, Bool.false_eq_true] at low high ⊢ <;>
    omega

/-- Twenty digits, or nineteen behind a sign, hold every value. -/
theorem decimal_length (type : IntegerType) (num : type.Value) :
    (decimal num.val).length ≤ 20 := by
  have bound := type.natAbs_le num
  by_cases negative : num.val < 0
  · rw [decimal_of_neg negative, List.length_append]
    have digits : (digits num.val.natAbs).length ≤ 19 := by
      rw [digits_length_le_iff (by decide)]
      split at bound <;> omega
    have minus : (ascii "-").length = 1 := rfl
    omega
  · rw [decimal_of_nonneg (by omega), digits_length_le_iff (by decide)]
    split at bound <;> omega

end IntegerType

/-- For every value of every integer type, and with 32 bytes left: no access leaves the table
or the buffer, the canonical number is appended, which can be read back, and no other byte
than those 32 is written. -/
theorem formatInteger_exact (type : IntegerType) (num : type.Value) (b : BufferMemory bufferSize)
    (room : kMaxNumberSize ≤ b.avail) :
    ∃ after, formatInteger b num.val = .ok after ∧
      after.contents = b.contents ++ decimal num.val ∧
      (text (decimal num.val)).toInt? = some num.val ∧
      ∀ position, position < b.size ∨ b.size + kMaxNumberSize ≤ position →
        after.data[position]? = b.data[position]? := by
  have length := type.decimal_length num
  have short : (decimal num.val).length + 1 ≤ kMaxNumberSize := by
    unfold kMaxNumberSize
    omega
  obtain ⟨after, formatted, written, grown⟩ := formatInteger_ok b num.val room short
  refine ⟨after, formatted, grown, toInt_decimal num.val, fun position outside => ?_⟩
  apply Block.write_getElem?_outside written
  rw [List.length_append, List.length_singleton]
  omega

/-- The least `long`, with exactly 32 bytes left. -/
theorem formatInteger_exact_leastLong :
    ∃ after, formatInteger (⟨List.replicate 34 7, 2, rfl, by decide⟩ : BufferMemory 34)
        (-2 ^ 63) = .ok after ∧
      after.contents = [7, 7] ++ decimal (-2 ^ 63) ∧
      (text (decimal (-2 ^ 63))).toInt? = some (-2 ^ 63) ∧
      ∀ position, position < 2 ∨ 2 + kMaxNumberSize ≤ position →
        after.data[position]? = (List.replicate 34 (7 : UInt8))[position]? :=
  formatInteger_exact .long ⟨-2 ^ 63, by decide⟩ ⟨List.replicate 34 7, 2, rfl, by decide⟩
    (by decide)

end KamaWebserver
