import KamaWebserver.Library.Decimal

set_option autoImplicit false

/- Numbers padded to a width. Of equally long texts the one is smaller that has the smaller
number in the first place where they differ. -/
namespace Decimal

/-- `%0<width>d` of printf; the sign counts for the width. -/
def zeroPadded (width : Nat) (n : Int) : List UInt8 :=
  if n < 0 then
    ascii "-" ++ (List.replicate (width - 1 - (digits n.natAbs).length) (digit 0) ++
      digits n.natAbs)
  else List.replicate (width - (digits n.natAbs).length) (digit 0) ++ digits n.natAbs

/-- `%<width>d` of printf. -/
def spacePadded (width : Nat) (n : Int) : List UInt8 :=
  List.replicate (width - (decimal n).length) 0x20 ++ decimal n

/-- The last digits of a number, as many as the width says. -/
def fixed : (width : Nat) → Nat → List UInt8
  | 0, _ => []
  | width + 1, n => fixed width (n / 10) ++ [digit (n % 10)]

@[simp] theorem fixed_length (width n : Nat) : (fixed width n).length = width := by
  induction width generalizing n with
  | zero => rfl
  | succ width ih => simp [fixed, ih]

theorem fixed_zero (width : Nat) : fixed width 0 = List.replicate width (digit 0) := by
  induction width with
  | zero => rfl
  | succ width ih =>
      rw [fixed, Nat.zero_div, ih, List.replicate_succ']

theorem fixed_head (width n : Nat) : ∃ d rest, d < 10 ∧ fixed (width + 1) n = digit d :: rest := by
  induction width generalizing n with
  | zero => exact ⟨n % 10, [], Nat.mod_lt n (by decide), rfl⟩
  | succ width ih =>
      obtain ⟨d, rest, small, starts⟩ := ih (n / 10)
      exact ⟨d, rest ++ [digit (n % 10)], small, by rw [fixed, starts]; rfl⟩

theorem fixed_of_digits {width n : Nat} (positive : 0 < width) (small : n < 10 ^ width) :
    List.replicate (width - (digits n).length) (digit 0) ++ digits n = fixed width n := by
  induction width generalizing n with
  | zero => omega
  | succ width ih =>
      rw [fixed, digits_eq]
      by_cases single : n < 10
      · have shorter : n / 10 = 0 := by omega
        rw [if_pos single, shorter, fixed_zero, Nat.mod_eq_of_lt single]
        rfl
      · have wide : 0 < width := by
          by_contra narrow
          obtain rfl : width = 0 := by omega
          omega
        have fewer : n / 10 < 10 ^ width := by
          rw [Nat.pow_succ] at small
          omega
        rw [if_neg single, List.length_append, List.length_singleton, Nat.add_sub_add_right,
          ← List.append_assoc, ih wide fewer]

/-- A number that takes the whole width. -/
theorem digits_of_wide {width n : Nat} (positive : 0 < width) (wide : 10 ^ width ≤ n)
    (small : n < 10 ^ (width + 1)) : digits n = fixed (width + 1) n := by
  have long : ¬(digits n).length ≤ width := by
    rw [digits_length_le_iff positive]
    omega
  have none : width + 1 - (digits n).length = 0 := by omega
  have padded := fixed_of_digits (Nat.succ_pos width) small
  rw [none] at padded
  exact padded

theorem zeroPadded_of_nonneg {width : Nat} {n : Int} (nonneg : 0 ≤ n) (positive : 0 < width)
    (small : n.natAbs < 10 ^ width) : zeroPadded width n = fixed width n.natAbs := by
  rw [zeroPadded, if_neg (by omega), fixed_of_digits positive small]

theorem zeroPadded_of_neg {width : Nat} {n : Int} (negative : n < 0) (positive : 1 < width)
    (small : n.natAbs < 10 ^ (width - 1)) :
    zeroPadded width n = ascii "-" ++ fixed (width - 1) n.natAbs := by
  rw [zeroPadded, if_pos negative, fixed_of_digits (by omega) small]

/-- A number too wide for its sign. -/
theorem zeroPadded_of_wide {width : Nat} {n : Int} (negative : n < 0) (positive : 0 < width)
    (wide : 10 ^ width ≤ n.natAbs) (small : n.natAbs < 10 ^ (width + 1)) :
    zeroPadded (width + 1) n = ascii "-" ++ fixed (width + 1) n.natAbs := by
  have shorter : width + 1 - 1 - (width + 1) = 0 := by omega
  rw [zeroPadded, if_pos negative, digits_of_wide positive wide small, fixed_length, shorter]
  rfl

theorem zeroPadded_length_ge (width : Nat) (n : Int) : width ≤ (zeroPadded width n).length := by
  have sign : (ascii "-").length = 1 := rfl
  unfold zeroPadded
  split <;> simp only [List.length_append, List.length_replicate, sign] <;> omega

theorem spacePadded_length_ge (width : Nat) (n : Int) : width ≤ (spacePadded width n).length := by
  simp only [spacePadded, List.length_append, List.length_replicate]
  omega

theorem spacePadded_of_wide {width : Nat} {n : Int} (nonneg : 0 ≤ n) (positive : 0 < width)
    (wide : 10 ^ width ≤ n.natAbs) (small : n.natAbs < 10 ^ (width + 1)) :
    spacePadded (width + 1) n = fixed (width + 1) n.natAbs := by
  have full := digits_of_wide positive wide small
  rw [spacePadded, decimal_of_nonneg nonneg, full, fixed_length, Nat.sub_self]
  rfl

section Order

variable {α : Type*} [LT α] {first second : List α}

/-- Equally long beginnings decide first. -/
theorem append_lt_append_iff [Std.Irrefl (· < · : α → α → Prop)]
    (same : first.length = second.length) (rest other : List α) :
    first ++ rest < second ++ other ↔ first < second ∨ first = second ∧ rest < other := by
  induction first generalizing second with
  | nil =>
      obtain rfl := List.eq_nil_of_length_eq_zero same.symm
      simp
  | cons head tail ih =>
      cases second with
      | nil => simp at same
      | cons front behind =>
          simp only [List.cons_append, List.cons_lt_cons_iff, List.cons.injEq]
          rw [ih (by simpa using same)]
          tauto

theorem append_left_lt_iff [Std.Irrefl (· < · : α → α → Prop)] (common rest other : List α) :
    common ++ rest < common ++ other ↔ rest < other := by
  rw [append_lt_append_iff rfl]
  simp [List.lt_irrefl]

end Order

theorem digit_lt_iff {a b : Nat} (small : a < 10) (other : b < 10) :
    digit a < digit b ↔ a < b := by
  rw [UInt8.lt_iff_toNat_lt, digit_toNat small, digit_toNat other]
  omega

theorem digit_inj {a b : Nat} (small : a < 10) (other : b < 10) : digit a = digit b ↔ a = b := by
  rw [← UInt8.toNat_inj, digit_toNat small, digit_toNat other]
  omega

theorem fixed_inj {width m n : Nat} (small : m < 10 ^ width) (other : n < 10 ^ width) :
    fixed width m = fixed width n ↔ m = n := by
  induction width generalizing m n with
  | zero =>
      rw [Nat.pow_zero] at small other
      simp only [fixed, true_iff]
      omega
  | succ width ih =>
      rw [Nat.pow_succ] at small other
      have front : fixed width (m / 10) = fixed width (n / 10) ↔ m / 10 = n / 10 :=
        ih (by omega) (by omega)
      have last : digit (m % 10) = digit (n % 10) ↔ m % 10 = n % 10 :=
        digit_inj (Nat.mod_lt m (by decide)) (Nat.mod_lt n (by decide))
      rw [fixed, fixed, List.append_eq_append_iff_of_size_eq_left (by simp), front,
        List.cons.injEq, last]
      simp only [and_true]
      omega

/-- Texts of one width are ordered as the numbers. -/
theorem fixed_lt_iff {width m n : Nat} (small : m < 10 ^ width) (other : n < 10 ^ width) :
    fixed width m < fixed width n ↔ m < n := by
  induction width generalizing m n with
  | zero =>
      rw [Nat.pow_zero] at small other
      simp only [fixed, List.not_lt_nil, false_iff]
      omega
  | succ width ih =>
      rw [Nat.pow_succ] at small other
      have front : fixed width (m / 10) < fixed width (n / 10) ↔ m / 10 < n / 10 :=
        ih (by omega) (by omega)
      have equal : fixed width (m / 10) = fixed width (n / 10) ↔ m / 10 = n / 10 :=
        fixed_inj (by omega) (by omega)
      have last : digit (m % 10) < digit (n % 10) ↔ m % 10 < n % 10 :=
        digit_lt_iff (Nat.mod_lt m (by decide)) (Nat.mod_lt n (by decide))
      rw [fixed, fixed, append_lt_append_iff (by simp), front, equal]
      simp only [List.cons_lt_cons_iff, List.not_lt_nil, and_false, or_false, last]
      omega

section Fields

variable {width : Nat} {a b : Int} (inside : 0 ≤ a ∧ a.natAbs < 10 ^ width)
  (other : 0 ≤ b ∧ b.natAbs < 10 ^ width) (mark rest behind : List UInt8)

include inside other

/-- A field decides before all that follows. -/
theorem fixed_append_lt_iff :
    fixed width a.natAbs ++ rest < fixed width b.natAbs ++ behind ↔
      a < b ∨ a = b ∧ rest < behind := by
  have less : a.natAbs < b.natAbs ↔ a < b := by omega
  have same : a.natAbs = b.natAbs ↔ a = b := by omega
  rw [append_lt_append_iff (by simp), fixed_lt_iff inside.2 other.2, fixed_inj inside.2 other.2,
    less, same]

theorem fixed_append_inj :
    fixed width a.natAbs ++ rest = fixed width b.natAbs ++ behind ↔ a = b ∧ rest = behind := by
  have same : a.natAbs = b.natAbs ↔ a = b := by omega
  rw [List.append_eq_append_iff_of_size_eq_left (by simp), fixed_inj inside.2 other.2, same]

theorem field_lt_iff :
    fixed width a.natAbs ++ (mark ++ rest) < fixed width b.natAbs ++ (mark ++ behind) ↔
      a < b ∨ a = b ∧ rest < behind := by
  rw [fixed_append_lt_iff inside other, append_left_lt_iff]

theorem field_inj :
    fixed width a.natAbs ++ (mark ++ rest) = fixed width b.natAbs ++ (mark ++ behind) ↔
      a = b ∧ rest = behind := by
  rw [fixed_append_inj inside other, List.append_cancel_left_eq]

end Fields

end Decimal
