import KamaWebserver.LogContents

set_option autoImplicit false

namespace KamaWebserver

open Outcome Decimal

/-- The fields are as `localtime` gives them in a year of four digits. -/
structure Tm.FourDigits (tm : Tm) : Prop where
  year : 1000 ≤ tm.year + 1900 ∧ tm.year + 1900 ≤ 9999
  mon : 0 ≤ tm.mon ∧ tm.mon ≤ 11
  mday : 1 ≤ tm.mday ∧ tm.mday ≤ 31
  hour : 0 ≤ tm.hour ∧ tm.hour ≤ 23
  min : 0 ≤ tm.min ∧ tm.min ≤ 59

/-- The order of the first five fields. -/
def Tm.Before (first second : Tm) : Prop :=
  first.year < second.year ∨ first.year = second.year ∧
    (first.mon < second.mon ∨ first.mon = second.mon ∧
      (first.mday < second.mday ∨ first.mday = second.mday ∧
        (first.hour < second.hour ∨ first.hour = second.hour ∧ first.min < second.min)))

def Tm.SameMinute (first second : Tm) : Prop :=
  first.year = second.year ∧ first.mon = second.mon ∧ first.mday = second.mday ∧
    first.hour = second.hour ∧ first.min = second.min

/-- `YYYY/MM/DD HH:MM:`. -/
def minuteText (tm : Tm) : List UInt8 :=
  fixed 4 (tm.year + 1900).natAbs ++ (ascii "/" ++ (fixed 2 (tm.mon + 1).natAbs ++
    (ascii "/" ++ (fixed 2 tm.mday.natAbs ++ (ascii " " ++ (fixed 2 tm.hour.natAbs ++
      (ascii ":" ++ (fixed 2 tm.min.natAbs ++ (ascii ":" ++ [])))))))))

@[simp] theorem minuteText_length (tm : Tm) : (minuteText tm).length = 17 := by
  simp [minuteText, ascii]

/-- The 17 bytes stop in front of the seconds. -/
theorem timerTemplate_bytes {tm : Tm} (valid : tm.FourDigits) :
    (timerTemplate tm).bytes = minuteText tm := by
  have year := valid.year
  have mon := valid.mon
  have mday := valid.mday
  have hour := valid.hour
  have min := valid.min
  have text : timeText tm = minuteText tm ++ zeroPadded 2 tm.sec := by
    rw [timeText, minuteText, spacePadded_of_wide (by omega) (by decide) (by omega) (by omega),
      zeroPadded_of_nonneg (by omega) (by decide) (by omega),
      zeroPadded_of_nonneg (by omega) (by decide) (by omega),
      zeroPadded_of_nonneg (by omega) (by decide) (by omega),
      zeroPadded_of_nonneg (by omega) (by decide) (by omega)]
    simp only [List.append_assoc, List.nil_append]
  have taken : (timerTemplate tm).bytes = (timeText tm).take 17 := by
    simp only [timerTemplate, GeneralTemplate.bytes, snprintf, List.take_take]
    rfl
  rw [taken, text, ← minuteText_length tm, List.take_left]

section Minutes

variable {first second : Tm} (valid : first.FourDigits) (other : second.FourDigits)

include valid other

theorem minuteText_lt_iff : minuteText first < minuteText second ↔ first.Before second := by
  obtain ⟨year, mon, mday, hour, min⟩ := valid
  obtain ⟨year', mon', mday', hour', min'⟩ := other
  rw [minuteText, minuteText, field_lt_iff (by omega) (by omega),
    field_lt_iff (by omega) (by omega), field_lt_iff (by omega) (by omega),
    field_lt_iff (by omega) (by omega), field_lt_iff (by omega) (by omega)]
  simp only [List.not_lt_nil, and_false, or_false, add_lt_add_iff_right, add_left_inj]
  rfl

theorem minuteText_inj : minuteText first = minuteText second ↔ first.SameMinute second := by
  obtain ⟨year, mon, mday, hour, min⟩ := valid
  obtain ⟨year', mon', mday', hour', min'⟩ := other
  rw [minuteText, minuteText, field_inj (by omega) (by omega), field_inj (by omega) (by omega),
    field_inj (by omega) (by omega), field_inj (by omega) (by omega),
    field_inj (by omega) (by omega)]
  simp only [and_true, add_left_inj]
  rfl

end Minutes

section Localtime

variable (offset first second : Int)

/-- The order of the broken-down times is the order of the minutes. -/
theorem localtime_before_iff :
    (localtime offset first).Before (localtime offset second) ↔
      (first + offset) / 60 < (second + offset) / 60 := by
  have day := Calendar.dateOf_before_iff (epochDay + (first + offset) / 86400)
    (epochDay + (second + offset) / 86400)
  have same := Calendar.dateOf_inj (epochDay + (first + offset) / 86400)
    (epochDay + (second + offset) / 86400)
  rw [Calendar.Date.ext_iff] at same
  simp only [Calendar.Date.Before] at day
  simp only [Tm.Before, localtime]
  omega

theorem localtime_sameMinute_iff :
    (localtime offset first).SameMinute (localtime offset second) ↔
      (first + offset) / 60 = (second + offset) / 60 := by
  have same := Calendar.dateOf_inj (epochDay + (first + offset) / 86400)
    (epochDay + (second + offset) / 86400)
  rw [Calendar.Date.ext_iff] at same
  simp only [Tm.SameMinute, localtime]
  omega

theorem localtime_fourDigits
    (year : 1000 ≤ (localtime offset first).year + 1900 ∧
      (localtime offset first).year + 1900 ≤ 9999) : (localtime offset first).FourDigits := by
  have month := (Calendar.dateOf_spec (epochDay + (first + offset) / 86400)).2.2.1
  have day := Calendar.dateOf_day (epochDay + (first + offset) / 86400)
  refine ⟨year, ?_, day, ?_, ?_⟩
  all_goals
    simp only [localtime]
    omega

end Localtime

/-- The digits `%06d` shows of negative microseconds before the seventh byte. -/
def leadingDigits (n : Nat) : Nat := if n < 100000 then n else n / 10

/-- The order of the texts of the microseconds. Those of an instant before the epoch are
negative, and larger ones come behind. -/
def MicrosecondsBefore (first second : Int) : Prop :=
  if 0 ≤ first ∨ 0 ≤ second then first < second
  else leadingDigits first.natAbs < leadingDigits second.natAbs ∨
    leadingDigits first.natAbs = leadingDigits second.natAbs ∧ first.natAbs < second.natAbs

theorem microsecondTemplate_take (microseconds : Int) :
    (microsecondTemplate microseconds).bytes = (microsecondText microseconds).take 7 := by
  simp only [microsecondTemplate, GeneralTemplate.bytes, snprintf, List.take_take]
  rfl

theorem microsecondTemplate_of_nonneg {microseconds : Int} (nonneg : 0 ≤ microseconds)
    (small : microseconds < kMicroSecondsPerSecond) :
    (microsecondTemplate microseconds).bytes =
      fixed 6 microseconds.natAbs ++ (ascii " " ++ []) := by
  have bound : kMicroSecondsPerSecond = 1000000 := rfl
  have text : microsecondText microseconds = fixed 6 microseconds.natAbs ++ ascii " " := by
    rw [microsecondText, zeroPadded_of_nonneg nonneg (by decide) (by omega)]
  rw [microsecondTemplate_take, text, List.append_nil, List.take_of_length_le]
  rw [List.length_append, fixed_length]
  decide

/-- The sixth byte behind the sign is a space or a digit. -/
def signedEnd (n : Nat) : UInt8 := if n < 100000 then 0x20 else digit (n % 10)

theorem microsecondTemplate_of_neg {microseconds : Int} (negative : microseconds < 0)
    (small : -kMicroSecondsPerSecond < microseconds) :
    (microsecondTemplate microseconds).bytes =
      ascii "-" ++ (fixed 5 (leadingDigits microseconds.natAbs) ++
        [signedEnd microseconds.natAbs]) := by
  have bound : kMicroSecondsPerSecond = 1000000 := rfl
  have sign : (ascii "-").length = 1 := rfl
  rw [microsecondTemplate_take, leadingDigits, signedEnd]
  split
  · rename_i short
    have text : microsecondText microseconds =
        ascii "-" ++ (fixed 5 microseconds.natAbs ++ [0x20]) := by
      rw [microsecondText, zeroPadded_of_neg negative (by decide) short, List.append_assoc]
      rfl
    rw [text, List.take_of_length_le]
    simp [sign]
  · rename_i long
    have text : microsecondText microseconds =
        ascii "-" ++ fixed 6 microseconds.natAbs ++ ascii " " := by
      rw [microsecondText, zeroPadded_of_wide negative (by decide) (by omega) (by omega)]
    have length : (ascii "-" ++ fixed 6 microseconds.natAbs).length = 7 := by
      rw [List.length_append, sign, fixed_length]
    rw [text, ← length, List.take_left]
    rfl

theorem signedEnd_lt_iff {n m : Nat} (same : leadingDigits n = leadingDigits m) :
    signedEnd n < signedEnd m ↔ n < m := by
  have last := digit_lt_iff (Nat.mod_lt n (by decide : 10 > 0)) (Nat.mod_lt m (by decide : 10 > 0))
  have space (k : Nat) : (0x20 : UInt8).toNat < (digit (k % 10)).toNat := by
    rw [digit_toNat (Nat.mod_lt k (by decide)), show (0x20 : UInt8).toNat = 32 from rfl]
    omega
  have before := space m
  have behind := space n
  unfold leadingDigits at same
  unfold signedEnd
  split at same <;> split at same <;> rename_i short short'
  · simp only [short, short', ↓reduceIte]
    simp [same]
  · simp only [short, short', ↓reduceIte, UInt8.lt_iff_toNat_lt]
    omega
  · simp only [short, short', ↓reduceIte, UInt8.lt_iff_toNat_lt]
    omega
  · simp only [short, short', ↓reduceIte, last]
    omega

/-- A sign comes before any digit. -/
theorem sign_lt_fixed (width n : Nat) (rest behind : List UInt8) :
    ascii "-" ++ rest < fixed (width + 1) n ++ behind := by
  obtain ⟨d, tail, small, starts⟩ := fixed_head width n
  have smaller : (0x2d : UInt8) < digit d := by
    rw [UInt8.lt_iff_toNat_lt, digit_toNat small, show (0x2d : UInt8).toNat = 45 from rfl]
    omega
  rw [starts, show ascii "-" = [0x2d] from rfl, List.cons_append, List.cons_append,
    List.cons_lt_cons_iff]
  exact .inl smaller

theorem microsecondTemplate_lt_iff {first second : Int}
    (inside : -kMicroSecondsPerSecond < first ∧ first < kMicroSecondsPerSecond)
    (other : -kMicroSecondsPerSecond < second ∧ second < kMicroSecondsPerSecond) :
    (microsecondTemplate first).bytes < (microsecondTemplate second).bytes ↔
      MicrosecondsBefore first second := by
  have bound : kMicroSecondsPerSecond = 1000000 := rfl
  have narrow {n : Int} (lower : -kMicroSecondsPerSecond < n) (negative : n < 0) :
      leadingDigits n.natAbs < 10 ^ 5 := by
    unfold leadingDigits
    split <;> omega
  unfold MicrosecondsBefore
  rcases lt_or_ge first 0 with negative | nonneg
  · rw [microsecondTemplate_of_neg negative inside.1]
    rcases lt_or_ge second 0 with negative' | nonneg'
    · rw [if_neg (by omega), microsecondTemplate_of_neg negative' other.1, append_left_lt_iff,
        append_lt_append_iff (by simp), fixed_lt_iff (narrow inside.1 negative)
        (narrow other.1 negative'), fixed_inj (narrow inside.1 negative) (narrow other.1 negative')]
      refine or_congr_right (and_congr_right fun same => ?_)
      rw [← signedEnd_lt_iff same, List.cons_lt_cons_iff]
      simp
    · rw [if_pos (.inr nonneg'), microsecondTemplate_of_nonneg nonneg' other.2]
      exact iff_of_true (sign_lt_fixed _ _ _ _) (by omega)
  · rw [microsecondTemplate_of_nonneg nonneg inside.2]
    rcases lt_or_ge second 0 with negative' | nonneg'
    · rw [if_pos (.inl nonneg), microsecondTemplate_of_neg negative' other.1]
      exact iff_of_false (List.lt_asymm (sign_lt_fixed _ _ _ _)) (by omega)
    · rw [if_pos (.inl nonneg), microsecondTemplate_of_nonneg nonneg' other.2,
        field_lt_iff (by omega) (by omega)]
      simp only [List.not_lt_nil, and_false, or_false]

/-- The broken-down local time of an instant. -/
def localTm (offset now : Int) : Tm := localtime offset (now.tdiv kMicroSecondsPerSecond)

/-- The minute of local time an instant is in, counted from the epoch. -/
def localMinute (offset now : Int) : Int := (now.tdiv kMicroSecondsPerSecond + offset) / 60

def FourDigitYear (offset now : Int) : Prop :=
  1000 ≤ (localTm offset now).year + 1900 ∧ (localTm offset now).year + 1900 ≤ 9999
  deriving Decidable

variable {offset first second : Int}

theorem timePrefix_lt_iff (year : FourDigitYear offset first)
    (other : FourDigitYear offset second) :
    timePrefix (localtime offset) first < timePrefix (localtime offset) second ↔
      localMinute offset first < localMinute offset second ∨
        localMinute offset first = localMinute offset second ∧
          MicrosecondsBefore (first.tmod kMicroSecondsPerSecond)
            (second.tmod kMicroSecondsPerSecond) := by
  have inside (now : Int) : -kMicroSecondsPerSecond < now.tmod kMicroSecondsPerSecond ∧
      now.tmod kMicroSecondsPerSecond < kMicroSecondsPerSecond := by
    have remainder : (now.tmod 1000000).natAbs = now.natAbs % 1000000 :=
      Int.natAbs_tmod now 1000000
    rw [show kMicroSecondsPerSecond = 1000000 from rfl]
    omega
  have valid := localtime_fourDigits offset _ year
  have valid' := localtime_fourDigits offset _ other
  rw [timePrefix, timePrefix, timerTemplate_bytes valid, timerTemplate_bytes valid',
    append_lt_append_iff (by simp), minuteText_lt_iff valid valid', minuteText_inj valid valid',
    localtime_before_iff, localtime_sameMinute_iff,
    microsecondTemplate_lt_iff (inside first) (inside second)]
  rfl

/-- Of two instants the first has the smaller prefix exactly when it is in an earlier minute, or
in the same one with the smaller microseconds; the seconds are not in the prefix. -/
theorem formatTime_lt_iff (year : FourDigitYear offset first)
    (other : FourDigitYear offset second) (memory memory' : Vector UInt8 kSmallBufferSize) :
    ∃ stream stream',
      formatTime (localtime offset) first (LogStream.construct memory) = .ok stream ∧
      formatTime (localtime offset) second (LogStream.construct memory') = .ok stream' ∧
      (stream.contents < stream'.contents ↔
        localMinute offset first < localMinute offset second ∨
          localMinute offset first = localMinute offset second ∧
            MicrosecondsBefore (first.tmod kMicroSecondsPerSecond)
              (second.tmod kMicroSecondsPerSecond)) := by
  obtain ⟨stream, formatted, contents⟩ := formatTime_contents (localtime offset) first memory
  obtain ⟨stream', formatted', contents'⟩ := formatTime_contents (localtime offset) second memory'
  refine ⟨stream, stream', formatted, formatted', ?_⟩
  rw [contents, contents']
  exact timePrefix_lt_iff year other

/-- The last microsecond of a minute and the first of the next. -/
theorem formatTime_lt_nextMinute :
    ∃ stream stream', formatTime (localtime 28800) 59999999
        (LogStream.construct (Vector.replicate kSmallBufferSize 0)) = .ok stream ∧
      formatTime (localtime 28800) 60000000
        (LogStream.construct (Vector.replicate kSmallBufferSize 1)) = .ok stream' ∧
      (stream.contents < stream'.contents ↔
        localMinute 28800 59999999 < localMinute 28800 60000000 ∨
          localMinute 28800 59999999 = localMinute 28800 60000000 ∧
            MicrosecondsBefore 999999 0) :=
  formatTime_lt_iff (by decide) (by decide) _ _

/-- One second after another the prefix is the same. -/
theorem formatTime_nextSecond_same :
    FourDigitYear 0 1000000 ∧ FourDigitYear 0 2000000 ∧
    ∃ stream stream', formatTime (localtime 0) 1000000
        (LogStream.construct (Vector.replicate kSmallBufferSize 0)) = .ok stream ∧
      formatTime (localtime 0) 2000000
        (LogStream.construct (Vector.replicate kSmallBufferSize 0)) = .ok stream' ∧
      stream.contents = stream'.contents ∧ ¬stream.contents < stream'.contents := by
  have year : FourDigitYear 0 1000000 := by decide
  have other : FourDigitYear 0 2000000 := by decide
  have minute : minuteText (localtime 0 1) = minuteText (localtime 0 2) := by
    rw [minuteText_inj (localtime_fourDigits 0 1 year) (localtime_fourDigits 0 2 other),
      localtime_sameMinute_iff]
    decide
  have same : timePrefix (localtime 0) 1000000 = timePrefix (localtime 0) 2000000 := by
    have timer : (timerTemplate (localtime 0 1)).bytes = (timerTemplate (localtime 0 2)).bytes := by
      rw [timerTemplate_bytes (localtime_fourDigits 0 1 year),
        timerTemplate_bytes (localtime_fourDigits 0 2 other), minute]
    exact congrArg (· ++ (microsecondTemplate 0).bytes) timer
  obtain ⟨stream, formatted, contents⟩ := formatTime_contents (localtime 0) 1000000
    (Vector.replicate kSmallBufferSize 0)
  obtain ⟨stream', formatted', contents'⟩ := formatTime_contents (localtime 0) 2000000
    (Vector.replicate kSmallBufferSize 0)
  have equal : stream.contents = stream'.contents := by
    rw [contents, contents', same]
  refine ⟨year, other, stream, stream', formatted, formatted', equal, ?_⟩
  rw [equal]
  exact List.lt_irrefl _

end KamaWebserver
