import DocumentReplication.Proofs.Time.Calendar
import DocumentReplication.Text.Encoding
import DocumentReplication.Time.InternetDate
import Mathlib.Algebra.Group.Nat.Defs

/-!
Reading back what `InternetDate.write` writes, for every moment. Numbers are padded to the width
they are read with, so that a part ends where the next mark begins.
-/

namespace DocumentReplication

theorem Text.length_utf8_ofList_le (text : List Char) :
    (Text.utf8 (String.ofList text)).length ≤ 4 * text.length := by
  induction text with
  | nil => exact Nat.le_refl 0
  | cons c rest ih =>
      have width := c.utf8Size_le_four
      simp [Text.utf8, List.utf8Encode] at ih ⊢
      omega

namespace Decimal

variable {number width : Nat} {c : Char}

theorem length_digits_le (small : number < 10 ^ width) (positive : 0 < width) :
    (digits number).length ≤ width := by
  obtain ⟨places, rfl⟩ : ∃ places, width = places + 1 := ⟨width - 1, by omega⟩
  clear positive
  induction places generalizing number with
  | zero =>
      rw [digits, if_pos (by omega)]
      exact Nat.le_refl 1
  | succ places ih =>
      rw [digits]
      split
      · exact Nat.le_add_left 1 _
      · rw [List.length_append]
        exact Nat.succ_le_succ (ih (Nat.div_lt_of_lt_mul (by rw [Nat.mul_comm]; exact small)))

theorem value_replicate_zero (places : Nat) (text : List Char) :
    value (List.replicate places '0' ++ text) = value text := by
  induction places with
  | zero => rfl
  | succ places ih => simpa [value, List.replicate_succ, digitValue] using ih

theorem value_padded (width number : Nat) : value (padded width number) = number := by
  rw [padded, value_replicate_zero, value_digits]

theorem isDigit_of_mem_padded (member : c ∈ padded width number) : isDigit c = true := by
  rcases List.mem_append.mp member with zero | written
  · rw [List.eq_of_mem_replicate zero]
    rfl
  · exact List.all_eq_true.mp (all_isDigit_digits number) c written

theorem length_padded (small : number < 10 ^ width) (positive : 0 < width) :
    (padded width number).length = width := by
  have shorter := length_digits_le small positive
  rw [padded, List.length_append, List.length_replicate]
  omega

theorem length_padded_le {places : Nat} (small : number < 10 ^ places) (positive : 0 < places)
    (wide : width ≤ places) : (padded width number).length ≤ places := by
  have shorter := length_digits_le small positive
  rw [padded, List.length_append, List.length_replicate]
  omega

theorem padded_ne_nil (width number : Nat) : padded width number ≠ [] := by
  simp [padded, digits_ne_nil]

theorem not_isBlank_of_isDigit (digit : isDigit c = true) : Text.isBlank c = false := by
  simp only [isDigit, Bool.and_eq_true, decide_eq_true_eq, Char.le_def, UInt32.le_iff_toNat_le]
    at digit
  have lower : 48 ≤ c.val.toNat := digit.1
  have upper : c.val.toNat ≤ 57 := digit.2
  have apart (other : Char) (outside : other.val.toNat < 48 ∨ 57 < other.val.toNat) :
      (c == other) = false := by
    rw [beq_eq_false_iff_ne]
    rintro rfl
    omega
  have early : decide (c ≤ '\r') = false := by
    rw [decide_eq_false_iff_not, Char.le_def, UInt32.le_iff_toNat_le]
    have : ('\r' : Char).val.toNat = 13 := rfl
    omega
  have late : decide ('\u2000' ≤ c) = false := by
    rw [decide_eq_false_iff_not, Char.le_def, UInt32.le_iff_toNat_le]
    have : ('\u2000' : Char).val.toNat = 8192 := rfl
    omega
  simp only [Text.isBlank, early, late, apart _ (.inl (by decide : (' ' : Char).val.toNat < 48)),
    apart _ (.inr (by decide : 57 < ('\u0085' : Char).val.toNat)),
    apart _ (.inr (by decide : 57 < ('\u00a0' : Char).val.toNat)),
    apart _ (.inr (by decide : 57 < ('\u1680' : Char).val.toNat)),
    apart _ (.inr (by decide : 57 < ('\u2028' : Char).val.toNat)),
    apart _ (.inr (by decide : 57 < ('\u2029' : Char).val.toNat)),
    apart _ (.inr (by decide : 57 < ('\u202f' : Char).val.toNat)),
    apart _ (.inr (by decide : 57 < ('\u205f' : Char).val.toNat)),
    apart _ (.inr (by decide : 57 < ('\u3000' : Char).val.toNat)),
    Bool.and_false, Bool.false_and, Bool.or_false]

end Decimal

namespace InternetDate

open Text Decimal

variable {number width : Nat} {c : Char} {written rest : List Char}

theorem trimStart_cons (solid : isBlank c = false) : trimStart (c :: rest) = c :: rest := by
  simp [trimStart, solid]

theorem isDigit_head_padded {tail : List Char} (starts : padded width number ++ rest = c :: tail) :
    isDigit c = true := by
  cases shape : padded width number with
  | nil => exact absurd shape (padded_ne_nil _ _)
  | cons head others =>
      rw [shape, List.cons_append] at starts
      rw [← (List.cons.inj starts).1]
      exact isDigit_of_mem_padded (by rw [shape]; exact List.mem_cons_self)

theorem trimStart_padded : trimStart (padded width number ++ rest) = padded width number ++ rest := by
  cases shape : padded width number ++ rest with
  | nil => exact absurd (List.append_eq_nil_iff.mp shape).1 (padded_ne_nil _ _)
  | cons head tail => exact trimStart_cons (not_isBlank_of_isDigit (isDigit_head_padded shape))

/-- A number is read to its last digit, if the width allows all of them and then either the width or
the digits end. -/
theorem number?_append (digits : ∀ c ∈ written, isDigit c = true) (some : written ≠ [])
    (allowed : written.length ≤ width)
    (ends : written.length = width ∨ ∀ c ∈ rest.head?, isDigit c = false) :
    number? width (written ++ rest) = .some (value written, rest) := by
  have taken : ((written ++ rest).take width).takeWhile isDigit = written := by
    rw [List.take_append, List.take_of_length_le allowed, List.takeWhile_append_of_pos digits]
    rcases ends with full | stops
    · simp [full]
    · cases rest with
      | nil => simp
      | cons head tail =>
          cases width - written.length with
          | zero => simp
          | succ more => simp [stops head (by simp)]
  simp only [number?, taken, List.isEmpty_iff, some, if_false, List.drop_left]

theorem part?_padded (small : number < 10 ^ width) (positive : 0 < width) :
    part? width (padded width number ++ rest) = some (number, rest) := by
  rw [part?, trimStart_padded, number?_append (fun _ => isDigit_of_mem_padded) (padded_ne_nil _ _)
    (Nat.le_of_eq (length_padded small positive)) (.inl (length_padded small positive)),
    value_padded]

theorem year?_year (number : Int) :
    year? (year number ++ '-' :: rest) = some (number, '-' :: rest) := by
  have ends : ∀ c ∈ ('-' :: rest).head?, isDigit c = false := by simp; decide
  have read (width size : Nat) (allowed : (padded 4 size).length ≤ width)  :
      number? width (padded 4 size ++ '-' :: rest) = some (size, '-' :: rest) := by
    rw [number?_append (fun _ => isDigit_of_mem_padded) (padded_ne_nil _ _) allowed (.inr ends),
      value_padded]
  have long (size : Nat) : (padded 4 size).length ≤ (padded 4 size ++ '-' :: rest).length := by
    simp
  match number with
  | .ofNat size =>
    by_cases short : size ≤ 9999
    · have unsigned : (padded 4 size).length = 4 := length_padded (by omega) (by decide)
      simp only [year, if_pos short, year?, trimStart_padded]
      split
      · rename_i starts
        exact absurd (isDigit_head_padded starts) (by decide)
      · rename_i starts
        exact absurd (isDigit_head_padded starts) (by decide)
      · simp only [read 4 size (Nat.le_of_eq unsigned)]
        rfl
    · simp only [year, if_neg short, List.cons_append, year?, trimStart_cons (c := '+') rfl,
        read _ size (long size)]
      rfl
  | .negSucc size =>
    simp only [year, List.cons_append, year?, trimStart_cons (c := '-') rfl,
      read _ (size + 1) (long (size + 1))]
    rfl

theorem mark?_cons (solid : isBlank c = false) : mark? c (c :: rest) = some rest := by
  simp [mark?, trimStart_cons solid]

theorem twoDigits_of_exists {day : CalendarDate} (real : day.Exists) :
    day.month < 10 ^ 2 ∧ day.day < 10 ^ 2 := by
  have most : CalendarDate.daysInMonth day.year day.month ≤ 31 := by
    unfold CalendarDate.daysInMonth
    split <;> split <;> omega
  exact ⟨Nat.lt_of_le_of_lt real.2.1 (by decide),
    Nat.lt_of_le_of_lt (Nat.le_trans real.2.2.2 most) (by decide)⟩

theorem date?_date {day : CalendarDate} (real : day.Exists)
    (inRange : -262143 ≤ day.year ∧ day.year ≤ 262142) :
    date? (date day ++ rest) = some (day, rest) := by
  obtain ⟨monthSmall, daySmall⟩ := twoDigits_of_exists real
  simp only [date?, date, List.append_assoc, List.cons_append, year?_year,
    mark?_cons (c := '-') rfl, part?_padded monthSmall (by decide),
    part?_padded daySmall (by decide), Option.bind_eq_bind, Option.bind_some]
  exact if_pos ⟨real, inRange⟩

theorem fraction?_clock {fraction : Nat} (small : fraction < 1000) :
    fraction? ((if fraction = 0 then [] else '.' :: padded 3 fraction) ++ 'Z' :: rest) =
      some (fraction, 'Z' :: rest) := by
  by_cases zero : fraction = 0
  · simp [zero, fraction?]
  · have three : (padded 3 fraction).length = 3 := length_padded (by omega) (by decide)
    have digits : (padded 3 fraction ++ 'Z' :: rest).takeWhile isDigit = padded 3 fraction := by
      rw [List.takeWhile_append_of_pos fun _ => isDigit_of_mem_padded]
      simp [show isDigit 'Z' = false from by decide]
    simp only [if_neg zero, List.cons_append, fraction?, digits, List.isEmpty_iff, padded_ne_nil,
      if_false, List.drop_left]
    rw [List.take_of_length_le (Nat.le_of_eq three), three, value_padded]
    rfl

/-- The second 60 is counted as the second 59 that it follows. -/
theorem clock?_clock {millis : Nat} {leap : Bool} (small : millis < 86400000)
    (ends : leap = true → millis / 1000 % 60 = 59) :
    clock? (clock millis leap ++ 'Z' :: rest) = some (millis, leap, 'Z' :: rest) := by
  have hour : millis / 1000 / 3600 < 10 ^ 2 := by omega
  have minute : millis / 1000 / 60 % 60 < 10 ^ 2 := by omega
  have second : (if leap then 60 else millis / 1000 % 60) < 10 ^ 2 := by
    split <;> omega
  simp only [clock?, clock, List.append_assoc, List.cons_append, mark?_cons (c := ':') rfl,
    part?_padded hour (by decide), part?_padded minute (by decide), part?_padded second (by decide),
    Option.bind_eq_bind, Option.bind_some, fraction?_clock (Nat.mod_lt millis (by decide))]
  cases leap with
  | true =>
      have last := ends rfl
      rw [if_pos (by simp; omega)]
      simp
      omega
  | false =>
      rw [if_pos (by simp; omega)]
      simp
      omega

theorem year_inRange (time : Timestamp) :
    -262143 ≤ (CalendarDate.ofDays (time.regular / dayMillis)).year ∧
      (CalendarDate.ofDays (time.regular / dayMillis)).year ≤ 262142 := by
  obtain ⟨lower, upper, -⟩ := time.valid
  simp only [Timestamp.minMillis, Timestamp.maxMillis] at lower upper
  exact CalendarDate.year_ofDays (by simp only [dayMillis]; omega) (by simp only [dayMillis]; omega)

theorem ofDay_lt (time : Timestamp) : (time.regular % dayMillis).toNat < 86400000 := by
  have small : time.regular % dayMillis < 86400000 := Int.emod_lt_of_pos _ (by decide)
  omega

theorem read?_write (time : Timestamp) : read? (write time) = some time := by
  have real := CalendarDate.exists_ofDays (time.regular / dayMillis)
  have positive : 0 ≤ time.regular % dayMillis := Int.emod_nonneg _ (by decide)
  have total := Int.mul_ediv_add_emod time.regular dayMillis
  have ends : time.leap = true → (time.regular % dayMillis).toNat / 1000 % 60 = 59 := by
    intro leap
    have last := time.valid.2.2 leap
    simp only [dayMillis]
    omega
  have clockOf : clock? (clock (time.regular % dayMillis).toNat time.leap ++ ['Z']) =
      some ((time.regular % dayMillis).toNat, time.leap, ['Z']) :=
    clock?_clock (ofDay_lt time) ends
  have sum : (CalendarDate.ofDays (time.regular / dayMillis)).toDays * dayMillis +
      ((time.regular % dayMillis).toNat : Int) - 0 * 60000 = time.regular := by
    rw [CalendarDate.toDays_ofDays, Int.mul_comm]
    omega
  have separator (rest : List Char) : separated? ('T' :: rest) = some rest := rfl
  have universal : offset? (trimStart ['Z']) = some (0, []) := rfl
  have nothing : (trimStart []).isEmpty = true := rfl
  simp only [List.append_assoc, List.cons_append, write, read?, date?_date real (year_inRange time), separator,
    clockOf, universal, nothing, sum, Option.bind_eq_bind, Option.bind_some, if_true]
  exact Timestamp.of?_eq_some_iff.mpr ⟨rfl, rfl⟩

theorem ofText?_text (time : Timestamp) : ofText? (text time) = some time := by
  rw [ofText?, text, String.toList_ofList, read?_write]

theorem length_year_le {number : Int} (lower : -262143 ≤ number) (upper : number ≤ 262142) :
    (year number).length ≤ 7 := by
  have written (size : Nat) (small : size ≤ 262143) : (padded 4 size).length ≤ 6 :=
    length_padded_le (by omega) (by decide) (by decide)
  cases number with
  | ofNat size =>
      rw [Int.ofNat_eq_natCast] at upper
      have digits := written size (by omega)
      simp only [year]
      split
      · omega
      · exact Nat.succ_le_succ digits
  | negSucc size =>
      have digits := written (size + 1) (by omega)
      exact Nat.succ_le_succ digits

theorem length_clock_le {millis : Nat} (leap : Bool) (small : millis < 86400000) :
    (clock millis leap).length ≤ 12 := by
  have second : (if leap then 60 else millis / 1000 % 60) < 10 ^ 2 := by
    split <;> omega
  have hours : (padded 2 (millis / 1000 / 3600)).length = 2 := length_padded (by omega) (by decide)
  have minutes : (padded 2 (millis / 1000 / 60 % 60)).length = 2 :=
    length_padded (by omega) (by decide)
  have seconds := length_padded second (by decide)
  have fraction : (padded 3 (millis % 1000)).length = 3 := length_padded (by omega) (by decide)
  simp only [clock, List.length_append, List.length_cons, hours, minutes, seconds]
  split
  · simp
  · simp [fraction]

theorem length_write_le (time : Timestamp) : (write time).length ≤ 27 := by
  obtain ⟨early, late⟩ := year_inRange time
  obtain ⟨monthSmall, daySmall⟩ :=
    twoDigits_of_exists (CalendarDate.exists_ofDays (time.regular / dayMillis))
  have years := length_year_le early late
  have clocks := length_clock_le time.leap (ofDay_lt time)
  simp only [write, date, List.length_append, List.length_cons, List.length_nil,
    length_padded monthSmall (by decide), length_padded daySmall (by decide)]
  omega

theorem length_utf8_text (time : Timestamp) : (Text.utf8 (text time)).length < UInt64.size := by
  have characters := Text.length_utf8_ofList_le (write time)
  have few := length_write_le time
  simp only [text, UInt64.size]
  omega

end InternetDate

end DocumentReplication
