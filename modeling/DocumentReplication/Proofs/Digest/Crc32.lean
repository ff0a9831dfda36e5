import DocumentReplication.Bytes.LittleEndian
import DocumentReplication.Digest.Checksum

/-!
What the checksum tells apart. A shift of the register is linear and loses nothing. So octets that
follow never make up for a difference, and up to four octets go into the register without loss:
whatever becomes of four octets in a row, the register ends up different.
-/

namespace DocumentReplication

namespace Crc32

open LittleEndian

theorem and_one_eq_one_iff (register : UInt32) : register &&& 1 = 1 ↔ register.toNat % 2 = 1 := by
  rw [← UInt32.toNat_inj, UInt32.toNat_and]
  exact iff_of_eq (congrArg (· = 1) (Nat.and_one_is_mod _))

theorem toNat_shiftRight_one (register : UInt32) : (register >>> 1).toNat = register.toNat / 2 := by
  rw [UInt32.toNat_shiftRight]
  exact Nat.shiftRight_eq_div_pow register.toNat 1

theorem shift_xor (first last : UInt32) : shift (first ^^^ last) = shift first ^^^ shift last := by
  have low : (first ^^^ last) &&& 1 = 1 ↔ ¬ (first &&& 1 = 1 ↔ last &&& 1 = 1) := by
    simp only [and_one_eq_one_iff, UInt32.toNat_xor]
    exact Nat.xor_mod_two_eq_one
  simp only [shift, low, UInt32.shiftRight_xor]
  by_cases one : first &&& 1 = 1 <;> by_cases two : last &&& 1 = 1 <;>
    simp only [one, two, iff_self, iff_false, false_iff, not_true_eq_false, not_false_eq_true,
      if_true, if_false]
  · -- The polynomial is added twice, which is not at all.
    rw [UInt32.xor_assoc (first >>> 1), UInt32.xor_comm 0xEDB88320, UInt32.xor_assoc (last >>> 1),
      UInt32.xor_self, UInt32.xor_zero]
  · rw [UInt32.xor_assoc, UInt32.xor_assoc, UInt32.xor_comm 0xEDB88320]
  · rw [UInt32.xor_assoc]

theorem eq_zero_of_shift {register : UInt32} (gone : shift register = 0) : register = 0 := by
  have bound := register.toNat_lt
  unfold shift at gone
  split at gone
  · -- The bit that leaves sets the highest bit, which no shift to the right can clear.
    have same := congrArg UInt32.toNat (UInt32.xor_eq_zero_iff.mp gone)
    rw [toNat_shiftRight_one] at same
    have high : (0xEDB88320 : UInt32).toNat = 0xEDB88320 := rfl
    omega
  · rename_i even
    have rest := congrArg UInt32.toNat gone
    rw [toNat_shiftRight_one] at rest
    rw [and_one_eq_one_iff] at even
    have zero : (0 : UInt32).toNat = 0 := rfl
    exact UInt32.toNat_inj.mp (by omega)

theorem shift_injective : Function.Injective shift := by
  intro first last same
  have none : shift (first ^^^ last) = 0 := by
    rw [shift_xor, same, UInt32.xor_self]
  exact UInt32.xor_eq_zero_iff.mp (eq_zero_of_shift none)

theorem repeat_shift_xor (count : Nat) (first last : UInt32) :
    Nat.repeat shift count (first ^^^ last) =
      Nat.repeat shift count first ^^^ Nat.repeat shift count last := by
  induction count with
  | zero => rfl
  | succ count ih => simp only [Nat.repeat, ih, shift_xor]

theorem repeat_shift_injective (count : Nat) : Function.Injective (Nat.repeat shift count) := by
  induction count with
  | zero => exact fun _ _ same => same
  | succ count ih => exact shift_injective.comp ih

theorem repeat_shift_add (count more : Nat) (register : UInt32) :
    Nat.repeat shift (count + more) register =
      Nat.repeat shift count (Nat.repeat shift more register) := by
  induction count with
  | zero => rw [Nat.zero_add]; rfl
  | succ count ih => rw [Nat.add_right_comm, Nat.repeat, ih]; rfl

theorem shift_double {value : Nat} (bound : 2 * value < UInt32.size) :
    shift (UInt32.ofNat (2 * value)) = UInt32.ofNat value := by
  have exact : (UInt32.ofNat (2 * value)).toNat = 2 * value := UInt32.toNat_ofNat_of_lt' bound
  have even : ¬ (UInt32.ofNat (2 * value) &&& 1 = 1) := by
    rw [and_one_eq_one_iff, exact]
    omega
  have half : (UInt32.ofNat value).toNat = value := UInt32.toNat_ofNat_of_lt' (by omega)
  rw [shift, if_neg even, ← UInt32.toNat_inj, toNat_shiftRight_one, exact, half]
  omega

/-- Shifting undoes a shift the other way in which no bit left. -/
theorem repeat_shift_shiftLeft {count value : Nat} (bound : value <<< count < UInt32.size) :
    Nat.repeat shift count (UInt32.ofNat (value <<< count)) = UInt32.ofNat value := by
  induction count with
  | zero => rfl
  | succ count ih =>
      rw [Nat.shiftLeft_succ] at bound ⊢
      have once : Nat.repeat shift 1 (UInt32.ofNat (2 * value <<< count)) =
          UInt32.ofNat (value <<< count) := shift_double bound
      rw [repeat_shift_add, once]
      exact ih (by omega)

theorem absorb_injective (byte : UInt8) : Function.Injective (absorb · byte) := by
  intro first last same
  have mixed : first ^^^ byte.toUInt32 = last ^^^ byte.toUInt32 := repeat_shift_injective 8 same
  exact (UInt32.xor_left_inj _).mp mixed

theorem run_injective (bytes : Bytes) : Function.Injective (run · bytes) := by
  induction bytes with
  | nil => exact fun _ _ same => same
  | cons byte rest ih => exact ih.comp (absorb_injective byte)

theorem mod_xor_div_shiftLeft (value : Nat) : value % 256 ^^^ (value / 256) <<< 8 = value := by
  have low : value % 256 < 2 ^ 8 := Nat.mod_lt value (by decide)
  have quotient : (value % 256 ^^^ (value / 256) <<< 8) / 2 ^ 8 = value / 256 := by
    rw [Nat.xor_div_two_pow, Nat.div_eq_of_lt low, Nat.shiftLeft_eq, Nat.mul_div_cancel _ (by decide),
      Nat.zero_xor]
  have remainder : (value % 256 ^^^ (value / 256) <<< 8) % 2 ^ 8 = value % 256 := by
    rw [Nat.xor_mod_two_pow, Nat.mod_eq_of_lt low, Nat.shiftLeft_eq, Nat.mul_mod_left, Nat.xor_zero]
  omega

/-- The octets of a number below the bounds enter the register like the number itself. -/
theorem run_ofNat {width value : Nat} (register : UInt32) (fits : value < capacity width)
    (bound : value < UInt32.size) :
    run register (ofNat width value) =
      Nat.repeat shift (8 * width) (register ^^^ UInt32.ofNat value) := by
  induction width generalizing value register with
  | zero =>
      obtain rfl : value = 0 := Nat.lt_one_iff.mp fits
      simp [ofNat, run, Nat.repeat]
  | succ width ih =>
      have rest : value / 256 < capacity width := Nat.div_lt_of_lt_mul fits
      have high : (value / 256) <<< 8 < UInt32.size := by
        rw [Nat.shiftLeft_eq]
        omega
      have split : UInt32.ofNat value =
          (UInt8.ofNat (value % 256)).toUInt32 ^^^ UInt32.ofNat ((value / 256) <<< 8) := by
        have low : value % 256 < 256 := Nat.mod_lt value (by decide)
        have byte : (UInt8.ofNat (value % 256)).toUInt32 = UInt32.ofNat (value % 256) := by
          rw [← UInt32.toNat_inj, UInt8.toNat_toUInt32, UInt8.toNat_ofNat_of_lt' low,
            UInt32.toNat_ofNat_of_lt' (Nat.lt_trans low (by decide))]
        rw [byte, ← UInt32.ofNat_xor, mod_xor_div_shiftLeft]
      rw [Nat.mul_succ, repeat_shift_add, split, ← UInt32.xor_assoc, repeat_shift_xor,
        repeat_shift_shiftLeft high, ofNat]
      exact ih _ rest (by omega)

theorem run_word32 (register word : UInt32) :
    run register (word32 word) = Nat.repeat shift 32 (register ^^^ word) := by
  rw [word32, run_ofNat register word.toNat_lt word.toNat_lt, UInt32.ofNat_toNat]

theorem capacity_le {width : Nat} (short : width ≤ 4) : capacity width ≤ UInt32.size := by
  match width with
  | 0 | 1 | 2 | 3 | 4 => decide

/-- No two runs of up to four octets take the register to the same place. -/
theorem run_inj_of_short {register : UInt32} {first last : Bytes} (width : last.length = first.length)
    (short : first.length ≤ 4) (same : run register first = run register last) : first = last := by
  have run_eq (bytes : Bytes) (short : bytes.length ≤ 4) :
      run register bytes =
        Nat.repeat shift (8 * bytes.length) (register ^^^ UInt32.ofNat (toNat bytes)) := by
    have bound := Nat.lt_of_lt_of_le (toNat_lt bytes) (capacity_le short)
    rw [← run_ofNat register (toNat_lt bytes) bound, ofNat_toNat]
  have bound (bytes : Bytes) (short : bytes.length ≤ 4) : toNat bytes < UInt32.size :=
    Nat.lt_of_lt_of_le (toNat_lt bytes) (capacity_le short)
  rw [run_eq first short, run_eq last (width ▸ short), width] at same
  have words := (UInt32.xor_right_inj _).mp (repeat_shift_injective _ same)
  have numbers := congrArg UInt32.toNat words
  rw [UInt32.toNat_ofNat_of_lt' (bound first short),
    UInt32.toNat_ofNat_of_lt' (bound last (width ▸ short))] at numbers
  rw [← ofNat_toNat first, ← ofNat_toNat last, numbers, width]

end Crc32

namespace Bytes

variable {width : Nat} {bytes damaged : Bytes}

/-- Octets that differ from others, but only within a run of so many. -/
structure Burst (width : Nat) (bytes damaged : Bytes) : Prop where
  length : damaged.length = bytes.length
  differs : damaged ≠ bytes
  near : ∃ start, ∀ index, damaged[index]? ≠ bytes[index]? → start ≤ index ∧ index < start + width

theorem burst_iff :
    Burst width bytes damaged ↔ ∃ front hit other back : Bytes, bytes = front ++ hit ++ back ∧
      damaged = front ++ other ++ back ∧ other.length = hit.length ∧ hit.length ≤ width ∧
        other ≠ hit := by
  constructor
  · intro burst
    obtain ⟨length, differs, start, near⟩ := burst
    have front : damaged.take start = bytes.take start := by
      refine List.ext_getElem? fun index => ?_
      simp only [List.getElem?_take]
      split
      · rename_i before
        exact Decidable.byContradiction fun changed =>
          Nat.not_le_of_lt before (near index changed).1
      · rfl
    have back : (damaged.drop start).drop width = (bytes.drop start).drop width := by
      refine List.ext_getElem? fun index => ?_
      simp only [List.getElem?_drop]
      refine Decidable.byContradiction fun changed => ?_
      have inside := (near _ changed).2
      omega
    have whole (some : Bytes) :
        some = some.take start ++ (some.drop start).take width ++ (some.drop start).drop width := by
      rw [List.append_assoc, List.take_append_drop, List.take_append_drop]
    refine ⟨bytes.take start, (bytes.drop start).take width, (damaged.drop start).take width,
      (bytes.drop start).drop width, whole bytes, ?_, ?_, ?_, ?_⟩
    · rw [← front, ← back]
      exact whole damaged
    · simp only [List.length_take, List.length_drop, length]
    · exact List.length_take_le ..
    · intro same
      refine differs ?_
      rw [whole damaged, front, same, back, ← whole bytes]
  · intro parts
    obtain ⟨front, hit, other, back, rfl, rfl, length, short, differs⟩ := parts
    refine ⟨by simp [length], fun same => differs ?_, front.length, fun index changed => ?_⟩
    · simpa using same
    · refine Decidable.byContradiction fun outside => changed ?_
      rcases Nat.lt_or_ge index front.length with before | after
      · rw [List.append_assoc, List.append_assoc, List.getElem?_append_left before,
          List.getElem?_append_left before]
      · rw [List.getElem?_append_right (by simp only [List.length_append]; omega),
          List.getElem?_append_right (by simp only [List.length_append]; omega)]
        simp only [List.length_append, length]

end Bytes

namespace Crc32

open LittleEndian

theorem run_ne_of_burst {bytes damaged : Bytes} (burst : bytes.Burst 4 damaged) (register : UInt32) :
    run register damaged ≠ run register bytes := by
  obtain ⟨front, hit, other, back, rfl, rfl, width, short, differs⟩ := Bytes.burst_iff.mp burst
  intro same
  simp only [run_append] at same
  exact differs (run_inj_of_short width short (run_injective back same.symm)).symm

/-- What the register holds after any octets and their checksum. -/
def residue : UInt32 :=
  Nat.repeat shift 32 0xFFFFFFFF

theorem run_checksum (bytes : Bytes) :
    run 0xFFFFFFFF (bytes ++ word32 (checksum bytes)) = residue := by
  rw [run_append, run_word32, checksum, ← UInt32.xor_assoc, UInt32.xor_self, UInt32.zero_xor,
    residue]

/-- Octets and their checksum, changed within four octets in a row, are no longer that. -/
theorem checksum_burst {bytes other damaged : Bytes}
    (burst : (bytes ++ word32 (checksum bytes)).Burst 4 damaged) :
    damaged ≠ other ++ word32 (checksum other) := by
  intro same
  subst same
  exact run_ne_of_burst burst 0xFFFFFFFF ((run_checksum other).trans (run_checksum bytes).symm)

end Crc32

end DocumentReplication
