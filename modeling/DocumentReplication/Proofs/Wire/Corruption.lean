import DocumentReplication.Proofs.Digest.Crc32
import DocumentReplication.Proofs.Wire.Framing

/-!
Damage to a frame on its way. While the octets that count its payload stay as they are, a reader takes
as many octets as were sent, and the checksum shows any change within four octets in a row: nothing
that was damaged so is ever read as a frame.
-/

namespace DocumentReplication.Frame

open LittleEndian

variable {limit : Nat} {bytes damaged left : Bytes} {frame : Frame} {fault : Fault}

/-- What arrives in place of a frame: up to four octets in a row were changed, none of them among
those that count the payload. -/
structure Damaged (frame : Frame) (damaged : Bytes) : Prop where
  burst : frame.encode.Burst 4 damaged
  counted : ∀ index, 1 ≤ index → index ≤ 4 → damaged[index]? = frame.encode[index]?

/-- The octets that count the payload of a frame at the beginning. -/
def countField (bytes : Bytes) : Bytes :=
  (bytes.drop 1).take 4

theorem countField_encode (frame : Frame) (rest : Bytes) :
    countField (frame.encode ++ rest) = word32 (UInt32.ofNat frame.payload.length) := by
  have width := length_word32 (UInt32.ofNat frame.payload.length)
  simp only [countField, encode, header, List.cons_append, List.drop_succ_cons, List.drop_zero,
    List.append_assoc]
  rw [← width, List.take_left]

theorem Damaged.countField (damage : frame.Damaged damaged) (rest : Bytes) :
    countField (damaged ++ rest) = word32 (UInt32.ofNat frame.payload.length) := by
  rw [← countField_encode frame rest]
  have long := length_encode frame
  have width := damage.burst.length
  refine List.ext_getElem? fun index => ?_
  simp only [Frame.countField, List.getElem?_take, List.getElem?_drop]
  split
  · rw [List.getElem?_append_left (by omega), List.getElem?_append_left (by omega)]
    exact damage.counted (1 + index) (by omega) (by omega)
  · rfl

/-- A reader that starves has less than the frame that begins there. -/
theorem length_lt_of_starved (starved : read limit bytes = .starved fault left) :
    bytes.length < (toWord32 (countField bytes)).toNat + 9 := by
  simp only [read] at starved
  split at starved
  · rename_i short
    have few := Bytes.split?_eq_none_iff.mp short
    omega
  · rename_i head rest taken
    obtain ⟨rfl, width⟩ := Bytes.split?_eq_some_iff.mp taken
    have field : countField (head ++ rest) = head.tail := by
      obtain ⟨tag, size, rfl⟩ := List.exists_cons_of_length_eq_add_one width
      have four : size.length = 4 := Nat.succ.inj width
      simp only [countField, List.cons_append, List.drop_succ_cons, List.drop_zero, List.tail_cons]
      rw [← four, List.take_left]
    split at starved
    · contradiction
    · split at starved
      · contradiction
      · simp only [readBody] at starved
        split at starved
        · rename_i short
          have few := Bytes.split?_eq_none_iff.mp short
          rw [field, List.length_append, width]
          omega
        · split at starved <;> contradiction

/-- What was damaged within four octets in a row is never read as a frame, whatever follows it: the
reader refuses it as a violation by the sender, and waits for nothing more. -/
theorem damage_refused (within : frame.Within limit) (damage : frame.Damaged damaged) (rest : Bytes) :
    ∃ cause left, read limit (damaged ++ rest) = .refused (.wire cause) left := by
  have width := damage.burst.length
  have long := length_encode frame
  have counted := damage.countField rest
  have total : (damaged ++ rest).length = frame.payload.length + 9 + rest.length := by
    rw [List.length_append, width, long]
  cases outcome : read limit (damaged ++ rest) with
  | done other left =>
      obtain ⟨same, -, small⟩ := read_eq_done_iff.mp outcome
      -- Both frames count as many octets, so nothing but the damaged octets would be the other frame.
      rw [same, countField_encode] at counted
      have count := congrArg (fun field => (toWord32 field).toNat) counted
      simp only [toWord32_word32, UInt32.toNat_ofNat_of_lt' small,
        UInt32.toNat_ofNat_of_lt' within.2] at count
      have exact : damaged = other.encode :=
        List.append_inj_left same (by rw [width, long, length_encode, count])
      exact absurd exact (Crc32.checksum_burst damage.burst)
  | refused fault left =>
      have violation : (read limit (damaged ++ rest)).FailsWith Fault.IsViolation :=
        read_failsWith_of_le (by omega)
      rw [outcome] at violation
      obtain ⟨cause, rfl⟩ := violation
      exact ⟨cause, left, rfl⟩
  | starved fault left =>
      have few := length_lt_of_starved outcome
      rw [counted, toWord32_word32, UInt32.toNat_ofNat_of_lt' within.2] at few
      omega

def noticeFrame : Frame := ⟨.item, [1, 2, 3, 4, 5]⟩

/-- The last two octets of the payload and the first two of the checksum were changed. -/
def tornNotice : Bytes :=
  noticeFrame.encode.take 8 ++ [0xff, 0, 0xff, 0] ++ noticeFrame.encode.drop 12

theorem damage_refused_tornNotice :
    noticeFrame.Within 1024 ∧ noticeFrame.Damaged tornNotice ∧
      ∃ cause left, read 1024 (tornNotice ++ [7]) = .refused (.wire cause) left := by
  have within : noticeFrame.Within 1024 := ⟨by decide, by decide⟩
  have damage : noticeFrame.Damaged tornNotice :=
    ⟨Bytes.burst_iff.mpr ⟨noticeFrame.encode.take 8, (noticeFrame.encode.drop 8).take 4,
      [0xff, 0, 0xff, 0], noticeFrame.encode.drop 12, by decide +kernel, rfl, by decide +kernel,
      by decide +kernel, by decide +kernel⟩, fun index first last => by
        match index, first, last with
        | 1, _, _ | 2, _, _ | 3, _, _ | 4, _, _ => decide +kernel⟩
  exact ⟨within, damage, damage_refused within damage [7]⟩

end DocumentReplication.Frame
