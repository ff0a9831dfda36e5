import DocumentReplication.Proofs.Wire.Batch

/-!
Frames delimit themselves. Under a limit a stream begins with at most one frame, which is read and
leaves what follows it; where no frame begins the sender is at fault, unless the stream ended before
the head of one. Frames written one after the other are read one after the other.
-/

namespace DocumentReplication

namespace Frame

variable {limit count : Nat} {bytes rest : Bytes} {frame : Frame} {frames : List Frame}

/-- A frame that can be read under a limit: its payload is within the limit, and four octets count
it. -/
def Within (limit : Nat) (frame : Frame) : Prop :=
  frame.payload.length ≤ limit ∧ frame.payload.length < UInt32.size

/-- Reads frames one after the other. -/
def readSeveral (limit : Nat) : Nat → Bytes → Intake Bytes (List Frame)
  | 0, bytes => .done [] bytes
  | count + 1, bytes =>
    (read limit bytes).andThen fun first rest =>
      (readSeveral limit count rest).andThen fun others rest => .done (first :: others) rest

theorem readSeveral_eq_done_iff :
    readSeveral limit count bytes = .done frames rest ↔
      frames.length = count ∧ bytes = frames.flatMap encode ++ rest ∧
        ∀ frame ∈ frames, frame.Within limit := by
  induction count generalizing bytes frames rest with
  | zero =>
      simp only [readSeveral, Intake.done.injEq, List.length_eq_zero_iff]
      constructor
      · rintro ⟨rfl, rfl⟩
        exact ⟨rfl, rfl, fun _ member => absurd member List.not_mem_nil⟩
      · rintro ⟨rfl, rfl, -⟩
        exact ⟨rfl, rfl⟩
  | succ count ih =>
      simp only [readSeveral, Intake.andThen_eq_done_iff, read_eq_done_iff, ih]
      constructor
      · rintro ⟨first, _, ⟨rfl, within⟩, others, _, ⟨rfl, rfl, all⟩, same⟩
        cases same
        refine ⟨rfl, ?_, List.forall_mem_cons.mpr ⟨within, all⟩⟩
        rw [List.flatMap_cons, List.append_assoc]
      · rintro ⟨length, rfl, all⟩
        cases frames with
        | nil => contradiction
        | cons first others =>
            obtain ⟨within, all⟩ := List.forall_mem_cons.mp all
            exact ⟨first, _, ⟨by rw [List.flatMap_cons, List.append_assoc], within⟩, others, rest,
              ⟨Nat.succ.inj length, rfl, all⟩, rfl⟩

theorem fault_of_read {fault : Fault} (failed : (read limit bytes).settle = (.error fault, rest)) :
    if bytes.length < 5 then fault = .stream .ended else fault.IsViolation := by
  split
  · rename_i short
    rw [read_of_short short] at failed
    cases failed
    rfl
  · rename_i long
    exact (read_failsWith_of_le (Nat.not_lt.mp long)).settle failed

/-- Of a stream that ends, a frame is read exactly where the stream is what encodes it and a rest, and
the rest is left. Of any other stream nothing is read: the fault is a violation by the sender, or the
end of the stream where less than the head of a frame was left. So the encodings of any frames within
the limit are read back one by one, whatever follows them. -/
theorem frames_delimited (limit : Nat) (bytes : Bytes) :
    (∀ frame rest, (read limit bytes).settle = (.ok frame, rest) ↔
      bytes = frame.encode ++ rest ∧ frame.Within limit) ∧
    (∀ fault rest, (read limit bytes).settle = (.error fault, rest) →
      if bytes.length < 5 then fault = .stream .ended else fault.IsViolation) ∧
    ∀ count frames rest, (readSeveral limit count bytes).settle = (.ok frames, rest) ↔
      frames.length = count ∧ bytes = frames.flatMap encode ++ rest ∧
        ∀ frame ∈ frames, frame.Within limit :=
  ⟨fun _ _ => Intake.settle_eq_ok_iff.trans read_eq_done_iff, fun _ _ => fault_of_read,
    fun _ _ _ => Intake.settle_eq_ok_iff.trans readSeveral_eq_done_iff⟩

end Frame

end DocumentReplication
