import DocumentReplication.Proofs.Wire.Batch
import DocumentReplication.Wire.SpoolFile

/-!
What is done with a spool shows nothing of its file: whatever is accepted, read or thrown away, a file
gives the answers that a spool gives. And a payload, once it was accepted, is read as it came until the
spool is reset, however other payloads fare meanwhile.
-/

namespace DocumentReplication

namespace OpenFile

variable {file : OpenFile} {front : Bytes}

/-- The file begins with these octets, and its cursor stands behind them. -/
structure Behind (front : Bytes) (file : OpenFile) : Prop where
  begins : front <+: file.content
  cursor : file.cursor = front.length

theorem Behind.write (behind : file.Behind front) (bytes : Bytes) :
    (file.write bytes).Behind (front ++ bytes) := by
  obtain ⟨⟨beyond, content⟩, cursor⟩ := behind
  have kept : (file.content.rightpad file.cursor 0).take file.cursor = front := by
    rw [List.rightpad, cursor, ← content, List.append_assoc, List.take_left]
  refine ⟨?_, ?_⟩
  · simp only [OpenFile.write, kept]
    exact List.prefix_append _ _
  · simp only [OpenFile.write, cursor, List.length_append]

theorem read_eq {count : Nat} (inside : file.cursor + count ≤ file.content.length) :
    (file.read count).1 = .ok ((file.content.drop file.cursor).take count) := by
  have enough : Bytes.split? count (file.content.drop file.cursor) =
      some ((file.content.drop file.cursor).take count, (file.content.drop file.cursor).drop count) :=
    Bytes.split?_eq_some_iff.mpr ⟨(List.take_append_drop ..).symm, by
      rw [List.length_take, List.length_drop]
      omega⟩
  rw [read, enough]

theorem content_read (count : Nat) (file : OpenFile) : (file.read count).2.content = file.content := by
  unfold read
  split <;> rfl

end OpenFile

namespace SpoolFile

variable {file : OpenFile} {front payload rest bytes : Bytes} {limit : Nat}
  {descriptor : PayloadDescriptor} {spool : SpoolFile} {plain : Spool}

theorem positive_chunk {remaining : Nat} (some : remaining ≠ 0) :
    0 < min chunkSize remaining ∧ min chunkSize remaining ≤ remaining := by
  rw [chunkSize]
  omega

/-- A stream that holds the payload is copied up to its end, in however many chunks. -/
theorem copy_of_enough (behind : file.Behind front) (copied payload rest : Bytes) :
    ∃ last, copy payload.length copied file (payload ++ rest) = .done (copied ++ payload) (last, rest) ∧
      last.Behind (front ++ payload) := by
  generalize size : payload.length = remaining
  induction remaining using Nat.strongRecOn generalizing payload copied file front with
  | ind remaining ih =>
      rw [copy]
      split
      · rename_i nothing
        obtain rfl := List.length_eq_zero_iff.mp (size.trans nothing)
        rw [List.nil_append, List.append_nil, List.append_nil]
        exact ⟨file, rfl, behind⟩
      · rename_i something
        obtain ⟨positive, within⟩ := positive_chunk something
        generalize min chunkSize remaining = width at positive within ⊢
        have chunk : Bytes.split? width (payload ++ rest) =
            some (payload.take width, payload.drop width ++ rest) :=
          Bytes.split?_eq_some_iff.mpr ⟨by rw [← List.append_assoc, List.take_append_drop], by
            rw [List.length_take]
            omega⟩
        obtain ⟨last, done, stands⟩ := ih (remaining - width) (by omega)
          (behind.write (payload.take width)) (copied ++ payload.take width) (payload.drop width)
          (by rw [List.length_drop, size])
        rw [List.append_assoc, List.take_append_drop] at done stands
        exact ⟨last, by rw [chunk]; exact done, stands⟩

/-- A stream that ends early is used up, and what was there before the copy is there still. -/
theorem copy_of_short {remaining : Nat} (behind : file.Behind front) (copied : Bytes)
    (short : bytes.length < remaining) :
    ∃ last, copy remaining copied file bytes =
        .starved (.wire (.truncated "attachment stream")) (last, []) ∧ front <+: last.content := by
  induction remaining using Nat.strongRecOn generalizing bytes copied file front with
  | ind remaining ih =>
      rw [copy, if_neg (by omega)]
      obtain ⟨positive, within⟩ := positive_chunk (show remaining ≠ 0 by omega)
      generalize min chunkSize remaining = width at positive within ⊢
      split
      · exact ⟨file, rfl, behind.begins⟩
      · rename_i chunk left taken
        obtain ⟨rfl, length⟩ := Bytes.split?_eq_some_iff.mp taken
        rw [List.length_append] at short
        obtain ⟨last, broken, begins⟩ := ih (remaining - width) (by omega) (behind.write chunk)
          (copied ++ chunk) (show left.length < remaining - width by omega)
        exact ⟨last, broken, (List.prefix_append front chunk).trans begins⟩

/-- The octets of the file that count are those of the spool. -/
structure Backs (plain : Spool) (spool : SpoolFile) : Prop where
  begins : plain.content <+: spool.file.content
  length : spool.length = plain.content.length

theorem backs_fresh : fresh.Backs .empty := ⟨List.prefix_rfl, rfl⟩

theorem Backs.seek (backs : spool.Backs plain) :
    (spool.file.seek spool.length).Behind plain.content :=
  ⟨backs.begins, backs.length⟩

/-- A payload meets the same fate in the file as in the spool, and so does the stream it comes from. -/
theorem Backs.accept (backs : spool.Backs plain) (limit : Nat) (descriptor : PayloadDescriptor)
    (bytes : Bytes) :
    ∃ outcome next later left,
      (spool.accept limit descriptor bytes).settle = (outcome, (next, left)) ∧
        (plain.accept limit descriptor bytes).settle = (outcome, (later, left)) ∧
          next.Backs later := by
  unfold SpoolFile.accept Spool.accept
  by_cases large : limit < descriptor.length.toNat
  · simp only [if_pos large]
    exact ⟨_, spool, plain, bytes, rfl, rfl, backs⟩
  simp only [if_neg large]
  cases arrived : bytes.split? descriptor.length.toNat with
  | none =>
      obtain ⟨last, broken, begins⟩ :=
        copy_of_short backs.seek [] (Bytes.split?_eq_none_iff.mp arrived)
      rw [broken]
      exact ⟨_, { spool with file := last }, plain, [], rfl, rfl, begins, backs.length⟩
  | some taken =>
      obtain ⟨payload, rest⟩ := taken
      obtain ⟨rfl, size⟩ := Bytes.split?_eq_some_iff.mp arrived
      obtain ⟨last, done, stands⟩ := copy_of_enough backs.seek [] payload rest
      rw [size] at done
      have grown : Backs ⟨plain.content ++ payload⟩
          ⟨last, spool.length + descriptor.length.toNat⟩ :=
        ⟨stands.begins, by rw [backs.length, ← size, List.length_append]⟩
      rw [done, show plain.size = spool.length from backs.length.symm]
      simp only [Intake.lift, Intake.andThen, List.nil_append]
      split
      · exact ⟨_, _, _, rest, rfl, rfl, grown⟩
      · exact ⟨_, _, _, rest, rfl, rfl, grown⟩

theorem Backs.read (backs : spool.Backs plain) (payload : SpooledPayload) :
    (spool.read payload).1 = plain.read payload ∧ (spool.read payload).2.Backs plain := by
  unfold SpoolFile.read Spool.read
  rw [show plain.size = spool.length from backs.length.symm]
  split
  · exact ⟨rfl, backs⟩
  · rename_i inside
    rw [backs.length, Nat.not_lt] at inside
    have room : payload.offset + payload.length ≤ spool.file.content.length :=
      Nat.le_trans inside backs.begins.length_le
    refine ⟨?_, ?_, backs.length⟩
    · simp only
      rw [OpenFile.read_eq room]
      exact congrArg Except.ok (Spool.region_of_begins backs.begins inside)
    · simp only [OpenFile.content_read, OpenFile.seek]
      exact backs.begins

theorem backs_reset (spool : SpoolFile) : spool.reset.Backs .empty := by
  unfold reset
  split
  · rename_i nothing
    exact ⟨List.nil_prefix, nothing⟩
  · exact ⟨List.prefix_rfl, rfl⟩

end SpoolFile

inductive SpoolStep where
  | accept (descriptor : PayloadDescriptor) (arriving : Bytes)
  | read (payload : SpooledPayload)
  | reset
deriving DecidableEq, Repr

inductive SpoolAnswer where
  | accepted (outcome : Except Fault SpooledPayload) (left : Bytes)
  | loaded (outcome : Except Fault Bytes)
  | emptied

/-- The answers to some steps, and what they leave. -/
def SpoolStep.run {σ : Type} (act : SpoolStep → σ → SpoolAnswer × σ) :
    List SpoolStep → σ → List SpoolAnswer × σ
  | [], state => ([], state)
  | step :: rest, state =>
    let (answer, next) := act step state
    let (answers, last) := run act rest next
    (answer :: answers, last)

namespace Spool

variable {limit : Nat}

def act (limit : Nat) : SpoolStep → Spool → SpoolAnswer × Spool
  | .accept descriptor arriving, spool =>
    let (outcome, spool, left) := (spool.accept limit descriptor arriving).settle
    (.accepted outcome left, spool)
  | .read payload, spool => (.loaded (spool.read payload), spool)
  | .reset, _ => (.emptied, .empty)

/-- Whatever is accepted or refused, the spool only grows. -/
theorem accept_grows (limit : Nat) (descriptor : PayloadDescriptor) (spool : Spool)
    (arriving : Bytes) :
    spool.content <+: (spool.accept limit descriptor arriving).settle.2.1.content := by
  simp only [accept]
  split
  · exact List.prefix_rfl
  · split
    · exact List.prefix_rfl
    · split
      · exact List.prefix_append _ _
      · exact List.prefix_append _ _

theorem act_grows {step : SpoolStep} (kept : step ≠ .reset) (spool : Spool) :
    spool.content <+: (act limit step spool).2.content := by
  cases step with
  | accept descriptor arriving => exact accept_grows limit descriptor spool arriving
  | read payload => exact List.prefix_rfl
  | reset => contradiction

theorem run_grows {steps : List SpoolStep} (kept : .reset ∉ steps) (spool : Spool) :
    spool.content <+: (SpoolStep.run (act limit) steps spool).2.content := by
  induction steps generalizing spool with
  | nil => exact List.prefix_rfl
  | cons step rest ih =>
      rw [List.mem_cons, not_or] at kept
      exact (act_grows (Ne.symm kept.1) spool).trans (ih kept.2 _)

end Spool

namespace SpoolFile

variable {spool : SpoolFile} {plain : Spool}

def act (limit : Nat) : SpoolStep → SpoolFile → SpoolAnswer × SpoolFile
  | .accept descriptor arriving, spool =>
    let (outcome, spool, left) := (spool.accept limit descriptor arriving).settle
    (.accepted outcome left, spool)
  | .read payload, spool =>
    let (outcome, spool) := spool.read payload
    (.loaded outcome, spool)
  | .reset, spool => (.emptied, spool.reset)

theorem Backs.act (backs : spool.Backs plain) (limit : Nat) (step : SpoolStep) :
    (SpoolFile.act limit step spool).1 = (Spool.act limit step plain).1 ∧
      (SpoolFile.act limit step spool).2.Backs (Spool.act limit step plain).2 := by
  cases step with
  | accept descriptor arriving =>
      obtain ⟨outcome, next, later, left, mine, its, kept⟩ := backs.accept limit descriptor arriving
      simp only [SpoolFile.act, Spool.act, mine, its, true_and]
      exact kept
  | read payload =>
      obtain ⟨same, kept⟩ := backs.read payload
      exact ⟨congrArg SpoolAnswer.loaded same, kept⟩
  | reset => exact ⟨rfl, backs_reset spool⟩

theorem Backs.run (backs : spool.Backs plain) (limit : Nat) (steps : List SpoolStep) :
    (SpoolStep.run (SpoolFile.act limit) steps spool).1 =
        (SpoolStep.run (Spool.act limit) steps plain).1 ∧
      (SpoolStep.run (SpoolFile.act limit) steps spool).2.Backs
        (SpoolStep.run (Spool.act limit) steps plain).2 := by
  induction steps generalizing spool plain with
  | nil => exact ⟨rfl, backs⟩
  | cons step rest ih =>
      obtain ⟨answer, next⟩ := backs.act limit step
      obtain ⟨answers, last⟩ := ih next
      simp only [SpoolStep.run]
      exact ⟨by rw [answer, answers], last⟩

variable {payload : SpooledPayload} {next : SpoolFile} {content left arriving : Bytes}

theorem Backs.accept_ok_iff (backs : spool.Backs plain) :
    (∃ payload next, (spool.accept limit descriptor arriving).settle =
        (.ok payload, (next, left))) ↔
      descriptor.length.toNat ≤ limit ∧ ∃ content, arriving = content ++ left ∧
        content.length = descriptor.length.toNat ∧ contentHash content = descriptor.hash := by
  obtain ⟨outcome, next, later, rest, mine, its, -⟩ := backs.accept limit descriptor arriving
  rw [mine]
  constructor
  · rintro ⟨payload, last, same⟩
    cases same
    obtain ⟨within, content, arrived, length, hashed, -⟩ :=
      Spool.accept_eq_done_iff.mp (Intake.settle_eq_ok_iff.mp its)
    exact ⟨within, content, arrived, length, hashed⟩
  · rintro ⟨within, content, arrived, length, hashed⟩
    have accepted : (plain.accept limit descriptor arriving).settle =
        (.ok ⟨descriptor.hash, plain.size, content.length⟩, (⟨plain.content ++ content⟩, left)) :=
      Intake.settle_eq_ok_iff.mpr (Spool.accept_eq_done_iff.mpr
        ⟨within, content, arrived, length, hashed, rfl, rfl⟩)
    rw [its] at accepted
    cases accepted
    exact ⟨_, next, rfl⟩

/-- What was accepted is read as it came, whatever is done after that short of a reset. -/
theorem Backs.keeps (backs : spool.Backs plain)
    (accepted : (spool.accept limit descriptor arriving).settle = (.ok payload, (next, left)))
    (arrived : arriving = content ++ left) {later : List SpoolStep} (kept : .reset ∉ later) :
    ((SpoolStep.run (SpoolFile.act limit) later next).2.read payload).1 = .ok content := by
  obtain ⟨outcome, last, plainNext, rest, mine, its, grown⟩ := backs.accept limit descriptor arriving
  rw [mine] at accepted
  cases accepted
  obtain ⟨-, taken, same, -, -, rfl, rfl⟩ :=
    Spool.accept_eq_done_iff.mp (Intake.settle_eq_ok_iff.mp its)
  obtain rfl := List.append_cancel_right (arrived.symm.trans same)
  have loaded : Spool.read ⟨plain.content ++ content⟩
      ⟨descriptor.hash, plain.size, content.length⟩ = .ok content :=
    Spool.read_eq_ok_iff.mpr ⟨by simp [Spool.size], by simp [Spool.size]⟩
  obtain ⟨-, lastBacks⟩ := grown.run limit later
  rw [(lastBacks.read _).1]
  exact Spool.read_of_begins (Spool.run_grows kept _) loaded

/-- Whatever was done with a spool before, its file has given the answers of a plain run of octets; the
next payload is accepted just if it is within the limit and the stream begins with so many octets, which
have the announced hash, and then exactly these are taken; and whatever is done from then on short of a
reset, they are what is read. -/
theorem payloads_intact (limit : Nat) (steps : List SpoolStep) (descriptor : PayloadDescriptor)
    (arriving : Bytes) :
    let spool := (SpoolStep.run (act limit) steps fresh).2
    (SpoolStep.run (act limit) steps fresh).1 =
        (SpoolStep.run (Spool.act limit) steps .empty).1 ∧
      (∀ left, (∃ payload next,
          (spool.accept limit descriptor arriving).settle = (.ok payload, (next, left))) ↔
        descriptor.length.toNat ≤ limit ∧ ∃ content, arriving = content ++ left ∧
          content.length = descriptor.length.toNat ∧ contentHash content = descriptor.hash) ∧
      ∀ payload next content left,
        (spool.accept limit descriptor arriving).settle = (.ok payload, (next, left)) →
          arriving = content ++ left → ∀ later, .reset ∉ later →
            ((SpoolStep.run (act limit) later next).2.read payload).1 = .ok content := by
  intro spool
  obtain ⟨answers, backs⟩ := backs_fresh.run limit steps
  refine ⟨answers, fun left => backs.accept_ok_iff, ?_⟩
  intro payload next content left accepted arrived later kept
  exact backs.keeps accepted arrived kept

/-- A payload that is too large, one that the stream ends in, one with another hash, and one that is
taken. -/
def brokenCopies : List SpoolStep :=
  [.accept ⟨contentHash [5, 5, 5, 5, 5], 5⟩ [5, 5, 5, 5, 5], .accept ⟨contentHash [9, 9, 9], 3⟩ [9, 9],
    .accept ⟨contentHash [2], 1⟩ [1], .accept ⟨contentHash [1, 2], 2⟩ [1, 2]]

theorem payloads_intact_brokenCopies :
    let spool := (SpoolStep.run (act 4) brokenCopies fresh).2
    let later := .read ⟨contentHash [1, 2], 1, 2⟩ :: brokenCopies
    ∃ payload next,
      (spool.accept 4 ⟨contentHash [7, 7, 7], 3⟩ [7, 7, 7, 8]).settle = (.ok payload, (next, [8])) ∧
        .reset ∉ later ∧ ((SpoolStep.run (act 4) later next).2.read payload).1 = .ok [7, 7, 7] := by
  intro spool later
  obtain ⟨-, fits, intact⟩ :=
    payloads_intact 4 brokenCopies ⟨contentHash [7, 7, 7], 3⟩ [7, 7, 7, 8]
  obtain ⟨payload, next, accepted⟩ := (fits [8]).mpr ⟨by decide, [7, 7, 7], rfl, rfl, rfl⟩
  have kept : .reset ∉ later := by simp [later, brokenCopies]
  exact ⟨payload, next, accepted, kept, intact payload next [7, 7, 7] [8] accepted rfl later kept⟩

end SpoolFile

end DocumentReplication
