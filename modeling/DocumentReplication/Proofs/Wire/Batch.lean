import DocumentReplication.Proofs.Wire.Spool
import DocumentReplication.Proofs.Work
import DocumentReplication.Wire.Batch

/-!
Reading a batch. What a reader takes for a batch is exactly what a sending node writes for it, whatever
follows; of anything else it reads a violation by the sender, even where the stream just ends.
-/

namespace DocumentReplication

namespace Intake

variable {σ τ α β : Type} {intake : Intake σ α} {holds wanted : Fault → Prop}

theorem settle_eq_ok_iff {value : α} {state : σ} :
    intake.settle = (.ok value, state) ↔ intake = .done value state := by
  cases intake <;> simp [settle]

/-- What goes wrong in a reading, or would if nothing more arrives, is a fault of some sort. -/
def FailsWith (holds : Fault → Prop) : Intake σ α → Prop
  | done .. => True
  | refused fault _ => holds fault
  | starved fault _ => holds fault

theorem FailsWith.mono (first : intake.FailsWith holds) (weaker : ∀ fault, holds fault → wanted fault) :
    intake.FailsWith wanted := by
  cases intake with
  | done value state => trivial
  | refused fault state => exact weaker fault first
  | starved fault state => exact weaker fault first

theorem FailsWith.settle {fault : Fault} {state : σ} (fails : intake.FailsWith holds)
    (settled : intake.settle = (.error fault, state)) : holds fault := by
  cases intake with
  | done value state => cases settled
  | refused fault state =>
      cases settled
      exact fails
  | starved fault state =>
      cases settled
      exact fails

theorem FailsWith.andThen {next : α → σ → Intake σ β} (first : intake.FailsWith holds)
    (rest : ∀ value state, (next value state).FailsWith holds) :
    (intake.andThen next).FailsWith holds := by
  cases intake with
  | done value state => exact rest value state
  | refused fault state => exact first
  | starved fault state => exact first

theorem FailsWith.check {accept : α → Except Fault β} (first : intake.FailsWith holds)
    (rest : ∀ value fault, accept value = .error fault → holds fault) :
    (intake.check accept).FailsWith holds := by
  refine first.andThen fun value state => ?_
  cases accepted : accept value with
  | ok result => trivial
  | error fault => exact rest value fault accepted

theorem FailsWith.lift (first : intake.FailsWith holds) (enlarge : σ → τ) :
    (intake.lift enlarge).FailsWith holds := by
  cases intake <;> exact first

theorem FailsWith.mapFault {change : Fault → Fault} (first : intake.FailsWith holds)
    (turns : ∀ fault, holds fault → wanted (change fault)) :
    (intake.mapFault change).FailsWith wanted := by
  cases intake with
  | done value state => trivial
  | refused fault state => exact turns fault first
  | starved fault state => exact turns fault first

end Intake

namespace Fault

/-- The sender wrote something wrong. -/
def IsViolation (fault : Fault) : Prop := ∃ cause, fault = .wire cause

theorem IsViolation.classify {fault : Fault} (violation : fault.IsViolation) :
    fault.classify = .protocolViolation := by
  obtain ⟨cause, rfl⟩ := violation
  rfl

/-- What reading from the wire may end with: a violation by the sender, or the end of the stream. -/
def IsReading (fault : Fault) : Prop := fault = .stream .ended ∨ fault.IsViolation

theorem IsReading.within {fault : Fault} (reading : fault.IsReading) (record : String) :
    (fault.within record).IsViolation := by
  rcases reading with rfl | ⟨cause, rfl⟩
  · exact ⟨.truncated record, rfl⟩
  · exact ⟨cause, rfl⟩

end Fault

@[simp] theorem onWire_ok {α : Type} (value : α) : onWire (.ok value) = .ok value := rfl

@[simp] theorem onWire_error {α : Type} (cause : WireFault) :
    onWire (.error cause : Except WireFault α) = .error (.wire cause) := rfl

theorem onWire_isViolation {α : Type} {outcome : Except WireFault α} {fault : Fault}
    (failed : onWire outcome = .error fault) : fault.IsViolation := by
  cases outcome with
  | ok value => cases failed
  | error cause =>
      cases failed
      exact ⟨cause, rfl⟩

theorem onWire_isReading {α : Type} {outcome : Except WireFault α} {fault : Fault}
    (failed : onWire outcome = .error fault) : fault.IsReading :=
  .inr (onWire_isViolation failed)

theorem onWire_eq_ok_iff {α : Type} {outcome : Except WireFault α} {value : α} :
    onWire outcome = .ok value ↔ outcome = .ok value := by
  cases outcome <;> simp

namespace Frame

variable {limit : Nat} {bytes : Bytes}

/-- Even the head of a frame is not there yet, so the stream may have ended between two frames. -/
theorem read_of_short (short : bytes.length < 5) : read limit bytes = .starved (.stream .ended) [] := by
  rw [read, Bytes.split?_eq_none_iff.mpr short]

/-- Once the head of a frame is there, the sender is to blame for whatever goes wrong. -/
theorem read_failsWith_of_le (long : 5 ≤ bytes.length) :
    (read limit bytes).FailsWith Fault.IsViolation := by
  unfold read
  split
  · rename_i missing
    exact absurd (Bytes.split?_eq_none_iff.mp missing) (Nat.not_lt.mpr long)
  · simp only
    split
    · exact ⟨_, rfl⟩
    · split
      · exact ⟨_, rfl⟩
      · unfold readBody
        split
        · exact ⟨_, rfl⟩
        · simp only
          split
          · trivial
          · exact ⟨_, rfl⟩

theorem read_failsWith (limit : Nat) (bytes : Bytes) :
    (read limit bytes).FailsWith Fault.IsReading := by
  by_cases short : bytes.length < 5
  · rw [read_of_short short]
    exact .inl rfl
  · exact (read_failsWith_of_le (Nat.not_lt.mp short)).mono fun _ violation => .inr violation

end Frame

namespace WireReader

variable {reader next : WireReader} {header : BatchHeader}

theorem readFrame_failsWith (kind : FrameKind) (reader : WireReader) :
    (reader.readFrame kind).FailsWith Fault.IsReading := by
  refine ((Frame.read_failsWith ..).check fun frame fault failed => ?_).lift _
  rw [Except.map_eq_error_iff] at failed
  unfold Frame.expect at failed
  split at failed
  · contradiction
  · cases failed
    exact .inr ⟨_, rfl⟩

theorem readPayload_failsWith (reader : WireReader) :
    reader.readPayload.FailsWith Fault.IsReading := by
  refine ((readFrame_failsWith ..).check fun _ _ => onWire_isReading).andThen
    fun descriptor middle => .lift ?_ _
  unfold Spool.accept
  simp only
  split
  · exact .inr ⟨_, rfl⟩
  · split
    · exact .inr ⟨_, rfl⟩
    · split
      · trivial
      · exact .inr ⟨_, rfl⟩

theorem readMany_failsWith {α : Type} {holds : Fault → Prop} {read : WireReader → Intake WireReader α}
    (each : ∀ reader, (read reader).FailsWith holds) (count : Nat) (reader : WireReader) :
    (readMany read count reader).FailsWith holds := by
  induction count generalizing reader with
  | zero => trivial
  | succ count ih =>
      refine (each reader).andThen fun first middle => (ih middle).andThen fun others last => ?_
      trivial

/-- Even the end of the stream inside a batch is a violation by the sender. -/
theorem readBatch_failsWith (header : BatchHeader) (reader : WireReader) :
    (reader.readBatch header).FailsWith Fault.IsViolation := by
  refine Intake.FailsWith.mapFault ?_ fun fault (reading : fault.IsReading) => reading.within "batch"
  refine (readMany_failsWith (fun reader => ?_) ..).andThen fun changes middle =>
    (readMany_failsWith readPayload_failsWith ..).andThen fun payloads last => ?_
  · exact (readFrame_failsWith ..).check fun _ _ => onWire_isReading
  · trivial

end WireReader

/-- A change that reading gives back, under a limit on frames. -/
structure Change.Readable (limit : Nat) (change : Change) : Prop where
  fits : change.Fits
  within : change.encode.length ≤ limit
  counted : change.encode.length < UInt32.size

instance (limit : Nat) (change : Change) : Decidable (change.Readable limit) :=
  decidable_of_iff (Change.decode change.encode = .ok change ∧ change.encode.length ≤ limit ∧
      change.encode.length < UInt32.size)
    ⟨fun ⟨decoded, within, counted⟩ => ⟨(Change.decode_eq_ok_iff.mp decoded).2, within, counted⟩,
      fun ⟨fits, within, counted⟩ => ⟨Change.decode_eq_ok_iff.mpr ⟨rfl, fits⟩, within, counted⟩⟩

namespace Batch

/-- The announcement of a payload. -/
def announcement (payload : String × Bytes) : PayloadDescriptor :=
  ⟨payload.1, UInt64.ofNat payload.2.length⟩

/-- A payload that reading gives back: it is as it was announced, and within the limits. -/
structure Readable (frameLimit limit : Nat) (payload : String × Bytes) : Prop where
  hashed : contentHash payload.2 = payload.1
  text : (Text.utf8 payload.1).length < UInt32.size
  framed : (announcement payload).encode.length ≤ frameLimit
  counted : (announcement payload).encode.length < UInt32.size
  within : payload.2.length ≤ limit
  measured : payload.2.length < UInt64.size

instance (frameLimit limit : Nat) (payload : String × Bytes) :
    Decidable (Readable frameLimit limit payload) :=
  decidable_of_iff (contentHash payload.2 = payload.1 ∧
      (Text.utf8 payload.1).length < UInt32.size ∧
      (announcement payload).encode.length ≤ frameLimit ∧
      (announcement payload).encode.length < UInt32.size ∧
      payload.2.length ≤ limit ∧ payload.2.length < UInt64.size)
    ⟨fun ⟨hashed, text, framed, counted, within, measured⟩ =>
        ⟨hashed, text, framed, counted, within, measured⟩,
      fun ⟨hashed, text, framed, counted, within, measured⟩ =>
        ⟨hashed, text, framed, counted, within, measured⟩⟩

end Batch

/-- What follows a documents header. -/
structure BatchBody where
  changes : List Change
  payloads : List (String × Bytes)

namespace BatchBody

def encode (body : BatchBody) : Bytes :=
  body.changes.flatMap (fun change => Batch.encodeChange (.change change)) ++
    body.payloads.flatMap Batch.encodePayload

/-- A body that was announced by a header, and that a reader with these limits reads. -/
structure Follows (header : BatchHeader) (frameLimit limit : Nat) (body : BatchBody) : Prop where
  itemCount : body.changes.length = header.itemCount
  streamCount : body.payloads.length = header.streamCount
  changes : ∀ change ∈ body.changes, change.Readable frameLimit
  payloads : ∀ payload ∈ body.payloads, Batch.Readable frameLimit limit payload

instance (header : BatchHeader) (frameLimit limit : Nat) (body : BatchBody) :
    Decidable (body.Follows header frameLimit limit) :=
  decidable_of_iff (body.changes.length = header.itemCount ∧
      body.payloads.length = header.streamCount ∧
      (∀ change ∈ body.changes, change.Readable frameLimit) ∧
      ∀ payload ∈ body.payloads, Batch.Readable frameLimit limit payload)
    ⟨fun ⟨itemCount, streamCount, changes, payloads⟩ =>
        ⟨itemCount, streamCount, changes, payloads⟩,
      fun ⟨itemCount, streamCount, changes, payloads⟩ =>
        ⟨itemCount, streamCount, changes, payloads⟩⟩

end BatchBody

/-- The regions of payloads that are put behind each other. -/
def Spool.regions : Nat → List (String × Bytes) → List SpooledPayload
  | _, [] => []
  | offset, (hash, content) :: rest =>
    ⟨hash, offset, content.length⟩ :: regions (offset + content.length) rest

namespace WireReader

variable {reader next : WireReader} {header : BatchHeader}

theorem readFrame_eq_done_iff {kind : FrameKind} {payload : Bytes} :
    reader.readFrame kind = .done payload next ↔
      ∃ rest, reader.unread = Frame.encode ⟨kind, payload⟩ ++ rest ∧
        payload.length ≤ reader.maxFrame ∧ payload.length < UInt32.size ∧
        next = { reader with unread := rest } := by
  simp only [readFrame, Frame.readKind, Intake.lift_eq_done_iff, Intake.check_eq_done_iff,
    Except.map_eq_ok_iff, Frame.read_eq_done_iff]
  constructor
  · rintro ⟨rest, ⟨frame, ⟨bytes, within, counted⟩, checked, expected, rfl⟩, rfl⟩
    unfold Frame.expect at expected
    split at expected
    · rename_i same
      cases expected
      subst same
      exact ⟨rest, bytes, within, counted, rfl⟩
    · contradiction
  · rintro ⟨rest, bytes, within, counted, rfl⟩
    refine ⟨rest, ⟨⟨kind, payload⟩, ⟨bytes, within, counted⟩, ⟨kind, payload⟩, ?_, rfl⟩, rfl⟩
    exact if_pos rfl

theorem readMessage_eq_done_iff {message : Message} :
    reader.readMessage = .done message next ↔
      ∃ head rest, reader.unread = Frame.encode ⟨.message, head⟩ ++ rest ∧
        head.length ≤ reader.maxFrame ∧ head.length < UInt32.size ∧
        Message.ofPayload head = .ok message ∧ next = { reader with unread := rest } := by
  simp only [readMessage, Intake.check_eq_done_iff, readFrame_eq_done_iff, onWire_eq_ok_iff]
  constructor
  · rintro ⟨head, ⟨rest, bytes, within, counted, same⟩, read⟩
    exact ⟨head, rest, bytes, within, counted, read, same⟩
  · rintro ⟨head, rest, bytes, within, counted, read, same⟩
    exact ⟨head, ⟨rest, bytes, within, counted, same⟩, read⟩

theorem readChange_eq_done_iff {change : Change} :
    reader.readChange = .done change next ↔
      ∃ rest, reader.unread = Batch.encodeChange (.change change) ++ rest ∧
        change.Readable reader.maxFrame ∧ next = { reader with unread := rest } := by
  simp only [readChange, Intake.check_eq_done_iff, readFrame_eq_done_iff, onWire_eq_ok_iff,
    Change.decode_eq_ok_iff]
  constructor
  · rintro ⟨_, ⟨rest, bytes, within, counted, same⟩, rfl, fits⟩
    exact ⟨rest, bytes, ⟨fits, within, counted⟩, same⟩
  · rintro ⟨rest, bytes, readable, same⟩
    exact ⟨_, ⟨rest, bytes, readable.within, readable.counted, same⟩, rfl, readable.fits⟩

theorem readPayload_eq_done_iff {payload : SpooledPayload} :
    reader.readPayload = .done payload next ↔
      ∃ announced rest, reader.unread = Batch.encodePayload announced ++ rest ∧
        Batch.Readable reader.maxFrame reader.maxAttachment announced ∧
        payload = ⟨announced.1, reader.spool.size, announced.2.length⟩ ∧
        next = { reader with
          spool := ⟨reader.spool.content ++ announced.2⟩, unread := rest } := by
  simp only [readPayload, readDescriptor, Intake.andThen_eq_done_iff, Intake.check_eq_done_iff,
    readFrame_eq_done_iff, onWire_eq_ok_iff, PayloadDescriptor.decode_eq_ok_iff,
    Intake.lift_eq_done_iff]
  constructor
  · rintro ⟨descriptor, _, ⟨_, ⟨left, bytes, framed, counted, rfl⟩, rfl, text⟩,
      ⟨grown, rest⟩, taken, rfl⟩
    obtain ⟨within, content, rfl, length, hashed, rfl, rfl⟩ := Spool.accept_eq_done_iff.mp taken
    have same : descriptor.length = UInt64.ofNat content.length := by
      rw [length, UInt64.ofNat_toNat]
    have announced : Batch.announcement (descriptor.hash, content) = descriptor := by
      rw [Batch.announcement, ← same]
    refine ⟨(descriptor.hash, content), rest, ?_, ⟨hashed, text, ?_, ?_, ?_, ?_⟩, rfl, rfl⟩
    · rw [bytes, Batch.encodePayload, ← same, List.append_assoc]
    · rwa [announced]
    · rwa [announced]
    · exact length ▸ within
    · exact length ▸ descriptor.length.toNat_lt
  · rintro ⟨⟨hash, content⟩, rest, bytes, readable, rfl, rfl⟩
    obtain ⟨hashed, text, framed, counted, within, measured⟩ := readable
    have length : content.length = (UInt64.ofNat content.length).toNat :=
      (UInt64.toNat_ofNat_of_lt' measured).symm
    refine ⟨Batch.announcement (hash, content), _, ⟨_, ⟨content ++ rest, ?_, framed, counted, rfl⟩,
      rfl, text⟩, (⟨reader.spool.content ++ content⟩, rest), ?_, rfl⟩
    · rw [bytes, Batch.encodePayload, List.append_assoc]
      rfl
    · exact Spool.accept_eq_done_iff.mpr ⟨length ▸ within, content, rfl, length, hashed, rfl, rfl⟩

theorem readMany_readChange_eq_done_iff {count : Nat} {changes : List Change} :
    readMany readChange count reader = .done changes next ↔
      ∃ rest, reader.unread =
          changes.flatMap (fun change => Batch.encodeChange (.change change)) ++ rest ∧
        changes.length = count ∧ (∀ change ∈ changes, change.Readable reader.maxFrame) ∧
        next = { reader with unread := rest } := by
  induction count generalizing reader next changes with
  | zero =>
      simp only [readMany, Intake.done.injEq, List.length_eq_zero_iff]
      constructor
      · rintro ⟨rfl, rfl⟩
        exact ⟨reader.unread, rfl, rfl, fun _ member => absurd member List.not_mem_nil, rfl⟩
      · rintro ⟨rest, bytes, rfl, -, rfl⟩
        obtain rfl : reader.unread = rest := bytes
        exact ⟨rfl, rfl⟩
  | succ count ih =>
      simp only [readMany, Intake.andThen_eq_done_iff, readChange_eq_done_iff, ih]
      constructor
      · rintro ⟨first, _, ⟨left, bytes, readable, rfl⟩, others, _, ⟨rest, more, length, all, rfl⟩, same⟩
        cases same
        simp only at more all
        refine ⟨rest, ?_, congrArg (· + 1) length, ?_, rfl⟩
        · rw [bytes, more, List.flatMap_cons, List.append_assoc]
        · intro change member
          rcases List.mem_cons.mp member with rfl | member
          · exact readable
          · exact all change member
      · rintro ⟨rest, bytes, length, all, rfl⟩
        cases changes with
        | nil => contradiction
        | cons first others =>
            rw [List.flatMap_cons, List.append_assoc] at bytes
            refine ⟨first, _, ⟨_, bytes, all first List.mem_cons_self, rfl⟩, others, _,
              ⟨rest, rfl, Nat.succ.inj length, ?_, rfl⟩, rfl⟩
            exact fun change member => all change (List.mem_cons_of_mem _ member)

theorem readMany_readPayload_eq_done_iff {count : Nat} {payloads : List SpooledPayload} :
    readMany readPayload count reader = .done payloads next ↔
      ∃ announced rest, reader.unread = announced.flatMap Batch.encodePayload ++ rest ∧
        announced.length = count ∧
        (∀ payload ∈ announced, Batch.Readable reader.maxFrame reader.maxAttachment payload) ∧
        payloads = Spool.regions reader.spool.size announced ∧
        next = { reader with
          spool := ⟨reader.spool.content ++ announced.flatMap (·.2)⟩, unread := rest } := by
  induction count generalizing reader next payloads with
  | zero =>
      simp only [readMany, Intake.done.injEq, List.length_eq_zero_iff]
      constructor
      · rintro ⟨rfl, rfl⟩
        refine ⟨[], reader.unread, rfl, rfl, fun _ member => absurd member List.not_mem_nil, rfl, ?_⟩
        rw [List.flatMap_nil, List.append_nil]
      · rintro ⟨_, rest, bytes, rfl, -, rfl, rfl⟩
        obtain rfl : reader.unread = rest := bytes
        refine ⟨rfl, ?_⟩
        rw [List.flatMap_nil, List.append_nil]
  | succ count ih =>
      simp only [readMany, Intake.andThen_eq_done_iff, readPayload_eq_done_iff, ih]
      constructor
      · rintro ⟨_, _, ⟨first, left, bytes, readable, rfl, rfl⟩, _, _,
          ⟨others, rest, more, length, all, rfl, rfl⟩, same⟩
        cases same
        simp only at more all
        refine ⟨first :: others, rest, ?_, congrArg (· + 1) length, ?_, ?_, ?_⟩
        · rw [bytes, more, List.flatMap_cons, List.append_assoc]
        · intro payload member
          rcases List.mem_cons.mp member with rfl | member
          · exact readable
          · exact all payload member
        · simp only [Spool.regions, Spool.size, List.length_append]
        · rw [List.flatMap_cons, List.append_assoc]
      · rintro ⟨announced, rest, bytes, length, all, rfl, rfl⟩
        cases announced with
        | nil => contradiction
        | cons first others =>
            rw [List.flatMap_cons, List.append_assoc] at bytes
            refine ⟨_, _, ⟨first, _, bytes, all first List.mem_cons_self, rfl, rfl⟩, _, _,
              ⟨others, rest, rfl, Nat.succ.inj length, ?_, rfl, rfl⟩, ?_⟩
            · exact fun payload member => all payload (List.mem_cons_of_mem _ member)
            · simp only [Spool.regions, Spool.size, List.length_append, List.flatMap_cons,
                List.append_assoc]

/-- A batch is read where its body is what follows, and what follows the body is left. -/
theorem readBatch_eq_done_iff {batch : IncomingBatch} :
    reader.readBatch header = .done batch next ↔
      ∃ body rest, reader.unread = BatchBody.encode body ++ rest ∧
        body.Follows header reader.maxFrame reader.maxAttachment ∧
        batch = ⟨body.changes, Spool.regions 0 body.payloads⟩ ∧
        next = { reader with spool := ⟨body.payloads.flatMap (·.2)⟩, unread := rest } := by
  simp only [readBatch, Intake.mapFault_eq_done_iff, Intake.andThen_eq_done_iff,
    readMany_readChange_eq_done_iff, readMany_readPayload_eq_done_iff]
  constructor
  · rintro ⟨changes, _, ⟨left, bytes, itemCount, readable, rfl⟩, _, _,
      ⟨payloads, rest, more, streamCount, measured, rfl, rfl⟩, same⟩
    cases same
    simp only at more
    refine ⟨⟨changes, payloads⟩, rest, ?_, ⟨itemCount, streamCount, readable, measured⟩, rfl, rfl⟩
    rw [bytes, more, BatchBody.encode, List.append_assoc]
  · rintro ⟨body, rest, bytes, follows, rfl, rfl⟩
    rw [BatchBody.encode, List.append_assoc] at bytes
    exact ⟨body.changes, _, ⟨_, bytes, follows.itemCount, follows.changes, rfl⟩, _, _,
      ⟨body.payloads, rest, rfl, follows.streamCount, follows.payloads, rfl, rfl⟩, rfl⟩

end WireReader

theorem WireReader.load_region {reader : WireReader} {content : Bytes} (hash : String)
    (front back : Bytes) (spooled : reader.spool.content = front ++ content ++ back) :
    reader.load ⟨hash, front.length, content.length⟩ = .ok content := by
  refine Spool.read_eq_ok_iff.mpr ⟨?_, ?_⟩
  · simp only [spooled, List.length_append]
    omega
  · simp [spooled]

theorem Spool.load_regions {reader : WireReader} {payloads : List (String × Bytes)}
    (front back : Bytes) (spooled : reader.spool.content = front ++ payloads.flatMap (·.2) ++ back) :
    ((Spool.regions front.length payloads).mapM fun payload => do
      return (payload.hash, ← reader.load payload) : Except Fault (List (String × Bytes))) =
        .ok payloads := by
  induction payloads generalizing front with
  | nil => rfl
  | cons payload rest ih =>
      obtain ⟨hash, content⟩ := payload
      rw [List.flatMap_cons] at spooled
      have next := ih (front ++ content) (by simp [spooled])
      rw [List.length_append] at next
      have loaded : reader.load ⟨hash, front.length, content.length⟩ = .ok content :=
        WireReader.load_region hash front (rest.flatMap (·.2) ++ back) (by simp [spooled])
      simp only [Spool.regions, List.mapM_cons, loaded, next, Except.ok_bind]
      rfl

theorem Spool.regions_inj {payloads others : List (String × Bytes)}
    (regions : regions 0 payloads = regions 0 others)
    (contents : payloads.flatMap (·.2) = others.flatMap (·.2)) : payloads = others := by
  let reader : WireReader := ⟨0, 0, ⟨payloads.flatMap (·.2)⟩, []⟩
  have one := @load_regions reader payloads [] [] (List.append_nil _).symm
  have two := @load_regions reader others [] [] (contents.trans (List.append_nil _).symm)
  rw [List.length_nil, regions] at one
  exact Except.ok.inj (one.symm.trans two)

theorem Change.Readable.mono {limit wider : Nat} {change : Change} (readable : change.Readable limit)
    (wide : limit ≤ wider) : change.Readable wider :=
  ⟨readable.fits, Nat.le_trans readable.within wide, readable.counted⟩

theorem Batch.Readable.mono {frameLimit limit wideFrame wide : Nat} {payload : String × Bytes}
    (readable : Readable frameLimit limit payload) (framesWide : frameLimit ≤ wideFrame)
    (payloadsWide : limit ≤ wide) : Readable wideFrame wide payload :=
  ⟨readable.hashed, readable.text, Nat.le_trans readable.framed framesWide, readable.counted,
    Nat.le_trans readable.within payloadsWide, readable.measured⟩

namespace BatchBody

def header (lastEtag : Int64) (body : BatchBody) : BatchHeader :=
  ⟨lastEtag, body.changes.length, body.payloads.length⟩

variable {header : BatchHeader} {frameLimit limit otherFrameLimit otherLimit : Nat}
  {body other : BatchBody} {rest more : Bytes}

theorem Follows.mono (follows : body.Follows header frameLimit limit)
    (framesWide : frameLimit ≤ otherFrameLimit) (payloadsWide : limit ≤ otherLimit) :
    body.Follows header otherFrameLimit otherLimit :=
  ⟨follows.itemCount, follows.streamCount,
    fun change member => (follows.changes change member).mono framesWide,
    fun payload member => (follows.payloads payload member).mono framesWide payloadsWide⟩

/-- No other body under the same header begins where one begins, whatever the limits are. -/
theorem encode_append_inj (follows : body.Follows header frameLimit limit)
    (otherFollows : other.Follows header otherFrameLimit otherLimit)
    (same : body.encode ++ rest = other.encode ++ more) : body = other ∧ rest = more := by
  let reader : WireReader :=
    ⟨max frameLimit otherFrameLimit, max limit otherLimit, .empty, body.encode ++ rest⟩
  have one : reader.readBatch header = .done _ _ := WireReader.readBatch_eq_done_iff.mpr
    ⟨body, rest, rfl, follows.mono (Nat.le_max_left ..) (Nat.le_max_left ..), rfl, rfl⟩
  have two : reader.readBatch header = .done _ _ := WireReader.readBatch_eq_done_iff.mpr
    ⟨other, more, same, otherFollows.mono (Nat.le_max_right ..) (Nat.le_max_right ..), rfl, rfl⟩
  obtain ⟨sameBatch, sameReader⟩ := Intake.done.inj (one.symm.trans two)
  have changes : body.changes = other.changes := congrArg IncomingBatch.changes sameBatch
  have payloads : body.payloads = other.payloads := Spool.regions_inj
    (congrArg IncomingBatch.payloads sameBatch)
    (congrArg (fun reader : WireReader => reader.spool.content) sameReader)
  refine ⟨?_, congrArg WireReader.unread sameReader⟩
  cases body
  cases other
  exact (mk.injEq ..).mpr ⟨changes, payloads⟩

/-- The octets of a whole batch, sent within such limits: a message frame that reads as the header,
however it is written, and the body. -/
def Sent (frameLimit limit : Nat) (lastEtag : Int64) (body : BatchBody) (bytes : Bytes) : Prop :=
  ∃ head, bytes = Frame.encode ⟨.message, head⟩ ++ body.encode ∧ head.length ≤ frameLimit ∧
    head.length < UInt32.size ∧ Message.ofPayload head = .ok (.documents (body.header lastEtag)) ∧
    body.Follows (body.header lastEtag) frameLimit limit

end BatchBody

end DocumentReplication
