import DocumentReplication.Proofs.Wire.Batch

/-!
Octets that arrive in pieces. A reader that has come to an answer, good or bad, comes to the same one
if more octets are there already, and leaves these unread. So only a reader that starves has to wait,
and how a stream is cut into pieces does not matter.
-/

namespace DocumentReplication

namespace Intake

variable {σ τ α β : Type} {behind : σ → σ} {first last : Intake σ α} {value : α} {fault : Fault}
  {state : σ}

/-- The second reading had more octets than the first one, which `behind` puts behind those that a
reading leaves. -/
inductive Extends (behind : σ → σ) : Intake σ α → Intake σ α → Prop
  | done (value : α) (state : σ) : Extends behind (.done value state) (.done value (behind state))
  | refused (fault : Fault) (state : σ) :
      Extends behind (.refused fault state) (.refused fault (behind state))
  | starved (fault : Fault) (state : σ) (last : Intake σ α) : Extends behind (.starved fault state) last

theorem Extends.of_done (grows : Extends behind (.done value state) last) :
    last = .done value (behind state) := by
  cases grows
  rfl

theorem Extends.of_refused (grows : Extends behind (.refused fault state) last) :
    last = .refused fault (behind state) := by
  cases grows
  rfl

theorem Extends.andThen {next : α → σ → Intake σ β} (grows : Extends behind first last)
    (rest : ∀ value state, Extends behind (next value state) (next value (behind state))) :
    Extends behind (first.andThen next) (last.andThen next) := by
  cases grows with
  | done value state => exact rest value state
  | refused fault state => exact .refused fault state
  | starved fault state last => exact .starved fault state _

theorem Extends.check (grows : Extends behind first last) (accept : α → Except Fault β) :
    Extends behind (first.check accept) (last.check accept) := by
  refine grows.andThen fun value state => ?_
  cases accept value with
  | ok result => exact .done result state
  | error fault => exact .refused fault state

theorem Extends.lift {wider : τ → τ} {enlarge wide : σ → τ} (grows : Extends behind first last)
    (same : ∀ state, wide (behind state) = wider (enlarge state)) :
    Extends wider (first.lift enlarge) (last.lift wide) := by
  cases grows with
  | done value state =>
      simp only [Intake.lift, same]
      exact .done value _
  | refused fault state =>
      simp only [Intake.lift, same]
      exact .refused fault _
  | starved fault state last => exact .starved fault _ _

theorem Extends.mapFault (grows : Extends behind first last) (change : Fault → Fault) :
    Extends behind (first.mapFault change) (last.mapFault change) := by
  cases grows with
  | done value state => exact .done value state
  | refused fault state => exact .refused (change fault) state
  | starved fault state last => exact .starved (change fault) state _

end Intake

theorem Bytes.split?_append_of_eq_some {count : Nat} {bytes taken rest : Bytes}
    (found : bytes.split? count = some (taken, rest)) (more : Bytes) :
    Bytes.split? count (bytes ++ more) = some (taken, rest ++ more) := by
  obtain ⟨rfl, length⟩ := Bytes.split?_eq_some_iff.mp found
  exact Bytes.split?_eq_some_iff.mpr ⟨List.append_assoc .., length⟩

theorem Frame.read_extends (limit : Nat) (bytes more : Bytes) :
    (Frame.read limit bytes).Extends (· ++ more) (Frame.read limit (bytes ++ more)) := by
  unfold Frame.read
  cases found : bytes.split? 5 with
  | none => exact .starved _ _ _
  | some parts =>
      obtain ⟨head, rest⟩ := parts
      simp only [Bytes.split?_append_of_eq_some found]
      split
      · exact .refused _ rest
      · split
        · exact .refused _ rest
        · unfold Frame.readBody
          cases covered : rest.split? ((LittleEndian.toWord32 head.tail).toNat + 4) with
          | none => exact .starved _ _ _
          | some parts =>
              obtain ⟨body, left⟩ := parts
              simp only [Bytes.split?_append_of_eq_some covered]
              split
              · exact .done _ left
              · exact .refused _ left

theorem Spool.accept_extends (limit : Nat) (descriptor : PayloadDescriptor) (spool : Spool)
    (bytes more : Bytes) :
    (spool.accept limit descriptor bytes).Extends (fun (grown, rest) => (grown, rest ++ more))
      (spool.accept limit descriptor (bytes ++ more)) := by
  unfold Spool.accept
  simp only
  split
  · exact .refused _ (spool, bytes)
  · cases found : bytes.split? descriptor.length.toNat with
    | none => exact .starved _ _ _
    | some parts =>
        obtain ⟨content, rest⟩ := parts
        simp only [Bytes.split?_append_of_eq_some found]
        split
        · exact .done _ (_, rest)
        · exact .refused _ (_, rest)

namespace WireReader

variable {α : Type} {read : WireReader → Intake WireReader α}

/-- A way of reading whose answers do not depend on how much has arrived behind what it takes. -/
def Gradual (read : WireReader → Intake WireReader α) : Prop :=
  ∀ (reader : WireReader) (more : Bytes),
    (read reader).Extends (receive more) (read (reader.receive more))

theorem gradual_readFrame (kind : FrameKind) : Gradual (readFrame kind) := fun reader more =>
  ((Frame.read_extends reader.maxFrame reader.unread more).check _).lift fun _ => rfl

theorem gradual_readMessage : Gradual readMessage := fun reader more =>
  (gradual_readFrame .message reader more).check _

theorem gradual_readChange : Gradual readChange := fun reader more =>
  (gradual_readFrame .item reader more).check _

theorem gradual_readPayload : Gradual readPayload := by
  intro reader more
  have announced := (gradual_readFrame .attachmentStream reader more).check fun payload =>
    onWire (PayloadDescriptor.decode payload)
  refine announced.andThen fun descriptor middle => ?_
  exact (Spool.accept_extends middle.maxAttachment descriptor middle.spool middle.unread more).lift
    fun _ => rfl

theorem gradual_readMany (gradual : Gradual read) (count : Nat) : Gradual (readMany read count) := by
  induction count with
  | zero => exact fun reader more => .done [] reader
  | succ count ih =>
      intro reader more
      exact (gradual reader more).andThen fun first middle =>
        (ih middle more).andThen fun others last => .done (first :: others) last

theorem gradual_readBatch (header : BatchHeader) : Gradual (readBatch header) := by
  intro reader more
  have changes := gradual_readMany gradual_readChange header.itemCount
    { reader with spool := .empty } more
  refine (changes.andThen fun changes middle => ?_).mapFault (Fault.within "batch")
  exact (gradual_readMany gradual_readPayload header.streamCount middle more).andThen
    fun payloads last => .done (IncomingBatch.mk changes payloads) last

end WireReader

end DocumentReplication
