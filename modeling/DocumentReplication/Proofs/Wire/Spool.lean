import DocumentReplication.Connection.Progress

/-!
The spool of a batch. A payload whose digest is its announced hash is taken, and its region keeps its
content while later payloads are put behind it; so whatever a batch refers to can be loaded, and has
the hash it is named by.
-/

namespace DocumentReplication

variable {payload other : SpooledPayload} {reader next : WireReader}

namespace Spool

variable {spool grown : Spool} {limit : Nat} {descriptor : PayloadDescriptor} {bytes rest more : Bytes}

/-- The region of a payload has content with its hash. -/
def Holds (spool : Spool) (payload : SpooledPayload) : Prop :=
  ∃ content, spool.read payload = .ok content ∧ contentHash content = payload.hash

theorem read_eq_ok_iff {content : Bytes} :
    spool.read payload = .ok content ↔
      payload.offset + payload.length ≤ spool.content.length ∧
        (spool.content.drop payload.offset).take payload.length = content := by
  unfold read size
  split
  · simp only [reduceCtorEq, false_iff, not_and]
    omega
  · simp only [Except.ok.injEq]
    constructor
    · exact fun same => ⟨by omega, same⟩
    · exact fun found => found.2

/-- A region of the front is the same region of the whole. -/
theorem region_of_begins {front whole : Bytes} {offset count : Nat} (begins : front <+: whole)
    (inside : offset + count ≤ front.length) :
    (whole.drop offset).take count = (front.drop offset).take count := by
  obtain ⟨beyond, rfl⟩ := begins
  rw [List.drop_append_of_le_length (by omega), List.take_append_of_le_length (by
    rw [List.length_drop]
    omega)]

/-- What can be read can be read of a spool that has grown. -/
theorem read_of_begins {content : Bytes} (begins : spool.content <+: grown.content)
    (found : spool.read payload = .ok content) : grown.read payload = .ok content := by
  obtain ⟨inside, region⟩ := read_eq_ok_iff.mp found
  exact read_eq_ok_iff.mpr ⟨Nat.le_trans inside begins.length_le,
    (region_of_begins begins inside).trans region⟩

theorem Holds.append (holds : spool.Holds payload) (more : Bytes) :
    Holds ⟨spool.content ++ more⟩ payload := by
  obtain ⟨content, read, hashed⟩ := holds
  exact ⟨content, read_of_begins (List.prefix_append ..) read, hashed⟩

/-- What is taken of a stream, and what becomes of it. -/
theorem accept_eq_done_iff :
    spool.accept limit descriptor bytes = .done payload (grown, rest) ↔
      descriptor.length.toNat ≤ limit ∧ ∃ content, bytes = content ++ rest ∧
        content.length = descriptor.length.toNat ∧ contentHash content = descriptor.hash ∧
        payload = ⟨descriptor.hash, spool.size, content.length⟩ ∧
        grown = ⟨spool.content ++ content⟩ := by
  constructor
  · intro taken
    simp only [accept] at taken
    split at taken
    · contradiction
    · rename_i within
      split at taken
      · contradiction
      · rename_i content left split
        obtain ⟨rfl, length⟩ := Bytes.split?_eq_some_iff.mp split
        split at taken
        · rename_i hashed
          cases taken
          exact ⟨Nat.not_lt.mp within, content, rfl, length, hashed, by rw [hashed, length], rfl⟩
        · contradiction
  · rintro ⟨within, content, rfl, length, hashed, rfl, rfl⟩
    rw [← length] at within
    simp only [accept, ← length, Nat.not_lt.mpr within, if_false, Bytes.split?_append, hashed, if_true]

theorem accept_holds (taken : spool.accept limit descriptor bytes = .done payload (grown, rest)) :
    grown.Holds payload ∧ ∀ other, spool.Holds other → grown.Holds other := by
  obtain ⟨-, content, -, -, hashed, rfl, rfl⟩ := accept_eq_done_iff.mp taken
  refine ⟨⟨content, read_eq_ok_iff.mpr ⟨?_, ?_⟩, hashed⟩, fun other holds => holds.append content⟩
  · simp [size]
  · simp [size]

end Spool

namespace WireReader

theorem readPayload_holds (found : reader.readPayload = .done payload next) :
    next.spool.Holds payload ∧ ∀ other, reader.spool.Holds other → next.spool.Holds other := by
  obtain ⟨descriptor, middle, announced, accepted⟩ := Intake.andThen_eq_done_iff.mp found
  obtain ⟨_, read, -⟩ := Intake.check_eq_done_iff.mp announced
  obtain ⟨_, -, same⟩ := Intake.lift_eq_done_iff.mp read
  obtain ⟨⟨grown, rest⟩, taken, rfl⟩ := Intake.lift_eq_done_iff.mp accepted
  have spooled : middle.spool = reader.spool := by rw [← same]
  rw [← spooled]
  exact Spool.accept_holds taken

theorem readMany_readPayload_holds {count : Nat} {payloads : List SpooledPayload}
    (found : readMany readPayload count reader = .done payloads next) :
    (∀ payload ∈ payloads, next.spool.Holds payload) ∧
      ∀ other, reader.spool.Holds other → next.spool.Holds other := by
  induction count generalizing reader payloads with
  | zero =>
      cases found
      exact ⟨nofun, fun _ holds => holds⟩
  | succ count ih =>
      obtain ⟨first, middle, one, others⟩ := Intake.andThen_eq_done_iff.mp found
      obtain ⟨rest, last, many, same⟩ := Intake.andThen_eq_done_iff.mp others
      cases same
      obtain ⟨held, earlier⟩ := readPayload_holds one
      obtain ⟨later, kept⟩ := ih many
      refine ⟨fun payload member => ?_, fun other holds => kept other (earlier other holds)⟩
      rcases List.mem_cons.mp member with rfl | member
      · exact kept payload held
      · exact later payload member

/-- All payloads of a batch can be loaded once it was read. -/
theorem readBatch_holds {header : BatchHeader} {batch : IncomingBatch}
    (found : reader.readBatch header = .done batch next) :
    ∀ payload ∈ batch.payloads, next.spool.Holds payload := by
  obtain ⟨changes, middle, -, rest⟩ :=
    Intake.andThen_eq_done_iff.mp (Intake.mapFault_eq_done_iff.mp found)
  obtain ⟨payloads, last, second, same⟩ := Intake.andThen_eq_done_iff.mp rest
  cases same
  exact (readMany_readPayload_holds second).1

end WireReader

end DocumentReplication
