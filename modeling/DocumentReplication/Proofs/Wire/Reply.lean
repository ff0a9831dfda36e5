import DocumentReplication.Proofs.Json.Parsing
import DocumentReplication.Proofs.Json.Reading
import DocumentReplication.Proofs.Wire.Framing
import DocumentReplication.Wire.Reply

/-!
Replies come through as they were sent: whatever a reply says, in whatever characters, its frame is
read as that reply, and nothing behind the frame is touched.
-/

namespace DocumentReplication

theorem ReplyKind.ofName?_name (kind : ReplyKind) : ofName? kind.name = some kind := by
  cases kind <;> rfl

namespace Reply

variable {limit : Nat} {bytes rest : Bytes} {reply : Reply}

theorem kindOfJson?_name (kind : ReplyKind) :
    kindOfJson? (.ofString kind.name) = some kind := by
  simp only [kindOfJson?, Json.toVariant?_ofString, Option.bind_eq_bind, Option.bind_some,
    ReplyKind.ofName?_name]

/-- A text that is absent has no member, so it is not found under its name. -/
theorem toFields?_toJson (reply : Reply) :
    reply.toJson.toFields? fieldNames = some [
      some (.ofString reply.kind.name), some (.ofString reply.messageType),
      some (.integer reply.lastEtagAccepted.toInt), reply.exception.map .ofString,
      reply.nodeTag.map .ofString] := by
  obtain ⟨kind, messageType, lastEtag, exception, nodeTag⟩ := reply
  cases exception with
  | none =>
      cases nodeTag with
      | none =>
          exact Json.toFields?_ofMembers ["Type", "MessageType", "LastEtagAccepted"] rfl
            (by decide) (by decide)
      | some tag =>
          exact Json.toFields?_ofMembers ["Type", "MessageType", "LastEtagAccepted", "NodeTag"] rfl
            (by decide) (by decide)
  | some text =>
      cases nodeTag with
      | none =>
          exact Json.toFields?_ofMembers ["Type", "MessageType", "LastEtagAccepted", "Exception"] rfl
            (by decide) (by decide)
      | some tag =>
          exact Json.toFields?_ofMembers
            ["Type", "MessageType", "LastEtagAccepted", "Exception", "NodeTag"] rfl (by decide)
            (by decide)

theorem ofJson?_toJson (reply : Reply) : ofJson? reply.toJson = some reply := by
  simp only [ofJson?, toFields?_toJson, Json.required, kindOfJson?_name, Json.toString?_ofText,
    Json.toSigned64?_integer, Json.optional_toString?_map, Option.bind_eq_bind, Option.bind_some,
    Option.pure_def]

theorem written_member (name : String) (value : Option String) :
    ∀ entry ∈ member name value, entry.2.Written := by
  cases value with
  | none => nofun
  | some text => exact List.forall_mem_singleton.mpr (Json.written_ofString text)

theorem written_toJson (reply : Reply) : reply.toJson.Written := by
  refine Json.written_ofMembers fun entry present => ?_
  simp only [List.append_assoc, List.mem_append] at present
  rcases present with fixed | exception | nodeTag
  · simp only [List.mem_cons, List.not_mem_nil, or_false] at fixed
    rcases fixed with rfl | rfl | rfl
    · exact Json.written_ofString _
    · exact Json.written_ofString _
    · exact trivial
  · exact written_member _ _ entry exception
  · exact written_member _ _ entry nodeTag

/-- A reply is read from the payload that is written for it. -/
theorem ofPayload_write (reply : Reply) : ofPayload reply.toJson.write = .ok reply := by
  simp only [ofPayload, Json.parse?_write (written_toJson reply), Option.bind_some, ofJson?_toJson]

theorem read_eq_done_iff :
    read limit bytes = .done reply rest ↔
      ∃ payload, bytes = Frame.encode ⟨.message, payload⟩ ++ rest ∧
        Frame.Within limit ⟨.message, payload⟩ ∧ ofPayload payload = .ok reply := by
  simp only [read, Frame.readKind, Intake.check_eq_done_iff, Frame.read_eq_done_iff]
  constructor
  · rintro ⟨payload, ⟨⟨kind, _⟩, ⟨arrived, within⟩, expected⟩, read⟩
    obtain ⟨_, same, rfl⟩ := Except.map_eq_ok_iff.mp expected
    unfold Frame.expect at same
    split at same
    · rename_i isMessage
      cases same
      cases isMessage
      exact ⟨_, arrived, within, read⟩
    · contradiction
  · rintro ⟨payload, arrived, within, read⟩
    exact ⟨payload, ⟨_, ⟨arrived, within⟩, rfl⟩, read⟩

/-- The frame of a reply is read as that reply, leaving exactly what follows it, just if its document is
within the limit and four octets count it. -/
theorem replies_read_back (limit : Nat) (reply : Reply) (rest : Bytes) :
    read limit (reply.frame.encode ++ rest) = .done reply rest ↔ reply.frame.Within limit := by
  rw [read_eq_done_iff]
  constructor
  · rintro ⟨payload, same, within, -⟩
    have length := congrArg List.length (List.append_cancel_right same)
    rw [Frame.length_encode, Frame.length_encode] at length
    have equal : reply.frame.payload.length = payload.length := Nat.add_right_cancel length
    exact ⟨equal ▸ within.1, equal ▸ within.2⟩
  · exact fun within => ⟨_, rfl, within, ofPayload_write reply⟩

end Reply

end DocumentReplication
