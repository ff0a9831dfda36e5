import DocumentReplication.Proofs.Digest.ContentHash
import DocumentReplication.Proofs.Json.Parsing
import DocumentReplication.Proofs.Json.Reading
import DocumentReplication.Proofs.Wire.Batch

/-!
Whole batches as a sending node writes them. A reader takes from the stream what was sent, and nothing
behind it; and as long as it reads no other batch, it has every payload at hand.
-/

namespace DocumentReplication

theorem Decimal.length_signed_le {width : Nat} {value : Int} (small : value.natAbs < 10 ^ width)
    (positive : 0 < width) : (signed value).length ≤ width + 1 := by
  cases value with
  | ofNat size => exact Nat.le_succ_of_le (length_digits_le small positive)
  | negSucc size => exact Nat.succ_le_succ (length_digits_le small positive)

namespace Message

/-- Counts are read as signed numbers of eight octets. -/
def Counted : Message → Prop
  | documents header => header.itemCount < 2 ^ 63 ∧ header.streamCount < 2 ^ 63
  | _ => True

theorem ofPayload_ofMembers {members : List (String × Json)} {fields : HeaderFields}
    (values : ∀ member ∈ members, member.2.Written)
    (read : HeaderFields.ofJson? (.ofMembers members) = some fields) :
    ofPayload (Json.ofMembers members).write = ofFields fields := by
  have something : (Json.ofMembers members).write.isEmpty = false := by
    rw [Json.ofMembers, Json.write]
    rfl
  rw [ofPayload, something, if_neg Bool.false_ne_true,
    Json.parse?_write (Json.written_ofMembers values), Option.bind_some, read]

theorem count_ofNat {number : Nat} (small : number < 2 ^ 63) (field : String) :
    count field (some (Int64.ofNat number)) = .ok number := by
  rw [count, Int64.toInt_ofNat_of_lt small, if_neg (by omega), Int.toNat_natCast]

theorem optional_toSigned64?_natCast {number : Nat} (small : number < 2 ^ 63) :
    Json.optional Json.toSigned64? (some (.integer number)) = some (some (.ofNat number)) := by
  rw [← Int64.toInt_ofNat_of_lt small, Json.optional_toSigned64?_integer]

theorem HeaderFields.ofJson?_eq {json : Json} {type lastEtag itemCount streamCount : Option Json}
    (found : json.toFields? headerNames = some [type, lastEtag, itemCount, streamCount]) :
    HeaderFields.ofJson? json = do
      return {
        type := ← Json.optional Json.toString? type
        lastEtag := ← Json.optional Json.toSigned64? lastEtag
        itemCount := ← Json.optional Json.toSigned64? itemCount
        streamCount := ← Json.optional Json.toSigned64? streamCount } := by
  rw [HeaderFields.ofJson?, found]
  rfl

/-- A message is read from the header that is written for it. -/
theorem ofPayload_header {message : Message} (counted : message.Counted) :
    ofPayload message.header = .ok message := by
  cases message with
  | poll => rfl
  | heartbeat lastEtag =>
      have fields : (Json.ofMembers [("Type", .ofString "Heartbeat"),
          ("LastDocumentEtag", .integer lastEtag.toInt)]).toFields? headerNames =
            some [some (.ofString "Heartbeat"), some (.integer lastEtag.toInt), none, none] :=
        Json.toFields?_ofMembers ["Type", "LastDocumentEtag"] rfl (by decide) (by decide)
      have read := HeaderFields.ofJson?_eq fields
      simp only [Json.optional_toString?_ofString, Json.optional_toSigned64?_integer,
        Json.optional_none, Option.pure_def, Option.bind_eq_bind, Option.bind_some] at read
      rw [header, ofPayload_ofMembers (by simp [Json.written_ofString, Json.Written]) read]
      rfl
  | documents header =>
      obtain ⟨items, streams⟩ := counted
      have fields : (Json.ofMembers [("Type", .ofString "Documents"),
          ("LastDocumentEtag", .integer header.lastEtag.toInt),
          ("ItemsCount", .integer header.itemCount),
          ("AttachmentStreamsCount", .integer header.streamCount)]).toFields? headerNames =
            some [some (.ofString "Documents"), some (.integer header.lastEtag.toInt),
              some (.integer header.itemCount), some (.integer header.streamCount)] :=
        Json.toFields?_ofMembers
          ["Type", "LastDocumentEtag", "ItemsCount", "AttachmentStreamsCount"] rfl (by decide) (by decide)
      have read := HeaderFields.ofJson?_eq fields
      simp only [Json.optional_toString?_ofString, Json.optional_toSigned64?_integer,
        optional_toSigned64?_natCast items, optional_toSigned64?_natCast streams, Option.pure_def,
        Option.bind_eq_bind, Option.bind_some] at read
      rw [Message.header, ofPayload_ofMembers (by simp [Json.written_ofString, Json.Written]) read]
      simp [ofFields, count_ofNat items, count_ofNat streams]

/-- A header is short, so four octets always count it. -/
theorem length_header_lt {message : Message} (counted : message.Counted) :
    message.header.length < UInt32.size := by
  have etag (value : Int64) : (Decimal.signed value.toInt).length ≤ 20 := by
    have lower := value.le_toInt
    have upper := value.toInt_lt
    exact Decimal.length_signed_le (show value.toInt.natAbs < 10 ^ 19 by omega) (by omega)
  have number {count : Nat} (small : count < 2 ^ 63) : (Decimal.signed count).length ≤ 20 :=
    Decimal.length_signed_le (show (count : Int).natAbs < 10 ^ 19 by omega) (by omega)
  have name : ∀ name ∈ ["Type", "LastDocumentEtag", "ItemsCount", "AttachmentStreamsCount",
      "Heartbeat", "Documents"], (Json.quoted (Json.Piece.ofString name)).length ≤ 24 := by decide
  have type := name "Type" (by decide)
  have last := name "LastDocumentEtag" (by decide)
  cases message with
  | poll => decide
  | heartbeat lastEtag =>
      have value := etag lastEtag
      have heartbeat := name "Heartbeat" (by decide)
      simp only [header, Json.ofMembers, Json.ofString, List.map_cons, List.map_nil, Json.write,
        Json.writeMembers, List.length_cons, List.length_append, List.length_nil, Bytes.asciiText,
        List.length_map, UInt32.size]
      omega
  | documents header =>
      have value := etag header.lastEtag
      have items := number counted.1
      have streams := number counted.2
      have documents := name "Documents" (by decide)
      have itemCount := name "ItemsCount" (by decide)
      have streamCount := name "AttachmentStreamsCount" (by decide)
      simp only [Message.header, Json.ofMembers, Json.ofString, List.map_cons, List.map_nil,
        Json.write, Json.writeMembers, List.length_cons, List.length_append, List.length_nil,
        Bytes.asciiText, List.length_map, UInt32.size]
      omega

end Message

theorem PayloadDescriptor.length_encode (descriptor : PayloadDescriptor) :
    descriptor.encode.length = 13 + (Text.utf8 descriptor.hash).length := by
  simp only [encode, layout, ItemKind.layout, Layout.write, FieldKind.write, sized, List.length_cons,
    List.length_append, List.length_nil, LittleEndian.length_word32, LittleEndian.length_word64]
  omega

namespace Batch

/-- A batch that is within the limits of a reader, and that a sending node has a form for: a frame
counts its payload in four octets, and an announcement its own in eight. -/
structure Sendable (frameLimit limit : Nat) (lastEtag : Int64) (changes : List Change)
    (payloads : List Bytes) : Prop where
  counted : (Message.documents ⟨lastEtag, changes.length, payloads.length⟩).Counted
  header : (Message.documents ⟨lastEtag, changes.length, payloads.length⟩).header.length ≤ frameLimit
  fits : ∀ change ∈ changes, change.Fits
  framed : ∀ change ∈ changes,
    change.encode.length ≤ frameLimit ∧ change.encode.length < UInt32.size
  announced : ∀ payload ∈ payloads,
    (announcement (contentHash payload, payload)).encode.length ≤ frameLimit
  measured : ∀ payload ∈ payloads, payload.length ≤ limit ∧ payload.length < UInt64.size

/-- What follows the header of a batch whose payloads are announced by their own hashes. -/
def body (changes : List Change) (payloads : List Bytes) : BatchBody :=
  ⟨changes, payloads.map fun payload => (contentHash payload, payload)⟩

theorem map_snd_body (changes : List Change) (payloads : List Bytes) :
    (body changes payloads).payloads.map (·.2) = payloads := by
  rw [body, List.map_map]
  exact List.map_id payloads

variable {frameLimit limit : Nat} {lastEtag : Int64} {changes : List Change} {payloads : List Bytes}

theorem encode_ofPayloads (lastEtag : Int64) (changes : List Change) (payloads : List Bytes) :
    (ofPayloads lastEtag (changes.map .change) payloads).encode =
      Frame.encode ⟨.message,
        (Message.documents ⟨lastEtag, changes.length, payloads.length⟩).header⟩ ++
          (body changes payloads).encode := by
  simp only [encode, header, ofPayloads, Message.frame, body, BatchBody.encode, List.length_map,
    List.flatMap_map, List.append_assoc]

theorem Sendable.follows (sendable : Sendable frameLimit limit lastEtag changes payloads) :
    (body changes payloads).Follows ⟨lastEtag, changes.length, payloads.length⟩ frameLimit limit where
  itemCount := rfl
  streamCount := List.length_map _
  changes change member :=
    ⟨sendable.fits change member, (sendable.framed change member).1, (sendable.framed change member).2⟩
  payloads payload member := by
    obtain ⟨content, sent, rfl⟩ := List.mem_map.mp member
    have hash := length_utf8_contentHash_le content
    have size := PayloadDescriptor.length_encode (announcement (contentHash content, content))
    obtain ⟨within, measured⟩ := sendable.measured content sent
    refine ⟨rfl, ?_, sendable.announced content sent, ?_, within, measured⟩
    · exact Nat.lt_of_le_of_lt hash (by decide)
    · rw [size]
      simp only [announcement, UInt32.size]
      omega

end Batch

theorem Spool.map_hash_regions (offset : Nat) (payloads : List (String × Bytes)) :
    (regions offset payloads).map (·.hash) = payloads.map (·.1) := by
  induction payloads generalizing offset with
  | nil => rfl
  | cons payload others ih => rw [regions, List.map_cons, List.map_cons, ih]

/-- A region of the spool has the payload it was made for. -/
theorem Spool.load_of_mem_zip {reader : WireReader} {payloads : List (String × Bytes)}
    (front back : Bytes) (spooled : reader.spool.content = front ++ payloads.flatMap (·.2) ++ back) :
    ∀ load ∈ (regions front.length payloads).zip (payloads.map (·.2)),
      reader.load load.1 = .ok load.2 := by
  induction payloads generalizing front with
  | nil => nofun
  | cons payload others ih =>
      obtain ⟨hash, content⟩ := payload
      rw [List.flatMap_cons] at spooled
      have later := ih (front ++ content) (by simp [spooled])
      rw [List.length_append] at later
      intro load member
      rw [regions, List.map_cons, List.zip_cons_cons] at member
      rcases List.mem_cons.mp member with rfl | member
      · exact WireReader.load_region hash front (others.flatMap (·.2) ++ back) (by simp [spooled])
      · exact later load member

namespace WireReader

variable {reader : WireReader} {lastEtag : Int64} {changes : List Change} {payloads : List Bytes}
  {rest : Bytes}

theorem mapM_load (reader : WireReader) {loads : List (SpooledPayload × Bytes)}
    (each : ∀ load ∈ loads, reader.load load.1 = .ok load.2) :
    loads.mapM (fun load => reader.load load.1) = .ok (loads.map (·.2)) := by
  induction loads with
  | nil => rfl
  | cons first others ih =>
      rw [List.mapM_cons, each first List.mem_cons_self,
        ih fun load member => each load (List.mem_cons_of_mem _ member)]
      rfl

/-- A batch is read as it was sent, and what follows it is left; then every payload can be loaded, in
any order and any number of times. -/
theorem sent_read_back
    (sendable : Batch.Sendable reader.maxFrame reader.maxAttachment lastEtag changes payloads)
    (arrived : reader.unread =
      (Batch.ofPayloads lastEtag (changes.map .change) payloads).encode ++ rest) :
    ∃ middle last spooled,
      reader.readMessage = .done (.documents ⟨lastEtag, changes.length, payloads.length⟩) middle ∧
        middle.readBatch ⟨lastEtag, changes.length, payloads.length⟩ = .done ⟨changes, spooled⟩ last ∧
        spooled.map (·.hash) = payloads.map contentHash ∧
        last.unread = rest ∧
        ∀ loads ⊆ spooled.zip payloads,
          loads.mapM (fun load => last.load load.1) = .ok (loads.map (·.2)) := by
  rw [Batch.encode_ofPayloads, List.append_assoc] at arrived
  have message := readMessage_eq_done_iff.mpr ⟨_, _, arrived, sendable.header,
    Message.length_header_lt sendable.counted, Message.ofPayload_header sendable.counted, rfl⟩
  let middle : WireReader := { reader with unread := (Batch.body changes payloads).encode ++ rest }
  let last : WireReader := { middle with
    spool := ⟨(Batch.body changes payloads).payloads.flatMap (·.2)⟩, unread := rest }
  have batch : middle.readBatch ⟨lastEtag, changes.length, payloads.length⟩ = .done _ last :=
    readBatch_eq_done_iff.mpr ⟨Batch.body changes payloads, rest, rfl, sendable.follows, rfl, rfl⟩
  have contents := Batch.map_snd_body changes payloads
  have loaded := @Spool.load_of_mem_zip last (Batch.body changes payloads).payloads [] []
    (List.append_nil _).symm
  rw [contents] at loaded
  refine ⟨middle, last, _, message, batch, ?_, rfl, fun loads chosen =>
    mapM_load last fun load member => loaded load (chosen member)⟩
  rw [Spool.map_hash_regions, Batch.body, List.map_map]
  rfl

/-- A document with an attachment, and the payload of the attachment twice. -/
def profileChanges : List Change :=
  [⟨⟨"A:5-db", 5, .epoch, 0⟩, .document "users/1" "Users" [0x7b, 0x7d]⟩,
    ⟨⟨"A:6-db", 6, .epoch, 0⟩, .attachment "users/1" "photo" "image/png" (contentHash [1, 2, 3])⟩]

def profileReader : WireReader :=
  { start 1024 8 with
    unread := (Batch.ofPayloads 6 (profileChanges.map .change) [[1, 2, 3], [1, 2, 3]]).encode ++ [9] }

theorem sent_read_back_profile :
    Batch.Sendable 1024 8 6 profileChanges [[1, 2, 3], [1, 2, 3]] ∧
      ∃ middle last spooled, profileReader.readMessage = .done (.documents ⟨6, 2, 2⟩) middle ∧
        middle.readBatch ⟨6, 2, 2⟩ = .done ⟨profileChanges, spooled⟩ last ∧
        spooled.map (·.hash) = [[1, 2, 3], [1, 2, 3]].map contentHash ∧
        last.unread = [9] ∧
        ∀ loads ⊆ spooled.zip [[1, 2, 3], [1, 2, 3]],
          loads.mapM (fun load => last.load load.1) = .ok (loads.map (·.2)) := by
  have readable : ∀ change ∈ profileChanges, change.Readable 1024 := by decide +kernel
  have sendable : Batch.Sendable 1024 8 6 profileChanges [[1, 2, 3], [1, 2, 3]] :=
    ⟨⟨by decide, by decide⟩, by decide +kernel, fun change member => (readable change member).fits,
      fun change member => ⟨(readable change member).within, (readable change member).counted⟩,
      by decide +kernel, by decide⟩
  exact ⟨sendable, @sent_read_back profileReader 6 profileChanges [[1, 2, 3], [1, 2, 3]] [9] sendable rfl⟩

end WireReader

end DocumentReplication
