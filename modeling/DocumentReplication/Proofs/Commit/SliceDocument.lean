import DocumentReplication.Commit.Slice.Json
import DocumentReplication.Proofs.Json.Reading

/-!
A slice is taken up again from the document it was written down as, unchanged: every record of the
document has its fields under distinct names, and every field is read back.
-/

namespace DocumentReplication

namespace Json

theorem toRecord?_ofMembers (names : List String) (members : List (String × Json))
    (named : members.map (·.1) = names) (distinct : names.Nodup) :
    (ofMembers members).toRecord? names = some (members.map (·.2)) := by
  subst named
  have fields : (ofMembers members).toFields? ((members.map (·.1)).map fun name => ⟨name, false⟩) =
      some _ := toFields?_ofMembers _ rfl (by simp [Function.comp_def]) distinct
  have reversed : (members.reverse.map (·.1)).Nodup := by
    rw [List.map_reverse]
    exact (List.reverse_perm _).nodup_iff.mpr distinct
  have found : (members.map (·.1)).map (members.reverse.lookup ·) =
      (members.map (·.2)).map some := by
    rw [List.map_map, List.map_map, List.map_inj_left]
    exact fun member present => lookup_of_mem reversed (List.mem_reverse.mpr present)
  have all : ((members.map (·.2)).map some).mapM id = some (members.map (·.2)) :=
    mapM_map_eq_some fun _ _ => rfl
  rw [toRecord?, fields, Option.bind_eq_bind, Option.bind_some, List.map_map]
  simp only [Function.comp_def] at found ⊢
  rw [found, all]

@[simp] theorem toTimestamp?_ofTimestamp (time : Timestamp) :
    (ofTimestamp time).toTimestamp? = some time := by
  simp [toTimestamp?, ofTimestamp, InternetDate.ofText?_text]

@[simp] theorem toBytes?_ofBytes (bytes : Bytes) : (ofBytes bytes).toBytes? = some bytes := by
  apply mapM_map_eq_some
  intro byte _
  rw [toNatBelow?_integer byte.toNat_lt]
  simp

end Json

open Json (toRecord?_ofMembers)

theorem ItemKind.find?_name (kind : ItemKind) :
    ItemKind.all.find? (·.name == kind.name) = some kind := by
  cases kind <;> rfl

theorem ItemKind.nodup_fieldNames (kind : ItemKind) : ("header" :: kind.fieldNames).Nodup := by
  cases kind <;> decide

theorem ChangeHeader.ofJson?_toJson (header : ChangeHeader) :
    ChangeHeader.ofJson? header.toJson = some header := by
  have record := toRecord?_ofMembers ["change_vector", "etag", "last_modified", "flags"]
    [("change_vector", .ofString header.changeVector), ("etag", .integer header.etag.toInt),
      ("last_modified", .ofTimestamp header.modified), ("flags", .integer header.flags.toNat)]
    rfl (by decide)
  have flags := Json.toNatBelow?_integer header.flags.toNat_lt
  simp only [List.map_cons, List.map_nil] at record
  simp only [ChangeHeader.ofJson?, ChangeHeader.toJson, record, Option.bind_eq_bind,
    Option.bind_some, Json.toString?_ofText, Json.toSigned64?_integer,
    Json.toTimestamp?_ofTimestamp, UInt32.size, flags, UInt32.ofNat_toNat]
  rfl

theorem ChangeBody.members_fst (body : ChangeBody) :
    body.members.map (·.1) = body.kind.fieldNames := by
  cases body <;> rfl

theorem ChangeBody.ofFields?_members (body : ChangeBody) :
    ChangeBody.ofFields? body.kind (body.members.map (·.2)) = some body := by
  cases body <;>
    simp only [kind, members, List.map_cons, List.map_nil, ChangeBody.ofFields?,
      Json.toString?_ofText, Json.toBytes?_ofBytes, Json.toTimestamp?_ofTimestamp,
      Option.bind_eq_bind, Option.bind_some] <;> rfl

theorem Item.ofJson?_toJson (item : Item) : Item.ofJson? item.toJson = some item := by
  cases item with
  | payload hash content =>
      have record := toRecord?_ofMembers ["hash", "data"]
        [("hash", .ofString hash), ("data", .ofBytes content)] rfl (by decide)
      simp only [List.map_cons, List.map_nil] at record
      simp only [Item.toJson, Item.ofJson?, Json.toVariant?_ofMembers, ItemKind.find?_name,
        Option.bind_eq_bind, Option.bind_some, Item.ofFields?, if_true, ItemKind.fieldNames, record,
        Json.toString?_ofText, Json.toBytes?_ofBytes]
      rfl
  | change entry =>
      have record := toRecord?_ofMembers ("header" :: entry.body.kind.fieldNames)
        (("header", entry.header.toJson) :: entry.body.members)
        (by rw [List.map_cons, ChangeBody.members_fst]) (ItemKind.nodup_fieldNames entry.body.kind)
      rw [List.map_cons] at record
      simp only [Item.toJson, Item.ofJson?, Json.toVariant?_ofMembers, ItemKind.find?_name,
        Option.bind_eq_bind, Option.bind_some, Item.ofFields?, Change.kind,
        if_neg entry.body.kind_ne_attachmentStream, record, ChangeHeader.ofJson?_toJson,
        ChangeBody.ofFields?_members]
      rfl

/-- A slice that was written down is taken up again as it was. -/
theorem Slice.ofJson?_toJson (slice : Slice) : Slice.ofJson? slice.toJson = some slice := by
  have record := toRecord?_ofMembers ["source", "last_document_etag", "items"]
    [("source", .ofString slice.source), ("last_document_etag", .integer slice.lastEtag.toInt),
      ("items", .array (slice.items.map Item.toJson))] rfl (by decide)
  have items : (slice.items.map Item.toJson).mapM Item.ofJson? = some slice.items :=
    Json.mapM_map_eq_some fun item _ => item.ofJson?_toJson
  simp only [List.map_cons, List.map_nil] at record
  simp only [Slice.ofJson?, Slice.toJson, record, Option.bind_eq_bind, Option.bind_some,
    Json.toString?_ofText, Json.toSigned64?_integer, Json.toList?, items]
  rfl

end DocumentReplication
