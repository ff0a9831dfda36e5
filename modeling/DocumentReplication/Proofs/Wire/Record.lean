import DocumentReplication.Proofs.Wire.Batch

/-!
Records on the wire have exactly one form each. A record that is cut short anywhere is refused for the
octets it lacks, and one that goes on for the octets it has too many; so no form of a record begins
another one, and a change is never taken for the announcement of a payload.
-/

namespace DocumentReplication

variable {record : String} {front tail bytes : Bytes} {cause : WireFault}

/-- Reading ended because octets were missing. -/
def Attempt.IsShort {α : Type} (record : String) (attempt : Attempt α) : Prop :=
  ∃ needed left rest, attempt = (.error (.fieldTruncated record needed left), rest)

theorem Attempt.IsShort.andThen {α β : Type} {first : Attempt α} (short : first.IsShort record)
    (next : α → Bytes → Attempt β) : (first.andThen next).IsShort record := by
  obtain ⟨needed, left, rest, rfl⟩ := short
  exact ⟨needed, left, rest, rfl⟩

theorem takeBytes_isShort {count : Nat} (short : bytes.length < count) :
    (takeBytes record count bytes).IsShort record := by
  rw [takeBytes, Bytes.split?_eq_none_iff.mpr short]
  exact ⟨_, _, _, rfl⟩

theorem length_lt_of_append {whole : Bytes} (parts : whole = front ++ tail) (missing : tail ≠ []) :
    front.length < whole.length := by
  have rest := List.length_pos_iff.mpr missing
  rw [parts, List.length_append]
  omega

/-- Two parts that are cut short are cut inside the first one or behind it. -/
theorem cut_cases {first last : Bytes} (parts : first ++ last = front ++ tail) :
    (∃ start, front = first ++ start ∧ last = start ++ tail) ∨
      ∃ lacking, first = front ++ lacking ∧ lacking ≠ [] := by
  rcases List.append_eq_append_iff.mp parts with behind | ⟨lacking, same, rest⟩
  · exact .inl behind
  · cases lacking with
    | nil => exact .inl ⟨[], by rw [same, List.append_nil, List.append_nil], rest.symm⟩
    | cons octet others => exact .inr ⟨octet :: others, same, List.cons_ne_nil octet others⟩

theorem readSized_cut {content : Bytes} (bound : content.length < UInt32.size)
    (parts : sized content = front ++ tail) (missing : tail ≠ []) :
    (readSized record front).IsShort record := by
  have exact : (UInt32.ofNat content.length).toNat = content.length :=
    UInt32.toNat_ofNat_of_lt' bound
  rcases cut_cases parts with ⟨start, rfl, rest⟩ | ⟨lacking, size, some⟩
  · simp only [readSized, takeBytes_append record (LittleEndian.length_word32 _), Attempt.andThen,
      LittleEndian.toWord32_word32, exact]
    exact takeBytes_isShort (length_lt_of_append rest missing)
  · have early := length_lt_of_append size some
    rw [LittleEndian.length_word32] at early
    exact (takeBytes_isShort early).andThen _

theorem FieldKind.read_cut {kind : FieldKind} {value : kind.Value} (fits : kind.Fits value)
    (parts : kind.write value = front ++ tail) (missing : tail ≠ []) :
    (kind.read record front).IsShort record := by
  have short := length_lt_of_append parts missing
  cases kind with
  | byte =>
      obtain rfl : front = [] := List.eq_nil_of_length_eq_zero (Nat.lt_one_iff.mp short)
      exact ⟨_, _, _, rfl⟩
  | word32 => exact (takeBytes_isShort (by simpa [write] using short)).andThen _
  | word64 => exact (takeBytes_isShort (by simpa [write] using short)).andThen _
  | signed => exact (takeBytes_isShort (by simpa [write] using short)).andThen _
  | time => exact (takeBytes_isShort (by simpa [write] using short)).andThen _
  | text => exact (readSized_cut fits parts missing).andThen _
  | blob => exact readSized_cut fits parts missing

namespace Layout

variable {layout : Layout} {values : layout.Values}

theorem read_cut (record : String) (fits : layout.Fits values) (parts : layout.write values = front ++ tail)
    (missing : tail ≠ []) : (layout.read record front).IsShort record := by
  induction layout generalizing front with
  | nil => exact absurd (List.append_eq_nil_iff.mp parts.symm).2 missing
  | cons kind layout ih =>
      obtain ⟨value, values⟩ := values
      rcases cut_cases parts with ⟨start, rfl, rest⟩ | ⟨lacking, first, some⟩
      · rw [read, FieldKind.read_write record fits.1]
        exact (ih fits.2 rest).andThen _
      · exact (FieldKind.read_cut fits.1 first some).andThen _

theorem readWhole_cut (record : String) (fits : layout.Fits values) (parts : layout.write values = front ++ tail)
    (missing : tail ≠ []) :
    ∃ needed left, layout.readWhole record front = .error (.fieldTruncated record needed left) := by
  obtain ⟨needed, left, rest, short⟩ := read_cut record fits parts missing
  exact ⟨needed, left, by simp only [readWhole, short]⟩

theorem readWhole_extended (record : String) (fits : layout.Fits values) (more : tail ≠ []) :
    layout.readWhole record (layout.write values ++ tail) =
      .error (.trailingBytes record tail.length) := by
  have filled : tail.isEmpty = false := by simpa using more
  simp only [readWhole, read_write record fits, finish, filled, Bool.false_eq_true, if_false,
    Except.map_error]

end Layout

/-- Every record that fits has one form, which is read back, and nothing else is accepted: neither what
such a form begins nor what it goes on with. What is refused is a violation by the sender. -/
structure HasExactForms {α : Type} (Fits : α → Prop) (encode : α → Bytes)
    (decode : Bytes → Except WireFault α) : Prop where
  decode_encode : ∀ value, Fits value → decode (encode value) = .ok value
  encode_of_decode : ∀ bytes value, decode bytes = .ok value → encode value = bytes ∧ Fits value
  cut : ∀ front tail value, decode (front ++ tail) = .ok value → tail ≠ [] →
    ∃ record needed left, decode front = .error (.fieldTruncated record needed left)
  extended : ∀ bytes tail value, decode bytes = .ok value → tail ≠ [] →
    ∃ record, decode (bytes ++ tail) = .error (.trailingBytes record tail.length)
  violation : ∀ bytes fault, onWire (decode bytes) = .error fault → fault.IsViolation

namespace Change

variable {change : Change}

theorem decode_of_kind (rest : Bytes) :
    decode (change.kind.tag :: rest) = decodeAs change.kind rest := by
  have different : change.kind ≠ .attachmentStream := change.body.kind_ne_attachmentStream
  simp only [decode, ItemKind.ofTag?_tag, if_neg different]

theorem decode_cut (fits : change.Fits) (parts : change.encode = front ++ tail)
    (missing : tail ≠ []) :
    ∃ record needed left, decode front = .error (.fieldTruncated record needed left) := by
  cases front with
  | nil => exact ⟨_, _, _, rfl⟩
  | cons tag start =>
      obtain ⟨rfl, fields⟩ := List.cons.inj parts
      refine ⟨change.kind.describe, ?_⟩
      rw [decode_of_kind, decodeAs]
      rcases cut_cases fields with ⟨begun, rfl, rest⟩ | ⟨lacking, header, some⟩
      · obtain ⟨needed, left, short⟩ :=
          Layout.readWhole_cut change.kind.describe fits.2 rest missing
        exact ⟨needed, left, by simp only [Layout.read_write _ fits.1, short]⟩
      · obtain ⟨needed, left, rest, short⟩ :=
          Layout.read_cut change.kind.describe fits.1 header some
        exact ⟨needed, left, by simp only [short]⟩

theorem decode_extended (fits : change.Fits) (more : tail ≠ []) :
    decode (change.encode ++ tail) =
      .error (.trailingBytes change.kind.describe tail.length) := by
  have first := Layout.read_write change.kind.describe fits.1
    (change.kind.layout.write change.body.values ++ tail)
  have last := Layout.readWhole_extended change.kind.describe fits.2 more
  rw [encode, List.cons_append, List.append_assoc, decode_of_kind]
  simp only [decodeAs, first, last]

theorem hasExactForms : HasExactForms Fits encode decode where
  decode_encode _ fits := decode_eq_ok_iff.mpr ⟨rfl, fits⟩
  encode_of_decode _ _ decoded := ⟨(decode_eq_ok_iff.mp decoded).1.symm, (decode_eq_ok_iff.mp decoded).2⟩
  cut front tail change decoded missing := by
    obtain ⟨same, fits⟩ := decode_eq_ok_iff.mp decoded
    exact decode_cut fits same.symm missing
  extended bytes tail change decoded more := by
    obtain ⟨rfl, fits⟩ := decode_eq_ok_iff.mp decoded
    exact ⟨_, decode_extended fits more⟩
  violation _ _ := onWire_isViolation

end Change

namespace PayloadDescriptor

variable {descriptor : PayloadDescriptor}

/-- Whether the hash fits its length prefix. -/
def Fits (descriptor : PayloadDescriptor) : Prop :=
  (Text.utf8 descriptor.hash).length < UInt32.size

theorem decode_of_tag (rest : Bytes) :
    decode (ItemKind.attachmentStream.tag :: rest) =
      (layout.readWhole ItemKind.attachmentStream.describe rest).map
        fun (hash, length, ()) => ⟨hash, length⟩ := by
  simp only [decode, ItemKind.ofTag?_tag]
  exact if_pos trivial

theorem Fits.values (fits : descriptor.Fits) :
    layout.Fits (descriptor.hash, descriptor.length, ()) :=
  ⟨fits, trivial, trivial⟩

theorem decode_cut (fits : descriptor.Fits) (parts : descriptor.encode = front ++ tail)
    (missing : tail ≠ []) :
    ∃ record needed left, decode front = .error (.fieldTruncated record needed left) := by
  cases front with
  | nil => exact ⟨_, _, _, rfl⟩
  | cons tag start =>
      obtain ⟨rfl, fields⟩ := List.cons.inj parts
      obtain ⟨needed, left, short⟩ :=
        Layout.readWhole_cut ItemKind.attachmentStream.describe fits.values fields missing
      exact ⟨_, needed, left, by rw [decode_of_tag, short, Except.map_error]⟩

theorem decode_extended (fits : descriptor.Fits) (more : tail ≠ []) :
    decode (descriptor.encode ++ tail) =
      .error (.trailingBytes ItemKind.attachmentStream.describe tail.length) := by
  rw [encode, List.cons_append, decode_of_tag, Layout.readWhole_extended _ fits.values more,
    Except.map_error]

theorem hasExactForms : HasExactForms Fits encode decode where
  decode_encode _ fits := decode_eq_ok_iff.mpr ⟨rfl, fits⟩
  encode_of_decode _ _ decoded := ⟨(decode_eq_ok_iff.mp decoded).1.symm, (decode_eq_ok_iff.mp decoded).2⟩
  cut front tail descriptor decoded missing := by
    obtain ⟨same, fits⟩ := decode_eq_ok_iff.mp decoded
    exact decode_cut fits same.symm missing
  extended bytes tail descriptor decoded more := by
    obtain ⟨rfl, fits⟩ := decode_eq_ok_iff.mp decoded
    exact ⟨_, decode_extended fits more⟩
  violation _ _ := onWire_isViolation

end PayloadDescriptor

/-- Changes and announcements of payloads are told apart by the octet of their kind. -/
theorem Change.encode_ne_descriptor (change : Change) (descriptor : PayloadDescriptor) :
    change.encode ≠ descriptor.encode := by
  intro same
  have tags : change.kind.tag = ItemKind.attachmentStream.tag := (List.cons.inj same).1
  have kinds := congrArg ItemKind.ofTag? tags
  rw [ItemKind.ofTag?_tag, ItemKind.ofTag?_tag, Option.some.injEq] at kinds
  exact change.body.kind_ne_attachmentStream kinds

/-- Changes and announcements of payloads each have exactly one form on the wire, and none in common. -/
theorem records_exact :
    HasExactForms Change.Fits Change.encode Change.decode ∧
    HasExactForms PayloadDescriptor.Fits PayloadDescriptor.encode PayloadDescriptor.decode ∧
    ∀ bytes change descriptor, Change.decode bytes = .ok change →
      PayloadDescriptor.decode bytes ≠ .ok descriptor := by
  refine ⟨Change.hasExactForms, PayloadDescriptor.hasExactForms, ?_⟩
  intro bytes change descriptor asChange asDescriptor
  obtain ⟨one, -⟩ := Change.decode_eq_ok_iff.mp asChange
  obtain ⟨other, -⟩ := PayloadDescriptor.decode_eq_ok_iff.mp asDescriptor
  exact change.encode_ne_descriptor descriptor (one.symm.trans other)

end DocumentReplication
