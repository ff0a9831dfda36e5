import DocumentReplication.Proofs.Wire.Record
import DocumentReplication.Wire.FieldReader

/-!
Fields are read one by one as they were written one after the other. Whatever follows them is left,
and where they are cut short the fields before the cut are still read, while the read of the field that
is cut shows the fault.
-/

namespace DocumentReplication

variable {record : String} {bytes front tail rest : Bytes} {kind : FieldKind} {layout : Layout}
  {value : kind.Value} {values : layout.Values}

theorem Layout.read_cons_eq_ok_iff :
    Layout.read record (kind :: layout) bytes = (.ok (value, values), rest) ↔
      ∃ left, kind.read record bytes = (.ok value, left) ∧
        layout.read record left = (.ok values, rest) := by
  simp only [Layout.read, Attempt.andThen_eq_ok_iff]
  constructor
  · rintro ⟨_, left, first, _, _, others, same⟩
    cases same
    exact ⟨left, first, others⟩
  · rintro ⟨left, first, others⟩
    exact ⟨value, left, first, values, rest, others, rfl⟩

namespace FieldReader

variable {reader after : FieldReader} {read : FieldRead}

theorem next_of_read_ok (found : kind.read record bytes = (.ok value, rest)) :
    next ⟨record, bytes⟩ kind = (⟨kind, .ok value⟩, ⟨record, rest⟩) := by
  simp only [next, found, onWire_ok]

theorem next_of_read_error {cause : WireFault}
    (failed : kind.read record bytes = (.error cause, rest)) :
    next ⟨record, bytes⟩ kind = (⟨kind, .error (.wire cause)⟩, ⟨record, rest⟩) := by
  simp only [next, failed, onWire_error]

theorem readAll_cons (went : reader.next kind = (read, after)) (kinds : List FieldKind) :
    reader.readAll (kind :: kinds) = (read :: (after.readAll kinds).1, (after.readAll kinds).2) := by
  simp only [readAll, went]

theorem finish_eq_ok_iff : reader.finish = .ok () ↔ reader.rest = [] :=
  onWire_eq_ok_iff.trans Layout.finish_eq_ok_iff

theorem readAll_cons_eq_returning_iff :
    readAll ⟨record, bytes⟩ (kind :: layout) =
        (Layout.returning (kind :: layout) (value, values), ⟨record, rest⟩) ↔
      ∃ left, kind.read record bytes = (.ok value, left) ∧
        readAll ⟨record, left⟩ layout = (layout.returning values, ⟨record, rest⟩) := by
  rcases first : kind.read record bytes with ⟨outcome, left⟩
  cases outcome with
  | error cause => simp [readAll_cons (next_of_read_error first), Layout.returning]
  | ok head =>
      simp [readAll_cons (next_of_read_ok first), Layout.returning, Prod.ext_iff, and_assoc]

/-- A record is read just if each of its fields is. -/
theorem readAll_eq_returning_iff :
    readAll ⟨record, bytes⟩ layout = (layout.returning values, ⟨record, rest⟩) ↔
      layout.read record bytes = (.ok values, rest) := by
  induction layout generalizing bytes with
  | nil => simp [readAll, Layout.returning, Layout.read]
  | cons kind layout ih =>
      obtain ⟨value, values⟩ := values
      rw [readAll_cons_eq_returning_iff, Layout.read_cons_eq_ok_iff]
      exact exists_congr fun left => and_congr_right fun _ => ih

/-- The values that are read back are those that their fields can hold. -/
theorem readAll_write_append_iff :
    readAll ⟨record, layout.write values ++ rest⟩ layout = (layout.returning values, ⟨record, rest⟩) ↔
      layout.Fits values := by
  rw [readAll_eq_returning_iff]
  exact ⟨fun found => (Layout.write_of_read found).2, fun fits => Layout.read_write record fits rest⟩

/-- Where fields are cut short, the reads return what was written up to the field that is cut, and the
read of that one lacks octets. -/
theorem readAll_cut (record : String) (fits : layout.Fits values)
    (parts : layout.write values = front ++ tail) (missing : tail ≠ []) :
    ∃ earlier kind value later needed left others,
      layout.returning values = earlier ++ ⟨kind, .ok value⟩ :: later ∧
        (readAll ⟨record, front⟩ layout).1 =
          earlier ++ ⟨kind, .error (.wire (.fieldTruncated record needed left))⟩ :: others := by
  induction layout generalizing front with
  | nil => exact absurd (List.append_eq_nil_iff.mp parts.symm).2 missing
  | cons kind layout ih =>
      obtain ⟨value, values⟩ := values
      -- A cut behind the first field leaves its read whole; a cut within it makes that read fail.
      rcases cut_cases parts with ⟨start, rfl, behind⟩ | ⟨lacking, first, some⟩
      · obtain ⟨earlier, cutKind, cutValue, later, needed, left, others, written, reads⟩ :=
          ih fits.2 behind
        refine ⟨⟨kind, .ok value⟩ :: earlier, cutKind, cutValue, later, needed, left, others, ?_, ?_⟩
        · rw [Layout.returning, written, List.cons_append]
        · rw [readAll_cons (next_of_read_ok (FieldKind.read_write record fits.1 start)), reads,
            List.cons_append]
      · have short : (kind.read record front).IsShort record := FieldKind.read_cut fits.1 first some
        obtain ⟨needed, left, rest, failed⟩ := short
        rw [readAll_cons (next_of_read_error failed)]
        exact ⟨[], kind, value, Layout.returning layout values, needed, left, _, rfl, rfl⟩

/-- The fields of any layout are read back one by one, each with the value that was written, and exactly
what follows them is left; so the reader may finish just if nothing follows. Where what was written is
cut short, at whatever octet, some read fails for want of octets, which is a violation by the sender,
and every read before it returns the value that was written. A layout may name any kinds, in any order
and number; a moment is any count of the calendar's range, and the length of a text or blob is one that
four octets count. -/
theorem fields_read_back (record : String) {layout : Layout} {values : layout.Values}
    (fits : layout.Fits values) :
    (∀ following, ∃ reader,
      readAll ⟨record, layout.write values ++ following⟩ layout = (layout.returning values, reader) ∧
        reader.rest = following ∧ (reader.finish = .ok () ↔ following = [])) ∧
    ∀ cut < (layout.write values).length,
      ∃ earlier kind value later needed left others,
        layout.returning values = earlier ++ ⟨kind, .ok value⟩ :: later ∧
          (readAll ⟨record, (layout.write values).take cut⟩ layout).1 =
            earlier ++ ⟨kind, .error (.wire (.fieldTruncated record needed left))⟩ :: others := by
  constructor
  · intro following
    exact ⟨⟨record, following⟩, readAll_write_append_iff.mpr fits, rfl, finish_eq_ok_iff⟩
  · intro cut short
    have missing : (layout.write values).drop cut ≠ [] := by simpa using short
    exact readAll_cut record fits (List.take_append_drop cut _).symm missing

def everyKind : Layout :=
  [.byte, .word32, .word64, .signed, .time, .time, .text, .blob, .text]

/-- Ends of ranges, a moment before 1970, a text with more octets than characters and a blob that is no
text. -/
def rangeEnds : everyKind.Values :=
  (255, 4294967295, 18446744073709551615, Int64.minValue, ⟨-1, false, by decide⟩,
    ⟨Timestamp.maxMillis, false, by decide⟩, "users/Ä", [0xff, 0xfe], "", ())

/-- Followed by an octet, and cut within the last character of the first text. -/
theorem fields_read_back_rangeEnds :
    everyKind.Fits rangeEnds ∧
      (∃ reader,
        readAll ⟨"profile", everyKind.write rangeEnds ++ [7]⟩ everyKind =
            (everyKind.returning rangeEnds, reader) ∧
          reader.rest = [7] ∧ (reader.finish = .ok () ↔ [7] = ([] : Bytes))) ∧
      48 < (everyKind.write rangeEnds).length ∧
      ∃ earlier kind value later needed left others,
        everyKind.returning rangeEnds = earlier ++ ⟨kind, .ok value⟩ :: later ∧
          (readAll ⟨"profile", (everyKind.write rangeEnds).take 48⟩ everyKind).1 =
            earlier ++ ⟨kind, .error (.wire (.fieldTruncated "profile" needed left))⟩ :: others := by
  have fits : everyKind.Fits rangeEnds := by decide +kernel
  have short : 48 < (everyKind.write rangeEnds).length := by decide +kernel
  have reads := fields_read_back "profile" fits
  exact ⟨fits, reads.1 [7], short, reads.2 48 short⟩

end FieldReader

end DocumentReplication
