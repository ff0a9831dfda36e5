import DocumentReplication.Bytes.LittleEndian
import DocumentReplication.Digest.Checksum
import DocumentReplication.Wire.Intake

/-!
Frames: the octet of a kind, the length of the payload in four octets, the payload, and a checksum
over all of these.

`Frame.read_eq_done_iff` says that reading accepts exactly what encoding produces, whatever follows.
-/

namespace DocumentReplication

structure Frame where
  kind : FrameKind
  payload : Bytes
deriving DecidableEq, Repr

namespace Frame

def header (kind : FrameKind) (length : Nat) : Bytes :=
  kind.tag :: LittleEndian.word32 (UInt32.ofNat length)

def encode (frame : Frame) : Bytes :=
  let covered := header frame.kind frame.payload.length ++ frame.payload
  covered ++ LittleEndian.word32 (Crc32.checksum covered)

def readBody (kind : FrameKind) (header : Bytes) (length : Nat) (bytes : Bytes) :
    Intake Bytes Frame :=
  match bytes.split? (length + 4) with
  | none => .starved (.wire (.truncated "frame")) []
  | some (body, rest) =>
    let payload := body.take length
    let stored := LittleEndian.toWord32 (body.drop length)
    let computed := Crc32.checksum (header ++ payload)
    if stored = computed then .done ⟨kind, payload⟩ rest
    else .refused (.wire (.checksumMismatch stored computed)) rest

def read (limit : Nat) (bytes : Bytes) : Intake Bytes Frame :=
  match bytes.split? 5 with
  | none => .starved (.stream .ended) []
  | some (header, rest) =>
    let tag := header.headD 0
    let length := (LittleEndian.toWord32 header.tail).toNat
    match FrameKind.ofTag? tag with
    | none => .refused (.wire (.unknownFrameKind tag)) rest
    | some kind =>
      if limit < length then .refused (.wire (.frameTooLarge length limit)) rest
      else readBody kind header length rest

def expect (kind : FrameKind) (frame : Frame) : Except Fault Frame :=
  if frame.kind = kind then .ok frame
  else .error (.wire (.unexpectedFrame kind frame.kind))

def readKind (kind : FrameKind) (limit : Nat) (bytes : Bytes) : Intake Bytes Bytes :=
  (read limit bytes).check fun frame => (frame.expect kind).map (·.payload)

theorem length_header (kind : FrameKind) (length : Nat) : (header kind length).length = 5 := by
  simp [header]

theorem length_encode (frame : Frame) : frame.encode.length = frame.payload.length + 9 := by
  simp only [encode, List.length_append, length_header, LittleEndian.length_word32]
  omega

theorem readBody_eq_done_iff {kind : FrameKind} {head bytes rest : Bytes} {length : Nat}
    {frame : Frame} :
    readBody kind head length bytes = .done frame rest ↔
      frame.kind = kind ∧ frame.payload.length = length ∧
        bytes = frame.payload ++ LittleEndian.word32 (Crc32.checksum (head ++ frame.payload)) ++
          rest := by
  constructor
  · intro found
    simp only [readBody] at found
    split at found
    · contradiction
    · rename_i body left taken
      obtain ⟨rfl, width⟩ := Bytes.split?_eq_some_iff.mp taken
      split at found
      · rename_i same
        cases found
        have kept : (body.take length).length = length := by simp [width]
        refine ⟨rfl, kept, ?_⟩
        rw [← same, LittleEndian.word32_toWord32 (by simp [width]), List.take_append_drop]
      · contradiction
  · rintro ⟨rfl, rfl, rfl⟩
    have taken : Bytes.split? (frame.payload.length + 4)
        (frame.payload ++ LittleEndian.word32 (Crc32.checksum (head ++ frame.payload)) ++ rest) =
          some (frame.payload ++ LittleEndian.word32 (Crc32.checksum (head ++ frame.payload)),
            rest) :=
      Bytes.split?_eq_some_iff.mpr ⟨rfl, by simp⟩
    simp only [readBody, taken]
    simp

theorem read_eq_done_iff {limit : Nat} {bytes rest : Bytes} {frame : Frame} :
    read limit bytes = .done frame rest ↔
      bytes = frame.encode ++ rest ∧ frame.payload.length ≤ limit ∧
        frame.payload.length < UInt32.size := by
  constructor
  · intro found
    simp only [read] at found
    split at found
    · contradiction
    · rename_i head left taken
      obtain ⟨rfl, width⟩ := Bytes.split?_eq_some_iff.mp taken
      split at found
      · contradiction
      · rename_i kind known
        split at found
        · contradiction
        · rename_i within
          obtain ⟨rfl, length, rfl⟩ := readBody_eq_done_iff.mp found
          obtain ⟨tag, size, rfl⟩ := List.exists_cons_of_length_eq_add_one width
          have four : size.length = 4 := by simpa using width
          simp only [List.tail_cons, List.headD_cons] at length known within
          have same : tag :: size = header frame.kind frame.payload.length := by
            rw [header, length, UInt32.ofNat_toNat, LittleEndian.word32_toWord32 four,
              FrameKind.tag_of_ofTag? known]
          refine ⟨?_, by omega, length ▸ (LittleEndian.toWord32 size).toNat_lt⟩
          rw [encode, ← same]
          simp only [List.append_assoc, List.cons_append]
  · rintro ⟨rfl, within, bound⟩
    have taken : Bytes.split? 5 (frame.encode ++ rest) =
        some (header frame.kind frame.payload.length, frame.payload ++ LittleEndian.word32
          (Crc32.checksum (header frame.kind frame.payload.length ++ frame.payload)) ++ rest) :=
      Bytes.split?_eq_some_iff.mpr
        ⟨by simp only [encode, List.append_assoc], length_header ..⟩
    have length : (LittleEndian.toWord32
        (header frame.kind frame.payload.length).tail).toNat = frame.payload.length := by
      rw [header, List.tail_cons, LittleEndian.toWord32_word32]
      exact UInt32.toNat_ofNat_of_lt' bound
    simp only [read, taken, length, Nat.not_lt.mpr within, if_false]
    simp only [header, List.headD_cons, FrameKind.ofTag?_tag]
    exact readBody_eq_done_iff.mpr ⟨rfl, rfl, rfl⟩

/-- No other frame begins where one begins. -/
theorem encode_append_inj {frame other : Frame} {rest more : Bytes}
    (counted : frame.payload.length < UInt32.size) (otherCounted : other.payload.length < UInt32.size)
    (same : frame.encode ++ rest = other.encode ++ more) : frame = other ∧ rest = more := by
  have one : read UInt32.size (frame.encode ++ rest) = .done frame rest :=
    read_eq_done_iff.mpr ⟨rfl, Nat.le_of_lt counted, counted⟩
  have two : read UInt32.size (frame.encode ++ rest) = .done other more :=
    read_eq_done_iff.mpr ⟨same, Nat.le_of_lt otherCounted, otherCounted⟩
  exact Intake.done.inj (one.symm.trans two)

end Frame

end DocumentReplication
