import DocumentReplication.Wire.Item

/-!
The announcement of an attachment payload: its hash and how many octets follow.
-/

namespace DocumentReplication

structure PayloadDescriptor where
  hash : String
  length : UInt64
deriving DecidableEq, Repr

namespace PayloadDescriptor

def layout : Layout := ItemKind.attachmentStream.layout

def encode (descriptor : PayloadDescriptor) : Bytes :=
  ItemKind.attachmentStream.tag :: layout.write (descriptor.hash, descriptor.length, ())

def decode (bytes : Bytes) : Except WireFault PayloadDescriptor :=
  match bytes with
  | [] => .error (.fieldTruncated ItemKind.attachmentStream.describe 1 0)
  | tag :: rest =>
    match ItemKind.ofTag? tag with
    | none => .error (.unknownItemKind tag)
    | some kind =>
      if kind = .attachmentStream then
        (layout.readWhole ItemKind.attachmentStream.describe rest).map
          fun (hash, length, ()) => ⟨hash, length⟩
      else .error (.notADescriptor kind)

theorem decode_eq_ok_iff {bytes : Bytes} {descriptor : PayloadDescriptor} :
    decode bytes = .ok descriptor ↔
      bytes = descriptor.encode ∧ (Text.utf8 descriptor.hash).length < UInt32.size := by
  constructor
  · intro found
    cases bytes with
    | nil => simp [decode] at found
    | cons tag rest =>
        simp only [decode] at found
        split at found
        · contradiction
        · rename_i kind known
          split at found
          · rename_i same
            cases read : layout.readWhole ItemKind.attachmentStream.describe rest with
            | error fault => simp [read, Except.map] at found
            | ok values =>
                rw [read] at found
                cases found
                obtain ⟨rfl, fits⟩ := (Layout.readWhole_eq_ok_iff _).mp read
                refine ⟨?_, fits.1⟩
                rw [← ItemKind.tag_of_ofTag? known, same]
                rfl
          · contradiction
  · rintro ⟨rfl, bound⟩
    have fits : layout.Fits (descriptor.hash, descriptor.length, ()) := ⟨bound, trivial, trivial⟩
    have read := (Layout.readWhole_eq_ok_iff
      ItemKind.attachmentStream.describe).mpr ⟨rfl, fits⟩
    simp only [encode, decode, ItemKind.ofTag?_tag, if_pos, read, Except.map]

end PayloadDescriptor

/-- A payload among items is written as its announcement. -/
def Item.encode : Item → Bytes
  | .change entry => entry.encode
  | .payload hash content =>
    PayloadDescriptor.encode ⟨hash, UInt64.ofNat content.length⟩

end DocumentReplication
