import DocumentReplication.Wire.Spool

/-!
The file behind a spool. A payload is copied in chunks to where the octets that count end. What a copy
that broke off has left there does not count, and the next one writes over it. Reading moves the same
cursor as writing, so both put it in place first.

`Spool` is what a reader can tell of it.
-/

namespace DocumentReplication

/-- A file that is open for reading and writing. -/
structure OpenFile where
  content : Bytes
  cursor : Nat
deriving DecidableEq, Repr

namespace OpenFile

def fresh : OpenFile := ⟨[], 0⟩

def seek (position : Nat) (file : OpenFile) : OpenFile :=
  { file with cursor := position }

/-- Writes over what is at the cursor. Beyond the end of the file there are zeros up to it. -/
def write (bytes : Bytes) (file : OpenFile) : OpenFile :=
  let front := (file.content.rightpad file.cursor 0).take file.cursor
  ⟨front ++ bytes ++ file.content.drop (file.cursor + bytes.length), file.cursor + bytes.length⟩

def read (count : Nat) (file : OpenFile) : Except Fault Bytes × OpenFile :=
  match Bytes.split? count (file.content.drop file.cursor) with
  | some (taken, _) => (.ok taken, file.seek (file.cursor + count))
  | none => (.error (.stream .ended), file.seek file.content.length)

def clear (file : OpenFile) : OpenFile :=
  { file with content := [] }

end OpenFile

structure SpoolFile where
  file : OpenFile
  /-- How many octets of the file count. -/
  length : Nat
deriving DecidableEq, Repr

namespace SpoolFile

def fresh : SpoolFile := ⟨.fresh, 0⟩

def chunkSize : Nat := 64 * 1024

/-- Copies what remains of a payload from a stream, and tells all that was copied of it. -/
def copy (remaining : Nat) (copied : Bytes) (file : OpenFile) (bytes : Bytes) :
    Intake (OpenFile × Bytes) Bytes :=
  if remaining = 0 then .done copied (file, bytes)
  else match bytes.split? (min chunkSize remaining) with
    | none => .starved (.wire (.truncated "attachment stream")) (file, [])
    | some (chunk, rest) =>
      copy (remaining - min chunkSize remaining) (copied ++ chunk) (file.write chunk) rest
termination_by remaining
decreasing_by
  rw [chunkSize]
  omega

def accept (limit : Nat) (descriptor : PayloadDescriptor) (spool : SpoolFile) (bytes : Bytes) :
    Intake (SpoolFile × Bytes) SpooledPayload :=
  let length := descriptor.length.toNat
  if limit < length then
    .refused (.wire (.attachmentTooLarge descriptor.hash length limit)) (spool, bytes)
  else
    let copying := (copy length [] (spool.file.seek spool.length) bytes).lift
      fun (file, rest) => ({ spool with file := file }, rest)
    copying.andThen fun payload (spool, rest) =>
      let grown := { spool with length := spool.length + length }
      let computed := contentHash payload
      if computed = descriptor.hash then .done ⟨computed, spool.length, length⟩ (grown, rest)
      else .refused (.wire (.contentMismatch descriptor.hash computed)) (grown, rest)

def read (spool : SpoolFile) (payload : SpooledPayload) : Except Fault Bytes × SpoolFile :=
  if spool.length < payload.offset + payload.length then
    (.error (.internal (.payloadOutsideSpool payload.hash payload.offset payload.length
      spool.length)), spool)
  else
    let (content, file) := (spool.file.seek payload.offset).read payload.length
    (content, { spool with file := file })

def reset (spool : SpoolFile) : SpoolFile :=
  if spool.length = 0 then spool else ⟨spool.file.clear.seek 0, 0⟩

end SpoolFile

end DocumentReplication
