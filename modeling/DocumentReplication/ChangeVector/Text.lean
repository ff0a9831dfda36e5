import DocumentReplication.ChangeVector
import DocumentReplication.Text.Split

/-!
The text form of change vectors: tokens `TAG:ETAG-INSTANCE`, separated by a comma and a blank.
Reading also takes leading zeros and any blanks around a token.

A text that an operation would not change is not read, or not written again: the answer `none` says
that it stands as it is.
-/

namespace DocumentReplication

open Text

namespace VectorEntry

def write (entry : VectorEntry) : List Char :=
  entry.tag.toList ++ ':' :: Decimal.signed entry.etag.toInt ++ '-' :: entry.instanceId.toList

/-- Etags are written without a sign and fit into a signed word of 64 bits. -/
def read (token : List Char) : Except VectorFault VectorEntry :=
  match cut? ':' token with
  | none => .error (.noColon (String.ofList token))
  | some (tag, rest) =>
    match cut? '-' rest with
    | none => .error (.noDash (String.ofList token))
    | some (etag, instanceId) =>
      if tag.isEmpty || instanceId.isEmpty then .error (.emptyPart (String.ofList token))
      else match Decimal.value? etag with
        | none => .error (.badEtag (String.ofList token))
        | some size =>
          if size < 0x8000000000000000 then
            .ok ⟨String.ofList tag, Int64.ofNat size, String.ofList instanceId⟩
          else .error (.etagTooLarge (String.ofList token))

end VectorEntry

namespace ChangeVector

def joinTokens : List (List Char) → List Char
  | [] => []
  | [token] => token
  | token :: rest => token ++ ',' :: ' ' :: joinTokens rest

def write (vector : ChangeVector) : List Char :=
  joinTokens (vector.entries.map VectorEntry.write)

def text (vector : ChangeVector) : String :=
  String.ofList vector.write

def readToken (token : List Char) : Except VectorFault VectorEntry :=
  let token := trim token
  if token.isEmpty then .error .emptyToken else VectorEntry.read token

/-- A blank text is the empty vector. -/
def read (text : List Char) : Except VectorFault ChangeVector :=
  let text := trim text
  if text.isEmpty then .ok empty
  else (pieces ',' text).mapM readToken >>= ofEntries

def ofText (text : String) : Except VectorFault ChangeVector :=
  read text.toList

def parse (text : String) : Except Fault ChangeVector :=
  match ofText text with
  | .ok vector => .ok vector
  | .error fault => .error (.vector fault)

def mentions (needle : List Char) : List Char → Bool
  | [] => needle.isEmpty
  | c :: rest => needle.isPrefixOf (c :: rest) || mentions needle rest

def stripText (text : String) : Except VectorFault (Option String) :=
  if mentions VectorEntry.transactionTag.toList text.toList then do
    let vector ← ofText text
    let stripped := vector.withoutTransactional
    return if stripped.entries.length = vector.entries.length then none else some stripped.text
  else .ok none

/-- The text without the entries of some instances, and how many there were. -/
def removeText (ignored : List String) (text : String) :
    Except VectorFault (Option String × Nat) :=
  if ignored.isEmpty || text.isEmpty then .ok (none, 0)
  else do
    let vector ← ofText text
    let removed := vector.countIn ignored
    return if removed = 0 then (none, 0) else (some (vector.without ignored).text, removed)

end ChangeVector

end DocumentReplication
