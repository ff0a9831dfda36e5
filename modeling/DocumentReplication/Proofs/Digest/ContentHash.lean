import Mathlib.Data.List.GetD
import Mathlib.Data.List.Nodup
import DocumentReplication.Proofs.Time.InternetDate
import DocumentReplication.Store.Partition

/-!
Content hashes tell the digests they stand for. They all have the same length, so a store keeps them as
they are, and none of them is what a long key is kept under.
-/

namespace DocumentReplication

namespace Base64

theorem length_encode (bytes : Bytes) :
    (Base64.encode bytes).length = (bytes.length + 2) / 3 * 4 := by
  induction bytes using Base64.encode.induct with
  | case1 a b c rest ih =>
      simp only [Base64.encode, List.length_cons, ih]
      omega
  | case2 a b => simp [Base64.encode]
  | case3 a => simp [Base64.encode]
  | case4 => rfl

theorem nodup_alphabet : alphabet.Nodup := by decide +kernel

/-- A symbol tells its six bits. -/
theorem symbol_inj {first last : Nat} : symbol first = symbol last ↔ first % 64 = last % 64 := by
  have inside (bits : Nat) : bits % 64 < alphabet.length := Nat.mod_lt bits (by decide)
  have listed (bits : Nat) : symbol bits = alphabet.get ⟨bits % 64, inside bits⟩ :=
    List.getD_eq_getElem _ _ (inside bits)
  rw [listed, listed, List.Nodup.get_inj_iff nodup_alphabet, Fin.mk.injEq]

/-- Octets of the same number have the same text only if they are the same. -/
theorem encode_inj {first last : Bytes} (length : first.length = last.length)
    (same : encode first = encode last) : first = last := by
  induction first using encode.induct generalizing last with
  | case1 a b c rest ih =>
      match last, length with
      | x :: y :: z :: others, length =>
        simp only [encode, List.cons.injEq, symbol_inj] at same
        obtain ⟨one, two, three, four, same⟩ := same
        rw [ih (by simpa using length) same]
        simp only [List.cons.injEq, and_true, ← UInt8.toNat_inj]
        have := a.toNat_lt
        have := b.toNat_lt
        have := c.toNat_lt
        have := x.toNat_lt
        have := y.toNat_lt
        have := z.toNat_lt
        omega
  | case2 a b =>
      match last, length with
      | [x, y], _ =>
        simp only [encode, List.cons.injEq, symbol_inj, and_true] at same
        simp only [List.cons.injEq, and_true, ← UInt8.toNat_inj]
        have := a.toNat_lt
        have := b.toNat_lt
        have := x.toNat_lt
        have := y.toNat_lt
        omega
  | case3 a =>
      match last, length with
      | [x], _ =>
        simp only [encode, List.cons.injEq, symbol_inj, and_true] at same
        simp only [List.cons.injEq, and_true, ← UInt8.toNat_inj]
        have := a.toNat_lt
        have := x.toNat_lt
        omega
  | case4 =>
      match last, length with
      | [], _ => rfl

end Base64

theorem length_digest (message : Bytes) : (Sha256.digest message).length = 32 := rfl

theorem length_contentHash (payload : Bytes) : (contentHash payload).length = 44 := by
  rw [contentHash, String.length_ofList, Base64.length_encode, length_digest]

/-- Equal hashes stand for equal digests. -/
theorem digest_eq_of_contentHash {first last : Bytes} (same : contentHash first = contentHash last) :
    Sha256.digest first = Sha256.digest last :=
  Base64.encode_inj (by rw [length_digest, length_digest]) (String.ofList_inj.mp same)

theorem length_utf8_contentHash_le (payload : Bytes) :
    (Text.utf8 (contentHash payload)).length ≤ 176 := by
  have characters := Text.length_utf8_ofList_le (Base64.encode (Sha256.digest payload))
  have few := length_contentHash payload
  rw [contentHash, String.length_ofList] at few
  rwa [few] at characters

namespace Backend

theorem storedKey_contentHash (backend : Backend) (payload : Bytes) :
    backend.storedKey (contentHash payload) = contentHash payload := by
  cases backend with
  | memory => rfl
  | mapped =>
      have short : (contentHash payload).utf8ByteSize ≤ maxKeySize :=
        Nat.le_trans (length_utf8_contentHash_le payload) (by decide)
      rw [storedKey, if_pos short]

theorem eq_of_storedKey {backend : Backend} {key : String} {payload : Bytes}
    (same : backend.storedKey key = contentHash payload) : key = contentHash payload := by
  unfold storedKey at same
  split at same
  · exact same
  · split at same
    · exact same
    · have lengths := congrArg String.length same
      rw [String.length_append, length_contentHash, length_contentHash] at lengths
      contradiction

theorem checkKey_contentHash (backend : Backend) (payload : Bytes) :
    backend.checkKey (contentHash payload) = .ok () := by
  have something : (contentHash payload).isEmpty = false := by
    rw [← Bool.not_eq_true, String.isEmpty_iff]
    intro empty
    have length := length_contentHash payload
    rw [empty] at length
    contradiction
  rw [checkKey, something, if_neg (by simp)]

end Backend

end DocumentReplication
