/-!
Runs of octets, taken apart from the front.
-/

namespace DocumentReplication

abbrev Bytes := List UInt8

namespace Bytes

/-- The first `count` octets and what follows them, when there are that many.
Never walks past `count`, so a long rest costs nothing. -/
def split? (count : Nat) (bytes : Bytes) : Option (Bytes × Bytes) :=
  let taken := bytes.take count
  if taken.length = count then some (taken, bytes.drop count) else none

theorem split?_eq_some_iff {count : Nat} {bytes taken rest : Bytes} :
    split? count bytes = some (taken, rest) ↔ bytes = taken ++ rest ∧ taken.length = count := by
  constructor
  · intro found
    simp only [split?] at found
    split at found
    · rename_i enough
      simp only [Option.some.injEq, Prod.mk.injEq] at found
      obtain ⟨rfl, rfl⟩ := found
      exact ⟨(List.take_append_drop count bytes).symm, enough⟩
    · contradiction
  · rintro ⟨rfl, rfl⟩
    simp [split?]

@[simp] theorem split?_append (taken rest : Bytes) :
    split? taken.length (taken ++ rest) = some (taken, rest) :=
  split?_eq_some_iff.mpr ⟨rfl, rfl⟩

theorem split?_eq_none_iff {count : Nat} {bytes : Bytes} :
    split? count bytes = none ↔ bytes.length < count := by
  simp only [split?, List.length_take]
  split
  · simp only [reduceCtorEq, false_iff, Nat.not_lt]
    omega
  · simp only [true_iff]
    omega

end Bytes

end DocumentReplication
