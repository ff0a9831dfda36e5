import DocumentReplication.Json.Reading

/-!
Documents that settings are read from, whatever they are written in. A record names some of its
fields and leaves the others at their standard values.
-/

namespace DocumentReplication

class SettingsDocument (δ : Type) where
  text? : δ → Option String
  integer? : δ → Option Int
  flag? : δ → Option Bool
  list? : δ → Option (List δ)
  fields? : List String → δ → Option (List (Option δ))

instance : SettingsDocument Json where
  text? := Json.toString?
  integer? := Json.toInt?
  flag? := Json.toBool?
  list? := Json.toList?
  fields? names := Json.toFields? (names.map fun name => ⟨name, true⟩)

namespace SettingsDocument

variable {δ α : Type} [SettingsDocument δ]

/-- The value of a field, which must be right where it is given. -/
def setting (read : δ → Option α) (standard : α) : Option δ → Option α
  | none => some standard
  | some document => read document

/-- Counts, sizes and lengths of time fit into 64 bits. -/
def natural? (document : δ) : Option Nat := do
  let value ← integer? document
  if 0 ≤ value ∧ value < UInt64.size then some value.toNat else none

def texts? (document : δ) : Option (List String) := do
  (← list? document).mapM text?

end SettingsDocument

end DocumentReplication
