/-!
Moments with millisecond resolution, counted from the start of 1970 in universal time.

The count passes over leap seconds: a moment in one counts as much as the moment a second later. A
count alone therefore stands for a moment outside of leap seconds (`ofMillis?`), and only such a
moment is known by its count (`ofMillis?_eq_some_iff`).
-/

namespace DocumentReplication

namespace Timestamp

/-- The first moment of the year -262143. -/
def minMillis : Int := -8334601228800000

/-- The last millisecond of the year 262142, without its leap second. -/
def maxMillis : Int := 8210266876799999

/-- A moment may be in a leap second only if the second before it ends a minute. -/
def Valid (regular : Int) (leap : Bool) : Prop :=
  minMillis ≤ regular ∧ regular ≤ maxMillis ∧ (leap = true → regular / 1000 % 60 = 59)

instance (regular : Int) (leap : Bool) : Decidable (Valid regular leap) := by
  unfold Valid
  infer_instance

end Timestamp

structure Timestamp where
  /-- The count of the moment, or of the moment a second earlier if this one is in a leap second. -/
  regular : Int
  leap : Bool
  valid : Timestamp.Valid regular leap
deriving DecidableEq, Repr

namespace Timestamp

def millis (time : Timestamp) : Int :=
  if time.leap then time.regular + 1000 else time.regular

def of? (regular : Int) (leap : Bool) : Option Timestamp :=
  if valid : Valid regular leap then some ⟨regular, leap, valid⟩ else none

def ofMillis? (millis : Int) : Option Timestamp := of? millis false

theorem of?_eq_some_iff {regular : Int} {leap : Bool} {time : Timestamp} :
    of? regular leap = some time ↔ time.regular = regular ∧ time.leap = leap := by
  simp only [of?]
  constructor
  · intro found
    split at found
    · cases found
      exact ⟨rfl, rfl⟩
    · contradiction
  · rintro ⟨rfl, rfl⟩
    simp [time.valid]

theorem ofMillis?_eq_some_iff {millis : Int} {time : Timestamp} :
    ofMillis? millis = some time ↔ time.leap = false ∧ time.millis = millis := by
  rw [ofMillis?, of?_eq_some_iff, and_comm]
  constructor
  · rintro ⟨outside, same⟩
    simp [Timestamp.millis, outside, same]
  · rintro ⟨outside, same⟩
    simpa [Timestamp.millis, outside] using same

theorem ofMillis?_millis {time : Timestamp} (outside : time.leap = false) :
    ofMillis? time.millis = some time :=
  ofMillis?_eq_some_iff.mpr ⟨outside, rfl⟩

def epoch : Timestamp := ⟨0, false, by decide⟩

instance : Inhabited Timestamp := ⟨epoch⟩

def toSigned (time : Timestamp) : Int64 := Int64.ofInt time.millis

def ofSigned? (millis : Int64) : Option Timestamp := ofMillis? millis.toInt

@[simp] theorem toInt_toSigned (time : Timestamp) : time.toSigned.toInt = time.millis := by
  obtain ⟨lower, upper, -⟩ := time.valid
  simp only [minMillis, maxMillis] at lower upper
  rw [toSigned, millis]
  split <;> exact Int64.toInt_ofInt_of_le (by omega) (by omega)

theorem ofSigned?_toSigned {time : Timestamp} (outside : time.leap = false) :
    ofSigned? time.toSigned = some time := by
  rw [ofSigned?, toInt_toSigned, ofMillis?_millis outside]

theorem leap_of_ofSigned? {millis : Int64} {time : Timestamp}
    (found : ofSigned? millis = some time) : time.leap = false :=
  (ofMillis?_eq_some_iff.mp found).1

theorem toSigned_of_ofSigned? {millis : Int64} {time : Timestamp}
    (found : ofSigned? millis = some time) : time.toSigned = millis := by
  rw [toSigned, (ofMillis?_eq_some_iff.mp found).2, Int64.ofInt_toInt]

end Timestamp

end DocumentReplication
