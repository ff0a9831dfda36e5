import DocumentReplication.Bytes

/-!
Whole numbers as octets, least significant octet first. `toNat_ofNat` and `ofNat_toNat` say that a
width and a number below its bound determine each other.
-/

namespace DocumentReplication.LittleEndian

/-- The low `width` octets of a number. -/
def ofNat : (width : Nat) → Nat → Bytes
  | 0, _ => []
  | width + 1, value => UInt8.ofNat (value % 256) :: ofNat width (value / 256)

/-- How many numbers fit into so many octets. -/
def capacity : (width : Nat) → Nat
  | 0 => 1
  | width + 1 => 256 * capacity width

def toNat : Bytes → Nat
  | [] => 0
  | byte :: rest => byte.toNat + 256 * toNat rest

@[simp] theorem length_ofNat (width value : Nat) : (ofNat width value).length = width := by
  induction width generalizing value with
  | zero => rfl
  | succ width ih => simp [ofNat, ih]

theorem toNat_ofNat_mod (width value : Nat) : toNat (ofNat width value) = value % capacity width := by
  induction width generalizing value with
  | zero => simp [ofNat, toNat, capacity, Nat.mod_one]
  | succ width ih =>
      have low : (UInt8.ofNat (value % 256)).toNat = value % 256 := by
        simp
      rw [ofNat, toNat, ih, low, capacity, Nat.mod_mul]

theorem toNat_ofNat {width value : Nat} (bound : value < capacity width) :
    toNat (ofNat width value) = value := by
  rw [toNat_ofNat_mod, Nat.mod_eq_of_lt bound]

@[simp] theorem ofNat_toNat (bytes : Bytes) : ofNat bytes.length (toNat bytes) = bytes := by
  induction bytes with
  | nil => rfl
  | cons byte rest ih =>
      have small := byte.toNat_lt
      have low : (byte.toNat + 256 * toNat rest) % 256 = byte.toNat := by omega
      have high : (byte.toNat + 256 * toNat rest) / 256 = toNat rest := by omega
      simp [ofNat, toNat, low, high, ih]

theorem toNat_lt (bytes : Bytes) : toNat bytes < capacity bytes.length := by
  induction bytes with
  | nil => simp [toNat, capacity]
  | cons byte rest ih =>
      have small := byte.toNat_lt
      simp only [toNat, List.length_cons, capacity]
      omega

def word32 (value : UInt32) : Bytes := ofNat 4 value.toNat

def word64 (value : UInt64) : Bytes := ofNat 8 value.toNat

def signed64 (value : Int64) : Bytes := word64 value.toUInt64

def toWord32 (bytes : Bytes) : UInt32 := UInt32.ofNat (toNat bytes)

def toWord64 (bytes : Bytes) : UInt64 := UInt64.ofNat (toNat bytes)

def toSigned64 (bytes : Bytes) : Int64 := (toWord64 bytes).toInt64

@[simp] theorem length_word32 (value : UInt32) : (word32 value).length = 4 := length_ofNat ..

@[simp] theorem length_word64 (value : UInt64) : (word64 value).length = 8 := length_ofNat ..

@[simp] theorem length_signed64 (value : Int64) : (signed64 value).length = 8 := length_word64 _

@[simp] theorem toWord32_word32 (value : UInt32) : toWord32 (word32 value) = value := by
  rw [toWord32, word32, toNat_ofNat value.toNat_lt, UInt32.ofNat_toNat]

@[simp] theorem toWord64_word64 (value : UInt64) : toWord64 (word64 value) = value := by
  rw [toWord64, word64, toNat_ofNat value.toNat_lt, UInt64.ofNat_toNat]

@[simp] theorem toSigned64_signed64 (value : Int64) : toSigned64 (signed64 value) = value := by
  simp [toSigned64, signed64]

theorem word32_toWord32 {bytes : Bytes} (width : bytes.length = 4) :
    word32 (toWord32 bytes) = bytes := by
  have bound : toNat bytes < UInt32.size := by simpa [width, capacity] using toNat_lt bytes
  have same := ofNat_toNat bytes
  rw [width] at same
  rw [word32, toWord32, UInt32.toNat_ofNat_of_lt' bound, same]

theorem word64_toWord64 {bytes : Bytes} (width : bytes.length = 8) :
    word64 (toWord64 bytes) = bytes := by
  have bound : toNat bytes < UInt64.size := by simpa [width, capacity] using toNat_lt bytes
  have same := ofNat_toNat bytes
  rw [width] at same
  rw [word64, toWord64, UInt64.toNat_ofNat_of_lt' bound, same]

theorem signed64_toSigned64 {bytes : Bytes} (width : bytes.length = 8) :
    signed64 (toSigned64 bytes) = bytes := by
  simp [signed64, toSigned64, word64_toWord64 width]

end DocumentReplication.LittleEndian
