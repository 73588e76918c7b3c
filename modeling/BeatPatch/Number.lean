import BeatPatch.Reader

/-!
# Variable-length numbers

A number is written in bytes of seven bits, the lowest first; the last byte has its high
bit set. Each byte but the last stands for one more than its seven bits at its place, so
that no value has two spellings. A signed number keeps its sign in the lowest bit and its
magnitude above it. Numbers are read into 64-bit words, and one that does not fit is refused
at the first byte that shows it.
-/

namespace BeatPatch.Number

/-- Numbers are below this bound, `2 ^ 64`, the first value that does not fit in 64 bits. -/
def bound : Nat := 0x10000000000000000

/-- The spelling of a number. -/
def encode (n : Nat) : Bytes :=
  if n < 128 then [UInt8.ofNat (n + 128)]
  else UInt8.ofNat (n % 128) :: encode (n / 128 - 1)
termination_by n

/-- The spelling of a signed number; the magnitude is taken in 63 bits. -/
def encodeSigned (i : Int) : Bytes :=
  encode (2 * i.natAbs % bound + if i < 0 then 1 else 0)

/-- What a byte contributes at its place: its seven bits, and 128 more unless it is the last. -/
def digit (byte : UInt8) : UInt64 := (byte ^^^ 0x80).toUInt64

/-- The byte has its high bit set, which ends a number. -/
def isLast (byte : UInt8) : Bool := 0x80 ≤ byte

/-- The word moved up by `shift` bits, unless that loses a bit of it. -/
def shiftUp? (word : UInt64) (shift : Nat) : Option UInt64 :=
  if 64 ≤ shift then none
  else
    let moved := word <<< UInt64.ofNat shift
    if moved >>> UInt64.ofNat shift = word then some moved else none

/-- The sum of two words, unless it takes more than 64 bits. -/
def add? (a b : UInt64) : Option UInt64 :=
  if a.toNat + b.toNat < bound then some (a + b) else none

/-- The sum with the digit of one more byte, counted `shift` bits up, unless it takes more than
64 bits. -/
def accumulate? (sum : UInt64) (shift : Nat) (byte : UInt8) : Option UInt64 :=
  (shiftUp? (digit byte) shift).bind (add? sum)

/-- Reads on from `offset` a number that started at `start`, of which the bytes so far add up
to `sum` and the next counts `shift` bits up. The byte at which the sum no longer fits is
consumed. -/
def scan (start shift : Nat) (sum : UInt64) (offset : Nat) :
    Bytes → EStateM.Result PatchError Reader UInt64
  | [] => .error (.outside .patch offset 1) ⟨offset, []⟩
  | byte :: rest =>
    match accumulate? sum shift byte with
    | none => .error (.numberOverflow start) ⟨offset + 1, rest⟩
    | some sum =>
      if isLast byte then .ok sum ⟨offset + 1, rest⟩
      else scan start (shift + 7) sum (offset + 1) rest

/-- Reads a number into a word. -/
def readWord : Reading UInt64 := fun r => scan r.offset 0 0 r.offset r.rest

/-- Reads a number. -/
def read : Reading Nat := UInt64.toNat <$> readWord

/-- The signed number with this unsigned spelling. -/
def signed (word : UInt64) : Int :=
  if word &&& 1 = 0 then (word >>> 1).toNat else -(word >>> 1).toNat

/-- Reads a signed number; the magnitude has to fit in a signed 64-bit word. -/
def readSigned : Reading Int := do
  let start := (← get).offset
  let word ← readWord
  if offsetBound ≤ (word >>> 1).toNat then throw (.numberOverflow start)
  return signed word

theorem scan_rest_lt {start shift offset : Nat} {sum word : UInt64} {bytes : Bytes} {r : Reader}
    (h : scan start shift sum offset bytes = .ok word r) : r.rest.length < bytes.length := by
  induction bytes generalizing shift sum offset with
  | nil => simp [scan] at h
  | cons byte rest ih =>
    simp only [scan] at h
    split at h
    · cases h
    · split at h
      · cases h; simp
      · exact Nat.lt_trans (ih h) (by simp)

theorem readWord_rest_lt {word : UInt64} {r r' : Reader} (h : readWord r = .ok word r') :
    r'.rest.length < r.rest.length :=
  scan_rest_lt h

theorem read_eq_ok_iff {n : Nat} {r r' : Reader} :
    read r = .ok n r' ↔ ∃ word, readWord r = .ok word r' ∧ word.toNat = n :=
  Reading.map_eq_ok_iff

/-- Half of a word is below `2 ^ 63`. -/
theorem toNat_half_lt (word : UInt64) : (word >>> 1).toNat < offsetBound := by
  have := word.toNat_lt
  rw [offsetBound, UInt64.toNat_shiftRight, Nat.shiftRight_eq_div_pow]
  simp only [UInt64.toNat_ofNat, Nat.reducePow, Nat.reduceMod]
  omega

/-- The magnitude always fits. -/
theorem readSigned_eq : readSigned = signed <$> readWord := by
  funext r
  have got : (get : Reading Reader) r = .ok r r := rfl
  rw [readSigned, Reading.bind_of_ok got]
  cases read : readWord r with
  | ok word s =>
    have fits : ¬ offsetBound ≤ (word >>> 1).toNat := Nat.not_le_of_lt (toNat_half_lt word)
    rw [Reading.bind_of_ok read, Reading.map_of_ok read, if_neg fits]
    rfl
  | error e s => rw [Reading.bind_of_error read, Reading.map_of_error read]

theorem readSigned_eq_ok_iff {i : Int} {r r' : Reader} :
    readSigned r = .ok i r' ↔ ∃ word, readWord r = .ok word r' ∧ signed word = i := by
  rw [readSigned_eq, Reading.map_eq_ok_iff]

end BeatPatch.Number
