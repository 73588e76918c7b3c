import BeatPatch.Proofs.Instructions
import BeatPatch.Proofs.Traps

/-!
# Reading without traps

Patches are read here with their offsets in words and with each operation as a machine executes it.
A reading on a patch that is held in memory never traps, and does what the total reading does
(`Mirrors`). Each instruction takes at least a byte, held or not, so that a loop over them ends
(`readInstruction_rest_lt`).
-/

namespace BeatPatch.Trapping

variable {α β : Type}

/-! ## Cursors -/

/-- The rest of a patch and the offset at which it starts, as a word. -/
structure Cursor where
  position : UInt64
  rest : Bytes
deriving DecidableEq, Repr

/-- The same reader without the bound on its offset. -/
def Cursor.reader (c : Cursor) : Reader := ⟨c.position.toNat, c.rest⟩

/-- The patch ends before the first offset that no signed word holds, as every buffer does. -/
def Cursor.Held (c : Cursor) : Prop := c.position.toNat + c.rest.length < offsetBound

/-- A cursor at the start of a patch. -/
def Cursor.start (patch : Bytes) : Cursor := ⟨0, patch⟩

theorem Cursor.held_start {patch : Bytes} (held : patch.length < offsetBound) :
    (start patch).Held := by
  show 0 + patch.length < offsetBound
  omega

/-- An action on a cursor that may trap. -/
abbrev Reading (α : Type) := StateT Cursor Trapping α

/-- Where the total reading leaves the cursor. -/
def resume : EStateM.Result PatchError Reader α → Trapping (α × Cursor)
  | .ok a r => .ok (a, ⟨UInt64.ofNat r.offset, r.rest⟩)
  | .error e _ => fail e

/-- On patches that are held, the first reading never traps and does what the second does, which
goes forward in the patch. -/
structure Mirrors (x : Reading α) (y : BeatPatch.Reading α) : Prop where
  result : ∀ c : Cursor, c.Held → x c = resume (y c.reader)
  forward : ∀ c : Cursor, c.Held → ∀ a r, y c.reader = .ok a r → ∃ taken, c.reader.Consumes taken r

/-- The cursor at a reader that a held cursor has reached. -/
theorem Cursor.held_of_consumes {c : Cursor} {taken : Bytes} {r : Reader} (held : c.Held)
    (step : c.reader.Consumes taken r) :
    ∃ c' : Cursor, c' = ⟨UInt64.ofNat r.offset, r.rest⟩ ∧ c'.Held ∧ c'.reader = r := by
  have size := congrArg List.length step.rest
  have moved := step.offset
  simp only [Cursor.reader, List.length_append] at size moved
  have whole : r.offset + r.rest.length < offsetBound := by
    rw [Held] at held
    omega
  have word : (UInt64.ofNat r.offset).toNat = r.offset := toNat_word (by omega)
  refine ⟨_, rfl, ?_, ?_⟩
  · rw [Held, word]
    exact whole
  · rw [Cursor.reader, word]

namespace Mirrors

theorem pure (a : α) : Mirrors (Pure.pure a) (Pure.pure a) where
  result c _ := by
    show Except.ok (a, c) = resume (.ok a c.reader)
    rw [resume, Cursor.reader, UInt64.ofNat_toNat]
  forward _ _ _ _ read := by
    obtain ⟨-, rfl⟩ := Reading.pure_eq_ok_iff.mp read
    exact ⟨[], Reader.consumes_nil_iff.mpr rfl⟩

theorem fail (e : PatchError) :
    Mirrors (throw (.failure e) : Reading α) (throw e : BeatPatch.Reading α) where
  result _ _ := rfl
  forward _ _ _ _ read := nomatch read

theorem bind {x : Reading α} {y : BeatPatch.Reading α} {f : α → Reading β}
    {g : α → BeatPatch.Reading β} (first : Mirrors x y) (next : ∀ a, Mirrors (f a) (g a)) :
    Mirrors (x >>= f) (y >>= g) where
  result c held := by
    show (x c >>= fun p => f p.1 p.2) = _
    rw [first.result c held]
    cases read : y c.reader with
    | ok a r =>
      obtain ⟨taken, step⟩ := first.forward c held a r read
      obtain ⟨c', same, held', rfl⟩ := Cursor.held_of_consumes held step
      rw [Reading.bind_of_ok read, resume, ← same]
      exact (next a).result c' held'
    | error e r =>
      rw [Reading.bind_of_error read]
      rfl
  forward c held b r read := by
    obtain ⟨a, s, opening, rest⟩ := Reading.bind_eq_ok_iff.mp read
    obtain ⟨taken, step⟩ := first.forward c held a s opening
    obtain ⟨c', -, held', rfl⟩ := Cursor.held_of_consumes held step
    obtain ⟨more, others⟩ := (next a).forward c' held' b r rest
    exact ⟨taken ++ more, step.trans others⟩

theorem map {x : Reading α} {y : BeatPatch.Reading α} (reading : Mirrors x y) (f : α → β) :
    Mirrors (f <$> x) (f <$> y) := by
  rw [map_eq_pure_bind, map_eq_pure_bind]
  exact reading.bind fun a => .pure (f a)

/-- A reading that asks where it starts is compared at each cursor with what it goes on with. -/
theorem afterGet {x : Reading α} {f : Reader → BeatPatch.Reading α}
    (goesOn : ∀ c : Cursor, ∃ x' : Reading α, x c = x' c ∧ Mirrors x' (f c.reader)) :
    Mirrors x (get >>= f) where
  result c held := by
    obtain ⟨x', same, mirrors⟩ := goesOn c
    rw [same]
    exact mirrors.result c held
  forward c held := by
    obtain ⟨x', -, mirrors⟩ := goesOn c
    exact mirrors.forward c held

/-- A value that may be a failure, in both readings. -/
theorem lift {x : Trapping α} {y : Except PatchError α} (same : x = report y) :
    Mirrors (liftM x) (MonadExcept.ofExcept y) := by
  subst same
  cases y with
  | ok a => exact .pure a
  | error e => exact .fail e

/-- Two readings refuse alike and otherwise go on alike. -/
theorem refuse {c d : Prop} [Decidable c] [Decidable d] (same : c ↔ d) (e : PatchError)
    {x : Reading α} {y : BeatPatch.Reading α} {f : Unit → Reading α}
    {g : Unit → BeatPatch.Reading α} (otherwise : Mirrors x y) :
    Mirrors (if c then throw (.failure e) >>= f else x) (if d then throw e >>= g else y) := by
  by_cases refused : d
  · rw [if_pos refused, if_pos (same.mpr refused)]
    exact ⟨fun _ _ => rfl, fun _ _ _ _ read => nomatch read⟩
  · rw [if_neg refused, if_neg (mt same.mp refused)]
    exact otherwise

end Mirrors

/-! ## Numbers -/

/-- Adds a byte to a number. That no bit was lost is seen by shifting back. -/
def accumulate (sum : UInt64) (shift : UInt32) (byte : UInt8) : Trapping (Option UInt64) :=
  if 64 ≤ shift then return none
  else do
    let moved := Number.digit byte <<< shift.toUInt64
    let back ← shiftDown moved shift
    if back = Number.digit byte then return Number.add? sum moved else return none

/-- Reads on a number from `position`, as `Number.scan` does. -/
def scan (start : UInt64) (shift : UInt32) (sum position : UInt64) :
    Bytes → Trapping (UInt64 × Cursor)
  | [] => fail (.outside .patch position.toNat 1)
  | byte :: rest => do
    let position ← add position 1
    match ← accumulate sum shift byte with
    | none => fail (.numberOverflow start.toNat)
    | some sum =>
      if Number.isLast byte then return (sum, ⟨position, rest⟩)
      else do
        let shift ← addShift shift 7
        scan start shift sum position rest

/-- Reads a number into a word. -/
def readWord : Reading UInt64 := fun c => scan c.position 0 0 c.position c.rest

/-- The signed number with this unsigned spelling; its magnitude is negated as a signed word. -/
def signed (start word : UInt64) : Trapping Int :=
  if offsetBound ≤ (word >>> 1).toNat then fail (.numberOverflow start.toNat)
  else
    let magnitude := Int64.ofNat (word >>> 1).toNat
    if word &&& 1 = 0 then return magnitude.toInt
    else do
      let negated ← negate magnitude
      return negated.toInt

/-- Reads a signed number. -/
def readSigned : Reading Int := do
  let start := (← get).position
  let word ← readWord
  signed start word

theorem accumulate_eq (sum : UInt64) (shift : UInt32) (byte : UInt8) :
    accumulate sum shift byte = .ok (Number.accumulate? sum shift.toNat byte) := by
  have word : UInt64.ofNat shift.toNat = shift.toUInt64 := by
    rw [← UInt64.toNat_inj]
    simp
  have size : 64 ≤ shift ↔ 64 ≤ shift.toNat := UInt32.le_iff_toNat_le
  unfold accumulate Number.accumulate? Number.shiftUp?
  by_cases large : 64 ≤ shift
  · rw [if_pos large, if_pos (size.mp large)]
    rfl
  · have small : shift < 64 := UInt32.not_le.mp large
    rw [if_neg large, if_neg (mt size.mpr large), word]
    simp only [shiftDown_of_lt small]
    show (if _ then _ else _) = _
    split
    · rfl
    · rfl

/-- The shift stays below 71 bits, since one of 64 or more loses every digit. -/
theorem scan_eq {start : UInt64} {shift : UInt32} {sum position : UInt64} {bytes : Bytes}
    (held : position.toNat + bytes.length < offsetBound) (small : shift.toNat < 71) :
    scan start shift sum position bytes =
      resume (Number.scan start.toNat shift.toNat sum position.toNat bytes) := by
  induction bytes generalizing shift sum position with
  | nil => rfl
  | cons byte rest ih =>
    rw [List.length_cons, offsetBound] at held
    have next : (position + 1).toNat = position.toNat + 1 := by
      rw [UInt64.toNat_add]
      exact Nat.mod_eq_of_lt (by show _ + 1 < _; omega)
    have back : UInt64.ofNat (position.toNat + 1) = position + 1 := by
      rw [← next, UInt64.ofNat_toNat]
    rw [scan, add_of_lt (by show _ + 1 < _; omega), Number.scan]
    show (accumulate sum shift byte >>= _) = _
    rw [accumulate_eq]
    cases grown : Number.accumulate? sum shift.toNat byte with
    | none => rfl
    | some larger =>
      show (if _ then _ else _) = _
      by_cases last : Number.isLast byte = true
      · rw [if_pos last]
        simp only [last, if_true, resume, back]
        rfl
      · have below : shift.toNat < 64 := by
          by_contra large
          rw [Number.accumulate?, Number.shiftUp?, if_pos (Nat.le_of_not_lt large)] at grown
          cases grown
        have later : (shift + 7).toNat = shift.toNat + 7 := by
          rw [UInt32.toNat_add]
          exact Nat.mod_eq_of_lt (by show _ + 7 < _; omega)
        rw [if_neg last, addShift_of_lt (by show _ + 7 < _; omega)]
        show scan start (shift + 7) larger (position + 1) rest = _
        rw [ih (by rw [next, offsetBound]; omega) (by omega), next, later]
        simp only [last]
        rfl

theorem mirrors_readWord : Mirrors readWord Number.readWord where
  result _ held := scan_eq held (by decide)
  forward _ _ _ _ read := ⟨_, Number.readWord_eq_ok_iff.mp read⟩

/-- The magnitude is never negative, so its sign can be changed. -/
theorem signed_eq (start word : UInt64) : signed start word = .ok (Number.signed word) := by
  have half : (word >>> 1).toNat < offsetBound := by
    have := word.toNat_lt
    rw [UInt64.toNat_shiftRight, Nat.shiftRight_eq_div_pow]
    show word.toNat / 2 ^ 1 < 2 ^ 63
    omega
  have magnitude : (Int64.ofNat (word >>> 1).toNat).toInt = (word >>> 1).toNat :=
    Int64.toInt_ofNat_of_lt half
  rw [signed, if_neg (Nat.not_le_of_lt half), Number.signed]
  by_cases even : word &&& 1 = 0
  · simp only [if_pos even, magnitude]
    rfl
  · simp only [if_neg even]
    rw [negate_of_nonneg (by omega), ← Int64.toInt_neg_ofNat_of_le (Nat.le_of_lt half)]
    rfl

theorem readSigned_eq : readSigned = Number.signed <$> readWord := by
  rw [map_eq_pure_bind]
  funext c
  show (readWord >>= fun word => liftM (signed c.position word)) c = _
  simp only [signed_eq]
  rfl

theorem mirrors_readSigned : Mirrors readSigned Number.readSigned := by
  rw [readSigned_eq, Number.readSigned_eq]
  exact mirrors_readWord.map _

/-! ## Bytes and instructions -/

/-- Takes the next `n` bytes; their end is summed up twice, once to check it and once to move. -/
def readBytes (n : UInt64) : Reading Bytes := fun c =>
  match Number.add? c.position n with
  | none => fail (.outside .patch c.position.toNat n.toNat)
  | some ending =>
    if ending.toNat ≤ c.position.toNat + c.rest.length then do
      let position ← add c.position n
      return (c.rest.take n.toNat, ⟨position, c.rest.drop n.toNat⟩)
    else fail (.outside .patch c.position.toNat n.toNat)

/-- Reads what follows the opening number of an instruction. -/
def readPayload (length : UInt64) : Action → Reading Instruction
  | .sourceRead => pure (.sourceRead length.toNat)
  | .targetRead => .targetRead <$> readBytes length
  | .sourceCopy => .sourceCopy length.toNat <$> readSigned
  | .targetCopy => .targetCopy length.toNat <$> readSigned

/-- Reads on behind the opening number of an instruction that starts at `start`. -/
def readBehind (start word : UInt64) : Reading Instruction :=
  match Number.add? (word >>> 2) 1 with
  | none => throw (.failure (.numberOverflow start.toNat))
  | some length => readPayload length (Action.ofWord word.toNat)

/-- Reads an instruction. -/
def readInstruction : Reading Instruction := do
  let start := (← get).position
  let word ← readWord
  readBehind start word

/-- What is taken is left to be read: its end is in the patch, so that no sum leaves its word. -/
theorem readBytes_eq {n : UInt64} {c : Cursor} (held : c.Held) :
    readBytes n c = resume (BeatPatch.readBytes n.toNat c.reader) := by
  have whole : c.position.toNat + c.rest.length < 2 ^ 63 := held
  rcases Nat.lt_or_ge c.rest.length n.toNat with short | enough
  · have refused : resume (BeatPatch.readBytes n.toNat c.reader) =
        fail (.outside .patch c.position.toNat n.toNat) := by
      rw [readBytes_of_lt short]
      rfl
    rw [refused, readBytes, Number.add?_eq]
    by_cases fits : c.position.toNat + n.toNat < Number.bound
    · have ending : (UInt64.ofNat (c.position.toNat + n.toNat)).toNat =
          c.position.toNat + n.toNat := UInt64.toNat_ofNat_of_lt' fits
      rw [if_pos fits]
      exact if_neg (by rw [ending]; omega)
    · rw [if_neg fits]
  · have fits : c.position.toNat + n.toNat < Number.bound := by
      rw [Number.bound_eq]
      omega
    have ending : (UInt64.ofNat (c.position.toNat + n.toNat)).toNat =
        c.position.toNat + n.toNat := UInt64.toNat_ofNat_of_lt' fits
    have moved : UInt64.ofNat (c.position.toNat + n.toNat) = c.position + n := by
      simp
    rw [readBytes_of_le enough, readBytes, Number.add?_eq, if_pos fits]
    show (if _ then _ else _) = _
    rw [if_pos (by rw [ending]; omega), add_of_lt (Number.bound_eq ▸ fits), ← moved]
    rfl

theorem mirrors_readBytes (n : UInt64) : Mirrors (readBytes n) (BeatPatch.readBytes n.toNat) where
  result _ held := readBytes_eq held
  forward _ _ data _ read := ⟨data, (readBytes_eq_ok_iff.mp read).2⟩

theorem mirrors_readPayload (length : UInt64) (action : Action) :
    Mirrors (readPayload length action) (Instruction.readPayload length.toNat action) := by
  cases action with
  | sourceRead => exact .pure _
  | targetRead => exact (mirrors_readBytes length).map _
  | sourceCopy => exact mirrors_readSigned.map _
  | targetCopy => exact mirrors_readSigned.map _

theorem mirrors_readInstruction : Mirrors readInstruction Instruction.read := by
  unfold Instruction.read
  refine .afterGet fun c => ⟨readWord >>= readBehind c.position, rfl, ?_⟩
  refine mirrors_readWord.bind fun word => ?_
  rw [readBehind, Instruction.runLength?]
  cases Number.add? (word >>> 2) 1 with
  | none => exact .fail _
  | some length => exact mirrors_readPayload length _

/-! ## What is left -/

/-- A reading in two steps succeeds if both do. -/
theorem Reading.bind_eq_ok {x : Reading α} {f : α → Reading β} {b : β} {c c' : Cursor}
    (h : (x >>= f) c = .ok (b, c')) : ∃ a s, x c = .ok (a, s) ∧ f a s = .ok (b, c') := by
  obtain ⟨⟨a, s⟩, first, second⟩ := Except.bind_eq_ok_iff.mp h
  exact ⟨a, s, first, second⟩

theorem scan_rest_lt {start sum position word : UInt64} {shift : UInt32} {bytes : Bytes}
    {c : Cursor} (h : scan start shift sum position bytes = .ok (word, c)) :
    c.rest.length < bytes.length := by
  induction bytes generalizing shift sum position with
  | nil => cases h
  | cons byte rest ih =>
    obtain ⟨_, -, h⟩ := Except.bind_eq_ok_iff.mp h
    obtain ⟨grown, -, h⟩ := Except.bind_eq_ok_iff.mp h
    cases grown with
    | none => cases h
    | some larger =>
      dsimp only at h
      split at h
      · cases h
        exact Nat.lt_succ_self _
      · obtain ⟨_, -, h⟩ := Except.bind_eq_ok_iff.mp h
        exact Nat.lt_trans (ih h) (Nat.lt_succ_self _)

theorem readSigned_rest_lt {c c' : Cursor} {move : Int} (h : readSigned c = .ok (move, c')) :
    c'.rest.length < c.rest.length := by
  rw [readSigned_eq, map_eq_pure_bind] at h
  obtain ⟨word, s, read, ended⟩ := Reading.bind_eq_ok h
  cases ended
  exact scan_rest_lt read

theorem readBytes_rest_le {n : UInt64} {c c' : Cursor} {data : Bytes}
    (h : readBytes n c = .ok (data, c')) : c'.rest.length ≤ c.rest.length := by
  unfold readBytes at h
  split at h
  · cases h
  · split at h
    · obtain ⟨_, -, ended⟩ := Except.bind_eq_ok_iff.mp h
      cases ended
      rw [List.length_drop]
      exact Nat.sub_le _ _
    · cases h

theorem readPayload_rest_le {length : UInt64} {action : Action} {i : Instruction} {c c' : Cursor}
    (h : readPayload length action c = .ok (i, c')) : c'.rest.length ≤ c.rest.length := by
  cases action with
  | sourceRead => cases h; exact Nat.le_refl _
  | targetRead =>
    rw [readPayload, map_eq_pure_bind] at h
    obtain ⟨data, s, read, ended⟩ := Reading.bind_eq_ok h
    cases ended
    exact readBytes_rest_le read
  | sourceCopy | targetCopy =>
    rw [readPayload, map_eq_pure_bind] at h
    obtain ⟨move, s, read, ended⟩ := Reading.bind_eq_ok h
    cases ended
    exact Nat.le_of_lt (readSigned_rest_lt read)

/-- Every instruction takes at least one byte of the patch, which is why a loop over them ends. -/
theorem readInstruction_rest_lt {c c' : Cursor} {i : Instruction}
    (h : readInstruction c = .ok (i, c')) : c'.rest.length < c.rest.length := by
  obtain ⟨_, _, got, h⟩ := Reading.bind_eq_ok h
  cases got
  obtain ⟨word, s, read, h⟩ := Reading.bind_eq_ok h
  refine Nat.lt_of_le_of_lt ?_ (scan_rest_lt read)
  cases run : Number.add? (word >>> 2) 1 with
  | none =>
    simp only [readBehind, run] at h
    cases h
  | some length =>
    simp only [readBehind, run] at h
    exact readPayload_rest_le h

end BeatPatch.Trapping
