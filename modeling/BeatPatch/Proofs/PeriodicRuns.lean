import BeatPatch.Proofs.Refinement
import BeatPatch.Proofs.Results

/-!
# Runs that repeat themselves

A copy of the output may read what it has itself written. It reads one byte at a time, so that the
bytes between its start and the output position are repeated as often as the run is long; a copy
that starts at the output position or behind it reads what is there before anything is written over
it (`getElem?_copyWithin`). Nothing outside the run changes.
-/

namespace BeatPatch.Machine

/-! ## Bytes -/

section Bytes

variable {target : Array UInt8} {start position n : Nat}

/-- A copy leaves alone what lies outside its run. -/
theorem getElem?_copyWithin_of_outside {j : Nat} (outside : j < position ∨ position + n ≤ j) :
    (copyWithin target start position n)[j]? = target[j]? := by
  induction n generalizing target start position with
  | zero => rfl
  | succ n ih =>
    rw [copyWithin, ih (by omega), Array.getElem?_setIfInBounds_ne (by omega)]

/-- The next byte of a repeated block: the one behind the last, or the first again. -/
theorem succ_mod_eq (i d : Nat) : (i + 1) % d = if i % d + 1 = d then 0 else i % d + 1 := by
  rw [← Nat.mod_add_mod]
  rcases Nat.eq_zero_or_pos d with rfl | positive
  · simp
  · have low := Nat.mod_lt i positive
    split
    · rename_i wraps
      rw [wraps, Nat.mod_self]
    · exact Nat.mod_eq_of_lt (by omega)

/-- A byte of a copy comes from the block between its start and the output position, which is
repeated. There is no such block if the copy starts at that position or behind it: the remainder by
zero then leaves the distance as it is. -/
theorem getElem?_copyWithin {i : Nat} (inside : i < n) (readable : start + n ≤ target.size)
    (writable : position + n ≤ target.size) :
    (copyWithin target start position n)[position + i]? =
      target[start + i % (position - start)]? := by
  induction n generalizing target start position i with
  | zero => omega
  | succ n ih =>
    have first : (target.setIfInBounds position (target.getD start 0))[position]? =
        target[start]? := by
      have here : start < target.size := by omega
      rw [Array.getElem?_setIfInBounds_self_of_lt (by omega), Array.getElem?_eq_getElem here,
        Array.getD_eq_getD_getElem?, Array.getElem?_eq_getElem here, Option.getD_some]
    rw [copyWithin]
    cases i with
    | zero =>
      rw [getElem?_copyWithin_of_outside (by omega), Nat.add_zero, first, Nat.zero_mod,
        Nat.add_zero]
    | succ i =>
      have copied := @ih (target.setIfInBounds position (target.getD start 0)) (start + 1)
        (position + 1) i (by omega) (by rw [Array.size_setIfInBounds]; omega)
        (by rw [Array.size_setIfInBounds]; omega)
      have distance : position + 1 - (start + 1) = position - start := by omega
      have there : position + (i + 1) = position + 1 + i := by omega
      rw [there, copied, distance, succ_mod_eq]
      by_cases wraps : i % (position - start) + 1 = position - start
      · have back : start + 1 + i % (position - start) = position := by omega
        rw [if_pos wraps, back, first, Nat.add_zero]
      · have on : start + 1 + i % (position - start) = start + (i % (position - start) + 1) := by
          omega
        have other : position ≠ start + (i % (position - start) + 1) := by omega
        rw [if_neg wraps, on, Array.getElem?_setIfInBounds_ne other]

end Bytes

/-! ## Instructions -/

theorem moveCursor_eq_ok_iff {buffer : Buffer} {cursor : Int64} {move : Int} {length start : Nat} :
    moveCursor buffer cursor move length = .ok start ↔
      cursor.toInt + move = start ∧ start < offsetBound := by
  have signed := @isOffset_iff (cursor.toInt + move)
  unfold moveCursor
  dsimp only
  split
  · rename_i beyond
    rw [Bool.not_eq_true', ← Bool.not_eq_true, signed] at beyond
    refine iff_of_false nofun ?_
    rintro ⟨moved, small⟩
    omega
  · rename_i within
    rw [Bool.not_eq_true', Bool.not_eq_false, signed] at within
    split
    · refine iff_of_false nofun ?_
      rintro ⟨moved, -⟩
      omega
    · rw [Except.ok.injEq]
      omega

/-- A copy of the output is executed if its run lies in the target where it is read and where it is
written. -/
theorem execute_targetCopy_eq_ok_iff {source : Array UInt8} {m m' : Machine} {n : Nat}
    {move : Int} :
    execute source m (.targetCopy n move) = .ok m' ↔
      ∃ start : Nat, (m.targetCursor.toInt + move = start ∧ start < offsetBound) ∧
        start + n ≤ m.target.size ∧ m.output.toNat + n ≤ m.target.size ∧
        m' = ⟨copyWithin m.target start m.output.toNat n, outputAfter m.output n, m.sourceCursor,
          cursorAfter start n⟩ := by
  obtain ⟨target, output, sourceCursor, targetCursor⟩ := m
  simp only [execute, Except.bind_eq_ok_iff, checkRange_eq_ok_iff, moveCursor_eq_ok_iff]
  constructor
  · rintro ⟨start, moved, -, readable, -, writable, ends⟩
    cases ends
    exact ⟨start, moved, readable, writable, rfl⟩
  · rintro ⟨start, moved, readable, writable, rfl⟩
    exact ⟨start, moved, (), readable, (), writable, rfl⟩

/-- A copy of the output that is executed repeats the bytes between its start and the output
position over its run. If it starts at that position or behind it, where nothing is written yet, its
run is zero. Nothing else of the target changes, and the output position and the cursor end up
behind their runs; in a target that can be held, neither wraps. -/
theorem periodic_of_targetCopy {source : Array UInt8} {m m' : Machine} {n : Nat} {move : Int}
    (executed : execute source m (.targetCopy n move) = .ok m') :
    ∃ s : Nat, m.targetCursor.toInt + move = s ∧
      let o := m.output.toNat
      (s < o → ∀ i < n, ∃ byte, m.target[s + i % (o - s)]? = some byte ∧
        m'.target[o + i]? = some byte) ∧
      (o ≤ s → (∀ j byte, o ≤ j → m.target[j]? = some byte → byte = 0) →
        ∀ i < n, m'.target[o + i]? = some 0) ∧
      (∀ j, j < o ∨ o + n ≤ j → m'.target[j]? = m.target[j]?) ∧
      m'.target.size = m.target.size ∧ m'.sourceCursor = m.sourceCursor ∧
      (m.target.size < offsetBound →
        m'.output.toNat = o + n ∧ m'.targetCursor.toInt = (s + n : Nat)) := by
  obtain ⟨s, ⟨moved, -⟩, readable, writable, rfl⟩ := execute_targetCopy_eq_ok_iff.mp executed
  refine ⟨s, moved, ?_⟩
  intro o
  have copied {i : Nat} (inside : i < n) :
      (copyWithin m.target s o n)[o + i]? = m.target[s + i % (o - s)]? :=
    getElem?_copyWithin inside readable writable
  refine ⟨?_, ?_, ?_, size_copyWithin .., rfl, ?_⟩
  · intro overlaps i inside
    have block := Nat.mod_lt i (Nat.sub_pos_of_lt overlaps)
    have here : s + i % (o - s) < m.target.size := by omega
    have byte := Array.getElem?_eq_getElem here
    exact ⟨_, byte, (copied inside).trans byte⟩
  · intro ahead blank i inside
    have none : o - s = 0 := Nat.sub_eq_zero_of_le ahead
    have here : s + i < m.target.size := by omega
    have zero := blank (s + i) m.target[s + i] (by omega) (Array.getElem?_eq_getElem here)
    have same := copied inside
    rw [none, Nat.mod_zero, Array.getElem?_eq_getElem here, zero] at same
    exact same
  · intro j outside
    exact getElem?_copyWithin_of_outside outside
  · intro held
    exact ⟨toNat_outputAfter held writable, toInt_cursorAfter held readable⟩

/-- Three bytes are written. A copy from the second of them repeats two, and one from behind them
gives zeros. -/
theorem periodic_of_targetCopy_three :
    let m : Machine := ⟨#[0x61, 0x62, 0x63, 0, 0, 0, 0, 0], 3, 0, 2⟩
    (∃ m', execute #[] m (.targetCopy 4 (-1)) = .ok m' ∧
      (∀ i < 4, ∃ byte, m.target[1 + i % 2]? = some byte ∧ m'.target[3 + i]? = some byte) ∧
      m'.target[7]? = some 0 ∧ m'.output.toNat = 7 ∧ m'.targetCursor.toInt = 5) ∧
    ∃ m', execute #[] m (.targetCopy 3 2) = .ok m' ∧ ∀ i < 3, m'.target[3 + i]? = some 0 := by
  intro m
  constructor
  · refine ⟨_, rfl, ?_⟩
    obtain ⟨s, moved, repeats, -, kept, -, -, ends⟩ := @periodic_of_targetCopy #[] m _ 4 (-1) rfl
    obtain rfl : 1 = s := Int.ofNat.inj moved
    obtain ⟨output, cursor⟩ := ends (by decide)
    exact ⟨repeats (by decide), kept 7 (.inr (by decide)), output, cursor⟩
  · refine ⟨_, rfl, ?_⟩
    obtain ⟨s, moved, -, ahead, -⟩ := @periodic_of_targetCopy #[] m _ 3 2 rfl
    obtain rfl : 4 = s := Int.ofNat.inj moved
    apply ahead (by decide)
    intro j byte behind here
    have zeros : ∀ k < 8, 3 ≤ k → m.target[k]? = some 0 := by decide
    have inside : j < 8 := (Array.getElem?_eq_some_iff.mp here).1
    exact (Option.some.inj ((zeros j inside behind).symm.trans here)).symm

end BeatPatch.Machine
