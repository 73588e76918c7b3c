import BeatPatch.Proofs.Gate
import BeatPatch.Proofs.Residue

/-!
# Bursts of damage

Damage that is confined to four bytes in a row changes the checksum (`Bytes.Burst.crc32_ne`): four
bytes fill the register, so different ones leave it different, and no bytes behind them undo that.
Hence a sound patch does not stay sound, wherever it is hit, its own checksum included, and a dump
that a patch fits is refused (`detected_of_burst`).
-/

namespace BeatPatch

/-- The byte strings are of one length and differ, but nowhere outside a window of four bytes. -/
structure Bytes.Burst (a b : Bytes) : Prop where
  size : a.length = b.length
  differ : a ≠ b
  window : ∃ start, ∀ i, a[i]? ≠ b[i]? → start ≤ i ∧ i < start + 4

/-- Such strings have the bytes in front of the window and behind it in common. -/
theorem Bytes.Burst.exists_parts {a b : Bytes} (burst : Burst a b) :
    ∃ front x y tail, a = front ++ x ++ tail ∧ b = front ++ y ++ tail ∧
      x.length = y.length ∧ x.length ≤ 4 ∧ x ≠ y := by
  obtain ⟨start, window⟩ := burst.window
  have outside (i : Nat) (out : i < start ∨ start + 4 ≤ i) : a[i]? = b[i]? := by
    by_contra other
    have := window i other
    omega
  -- cut at the ends of the window, wherever these lie, also behind the last byte
  have parts (c : Bytes) :
      c = c.take start ++ (c.drop start).take 4 ++ c.drop (start + 4) := by
    rw [List.append_assoc, ← List.drop_drop, List.take_append_drop, List.take_append_drop]
  have front : b.take start = a.take start := by
    apply List.ext_getElem?
    intro i
    by_cases before : i < start
    · rw [List.getElem?_take_of_lt before, List.getElem?_take_of_lt before, outside i (.inl before)]
    · rw [List.getElem?_take_eq_none (by omega), List.getElem?_take_eq_none (by omega)]
  have tail : b.drop (start + 4) = a.drop (start + 4) := by
    apply List.ext_getElem?
    intro i
    rw [List.getElem?_drop, List.getElem?_drop, outside _ (.inr (Nat.le_add_right ..))]
  refine ⟨a.take start, (a.drop start).take 4, (b.drop start).take 4, a.drop (start + 4), parts a,
    ?_, ?_, List.length_take_le .., fun same => burst.differ ?_⟩
  · rw [← front, ← tail]
    exact parts b
  · simp only [List.length_take, List.length_drop, burst.size]
  · rw [parts a, parts b, front, tail, same]

theorem Bytes.burst_of_parts (front tail : Bytes) {x y : Bytes} (size : x.length = y.length)
    (short : x.length ≤ 4) (differ : x ≠ y) : Burst (front ++ x ++ tail) (front ++ y ++ tail) := by
  have reach : (front ++ x).length = (front ++ y).length := by
    rw [List.length_append, List.length_append, size]
  refine ⟨?_, fun same => ?_, front.length, fun i other => ?_⟩
  · rw [List.length_append, reach, ← List.length_append]
  · exact differ (List.append_cancel_left (List.append_cancel_right same))
  · by_contra outside
    apply other
    by_cases before : i < front.length
    · rw [List.append_assoc, List.append_assoc, List.getElem?_append_left before,
        List.getElem?_append_left before]
    · have behind : (front ++ x).length ≤ i := by
        rw [List.length_append]
        omega
      rw [List.getElem?_append_right behind, List.getElem?_append_right (reach ▸ behind), reach]

namespace Crc32

/-- Up to four bytes can be told from what they leave in the register. With zeros behind them they
are a word, which is added to the register and padded. -/
theorem eq_of_foldl_step {register : UInt32} {x y : Bytes} (size : x.length = y.length)
    (short : x.length ≤ 4) (same : x.foldl step register = y.foldl step register) : x = y := by
  let zeros : Bytes := List.replicate (4 - x.length) 0
  have word {z : Bytes} (size : z.length = x.length) : ∃ w, z ++ zeros = Bytes.ofWord w := by
    apply Bytes.exists_eq_ofWord
    rw [List.length_append, List.length_replicate]
    omega
  obtain ⟨v, left⟩ := word rfl
  obtain ⟨w, right⟩ := word size.symm
  have padded : pad 4 (register ^^^ v) = pad 4 (register ^^^ w) := by
    rw [← foldl_step_ofWord, ← foldl_step_ofWord, ← left, ← right, List.foldl_append,
      List.foldl_append, same]
  have words : v = w := (UInt32.xor_right_inj _).mp (pad_injective 4 padded)
  have whole : x ++ zeros = y ++ zeros := by rw [left, words, right]
  exact List.append_cancel_right whole

end Crc32

theorem Bytes.Burst.crc32_ne {a b : Bytes} (burst : Burst a b) : crc32 a ≠ crc32 b := by
  obtain ⟨front, x, y, tail, rfl, rfl, size, short, differ⟩ := burst.exists_parts
  intro same
  rw [List.append_assoc, List.append_assoc, crc32_append_eq_foldl, crc32_append_eq_foldl,
    UInt32.xor_left_inj, List.foldl_append, List.foldl_append] at same
  -- registers that are the same behind the tail are so behind the window
  exact differ (Crc32.eq_of_foldl_step size short (Crc32.foldl_step_injective tail same))

/-- A patch with a burst in it does not pass the check that it passed without. -/
theorem Patch.verifyPatch_of_burst {bytes altered : Bytes} {p q : Patch}
    (burst : Bytes.Burst bytes altered) (parsed : parse bytes = .ok p)
    (sound : p.verifyPatch = .ok ()) (parsed' : parse altered = .ok q) :
    q.verifyPatch = .error (.checksumMismatch .patch q.footer.patch
      (crc32 (altered.take (altered.length - 4)))) := by
  have unsound : ¬ q.verifyPatch = .ok () := by
    -- otherwise both patches have the residue for their checksum
    intro sound'
    apply burst.crc32_ne
    rw [(verifyPatch_eq_ok_iff_residue parsed).mp sound,
      (verifyPatch_eq_ok_iff_residue parsed').mp sound']
  obtain ⟨same, -, -⟩ := parse_eq_ok_iff.mp parsed'
  rw [verifyPatch, verify_eq_ok_iff, same] at unsound
  rw [verifyPatch, same]
  exact if_neg unsound

/-- A burst changes the checksum. So a patch that is hit by one and is still parsed fails its check
if it passed it before, wherever it was hit, and a dump that is hit by one is refused by every
patch that fits it as it was. -/
theorem detected_of_burst {a b : Bytes} (burst : Bytes.Burst a b) :
    crc32 a ≠ crc32 b ∧
      (∀ p q, Patch.parse a = .ok p → p.verifyPatch = .ok () → Patch.parse b = .ok q →
        q.verifyPatch = .error (.checksumMismatch .patch q.footer.patch
          (crc32 (b.take (b.length - 4))))) ∧
      ∀ patch, Patch.Fits patch a →
        (apply b patch).result = .error (.wrongInputChecksum (crc32 a) (crc32 b)) := by
  refine ⟨burst.crc32_ne, fun p q => Patch.verifyPatch_of_burst burst, fun patch fits => ?_⟩
  exact fits.apply_of_otherChecksum burst.size.symm burst.crc32_ne.symm

/-- The patch that leaves nothing as it is, hit where its last two checksums meet, and a patch that
takes this patch for its dump. -/
theorem detected_of_burst_footer :
    let front := signature ++ [0x80, 0x80, 0x80, 0, 0, 0, 0, 0, 0]
    let sound := front ++ [0, 0, 0x93, 0x1F] ++ [0xD8, 0x5E]
    let damaged := front ++ [0xFF, 0xFF, 0x6C, 0xE0] ++ [0xD8, 0x5E]
    let patch := signature ++ [0x93, 0x80, 0x80, 0x1C, 0xDF, 0x44, 0x21, 0, 0, 0, 0, 0, 0, 0, 0]
    Bytes.Burst sound damaged ∧
      (∃ q, Patch.parse damaged = .ok q ∧
        q.verifyPatch = .error (.checksumMismatch .patch 0x5ED8E06C 0xE0FE0D6C)) ∧
      (apply damaged patch).result = .error (.wrongInputChecksum 0x2144DF1C 0x6F798140) := by
  intro front sound damaged patch
  have burst : Bytes.Burst sound damaged :=
    Bytes.burst_of_parts front [0xD8, 0x5E] rfl (by decide) (by decide)
  let p : Patch := ⟨sound, 0, 0, [], ⟨0, 0, 0x5ED81F93⟩, ⟨7, sound.drop 7⟩⟩
  let q : Patch := ⟨damaged, 0, 0, [], ⟨0, 0xFFFF0000, 0x5ED8E06C⟩, ⟨7, damaged.drop 7⟩⟩
  have parsed : Patch.parse sound = .ok p := by decide
  have parsed' : Patch.parse damaged = .ok q := by decide
  have own : crc32 (sound.take (sound.length - 4)) = 0x5ED81F93 := by
    rw [crc32_eq_foldl]; decide +kernel
  have own' : crc32 (damaged.take (damaged.length - 4)) = 0xE0FE0D6C := by
    rw [crc32_eq_foldl]; decide +kernel
  have sum : crc32 sound = 0x2144DF1C := by rw [crc32_eq_foldl]; decide +kernel
  have sum' : crc32 damaged = 0x6F798140 := by rw [crc32_eq_foldl]; decide +kernel
  have verified : p.verifyPatch = .ok () := Patch.verify_eq_ok_iff.mpr own
  have fits : Patch.Fits patch sound := ⟨by decide +kernel, by rw [sum]; decide⟩
  obtain ⟨-, fails, refuses⟩ := detected_of_burst burst
  have mismatch := fails p q parsed verified parsed'
  have refused := refuses patch fits
  rw [own'] at mismatch
  rw [sum, sum'] at refused
  exact ⟨burst, ⟨q, parsed', mismatch⟩, refused⟩

end BeatPatch
