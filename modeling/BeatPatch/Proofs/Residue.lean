import BeatPatch.Proofs.Checksums
import BeatPatch.Proofs.Headers

/-!
# The residue of CRC-32

Feeding a word to a checksum adds it to the register and pads by four bytes. A byte string that is
followed by its own checksum therefore always leaves the same register, whatever it is, and no
other word in that place does (`crc32_append_ofWord_eq_residue_iff`). So a patch can be checked
without taking its own checksum out of it (`Patch.verifyPatch_eq_ok_iff_residue`).
-/

namespace BeatPatch

namespace Crc32

/-- Only the lowest byte of a word meets the table. The others move down towards it. -/
theorem step_zero_xor (register word : UInt32) :
    step (register ^^^ word) 0 = step register word.toUInt8 ^^^ word >>> 8 := by
  rw [step, step, UInt32.toUInt8_xor, UInt8.xor_zero, UInt32.shiftRight_xor, UInt32.xor_assoc,
    UInt32.xor_comm (word >>> 8), UInt32.xor_assoc]

theorem shiftRight_eight (word : UInt32) :
    word >>> 8 >>> 8 = word >>> 16 ∧ word >>> 16 >>> 8 = word >>> 24 ∧ word >>> 24 >>> 8 = 0 := by
  have := word.toNat_lt
  simp only [← UInt32.toNat_inj, UInt32.toNat_shiftRight, UInt32.reduceToNat, Nat.reduceMod,
    Nat.shiftRight_eq_div_pow, UInt32.toNat_zero]
  omega

/-- To feed the bytes of a word is to add the word to the register and to pad the sum. -/
theorem foldl_step_ofWord (register word : UInt32) :
    (Bytes.ofWord word).foldl step register = pad 4 (register ^^^ word) := by
  obtain ⟨second, third, last⟩ := shiftRight_eight word
  have padded (a : UInt32) : pad 4 a = step (step (step (step a 0) 0) 0) 0 := rfl
  -- byte by byte, from the padding inside to the one outside
  rw [padded, step_zero_xor, step_zero_xor, second, step_zero_xor, third, step_zero_xor, last,
    UInt32.xor_zero]
  rfl

theorem pad_injective (n : Nat) : Function.Injective (pad n) :=
  foldl_step_injective (List.replicate n 0)

/-- The checksum of a byte string with its own checksum behind it. -/
def residue : UInt32 := 0x2144DF1C

theorem pad_fresh : pad 4 fresh.register ^^^ 0xFFFFFFFF = residue := by
  have zeros : crc32 (List.replicate 4 0) = residue := by
    rw [crc32_eq_foldl]
    decide +kernel
  exact zeros

end Crc32

/-- Behind a byte string its checksum leads to the residue, and no other word does: the register
is that of a fresh checksum only if the word has undone all that was added to it. -/
theorem crc32_append_ofWord_eq_residue_iff {bytes : Bytes} {word : UInt32} :
    crc32 (bytes ++ Bytes.ofWord word) = Crc32.residue ↔ crc32 bytes = word := by
  have undone : Crc32.fresh.register ^^^ (crc32 bytes ^^^ word) = Crc32.fresh.register ↔
      crc32 bytes ^^^ word = 0 := by
    conv => lhs; rhs; rw [← UInt32.xor_zero (a := Crc32.fresh.register)]
    exact UInt32.xor_right_inj _
  rw [crc32_append_eq_foldl, Crc32.foldl_step_ofWord, ← Crc32.pad_fresh, UInt32.xor_left_inj,
    (Crc32.pad_injective 4).eq_iff, UInt32.xor_assoc, undone, UInt32.xor_eq_zero_iff]

namespace Patch

/-- The last four bytes of a patch are its own checksum. -/
theorem eq_append_of_parse {bytes : Bytes} {p : Patch} (parsed : parse bytes = .ok p) :
    bytes = bytes.take (bytes.length - 4) ++ Bytes.ofWord p.footer.patch := by
  obtain ⟨-, -, footer⟩ := parse_eq_ok_iff.mp parsed
  have long : 12 ≤ bytes.length := Footer.size_le_of_read footer
  rw [Footer.read_of_le long, Except.ok.injEq] at footer
  have stored : p.footer.patch = bytes.wordAt (bytes.length - 4) := by
    rw [← footer, show bytes.length - Footer.size + 8 = bytes.length - 4 by
      rw [Footer.size]; omega]
  have last : (bytes.drop (bytes.length - 4)).take 4 = bytes.drop (bytes.length - 4) :=
    List.take_of_length_le (by rw [List.length_drop]; omega)
  rw [stored, Bytes.ofWord_wordAt (by omega), last, List.take_append_drop]

theorem verify_eq_ok_iff {what : StoredChecksum} {expected actual : UInt32} :
    verify what expected actual = .ok () ↔ actual = expected := by
  unfold verify
  split <;> simp [*]

/-- The checksum of a patch is that of all bytes in front of it. -/
theorem verifyPatch_eq_ok_iff {bytes : Bytes} {p : Patch} (parsed : parse bytes = .ok p) :
    p.verifyPatch = .ok () ↔ crc32 (bytes.take (bytes.length - 4)) = p.footer.patch := by
  obtain ⟨same, -, -⟩ := parse_eq_ok_iff.mp parsed
  rw [verifyPatch, verify_eq_ok_iff, same]

theorem verifyTarget_eq_ok_iff {p : Patch} {target : Bytes} :
    p.verifyTarget target = .ok () ↔ crc32 target = p.footer.target :=
  verify_eq_ok_iff

theorem verifyPatch_eq_ok_iff_residue {bytes : Bytes} {p : Patch} (parsed : parse bytes = .ok p) :
    p.verifyPatch = .ok () ↔ crc32 bytes = Crc32.residue := by
  conv => rhs; rw [eq_append_of_parse parsed]
  rw [verifyPatch_eq_ok_iff parsed, crc32_append_ofWord_eq_residue_iff]

theorem crc32_withChecksum (bytes : Bytes) : crc32 (withChecksum bytes) = Crc32.residue :=
  crc32_append_ofWord_eq_residue_iff.mpr rfl

/-- A patch that is parsed passes its own check if and only if the checksum of all of it is the
residue, which is so for every patch that is assembled. -/
theorem crc32_eq_residue :
    (∀ {bytes p}, parse bytes = .ok p → (p.verifyPatch = .ok () ↔ crc32 bytes = 0x2144DF1C)) ∧
      ∀ {source metadata target bytes instructions},
        assemble source metadata instructions target = .ok bytes → crc32 bytes = 0x2144DF1C := by
  refine ⟨verifyPatch_eq_ok_iff_residue, fun assembled => ?_⟩
  unfold assemble at assembled
  split at assembled
  · cases assembled
  · cases assembled
    exact crc32_withChecksum _

/-- A patch from the letter `a` to the letter `b`, as it is assembled and with another last byte. -/
theorem crc32_eq_residue_letter :
    let front := signature ++ [0x81, 0x81, 0x81, 0x81, 0x81, 0x62, 0x43, 0xBE, 0xB7, 0xE8, 0xF9,
      0xEF, 0xBE, 0x71, 0x4F, 0x8C, 0xE0]
    assemble [0x61] [0x81] [.targetRead [0x62]] [0x62] = .ok (front ++ [0x9F]) ∧
      crc32 (front ++ [0x9F]) = 0x2144DF1C ∧
      (∃ p, parse (front ++ [0x9F]) = .ok p ∧ p.verifyPatch = .ok ()) ∧
      ∃ p, parse (front ++ [0x9E]) = .ok p ∧ p.verifyPatch ≠ .ok () := by
  intro front
  let sound : Patch := ⟨front ++ [0x9F], 1, 1, [0x81], ⟨0xE8B7BE43, 0x71BEEFF9, 0x9FE08C4F⟩,
    ⟨8, (front ++ [0x9F]).drop 8⟩⟩
  let damaged : Patch := ⟨front ++ [0x9E], 1, 1, [0x81], ⟨0xE8B7BE43, 0x71BEEFF9, 0x9EE08C4F⟩,
    ⟨8, (front ++ [0x9E]).drop 8⟩⟩
  have assembled : assemble [0x61] [0x81] [.targetRead [0x62]] [0x62] =
      .ok (front ++ [0x9F]) := by
    simp only [assemble, withChecksum, crc32_eq_foldl]
    decide +kernel
  have residue := crc32_eq_residue.2 assembled
  have parsed : parse (front ++ [0x9F]) = .ok sound := by decide
  have parsed' : parse (front ++ [0x9E]) = .ok damaged := by decide
  refine ⟨assembled, residue, ⟨sound, parsed, (crc32_eq_residue.1 parsed).mpr residue⟩,
    damaged, parsed', fun verified => ?_⟩
  have residue' := (crc32_eq_residue.1 parsed').mp verified
  rw [crc32_eq_foldl] at residue'
  exact absurd residue' (by decide +kernel)

end Patch

end BeatPatch
