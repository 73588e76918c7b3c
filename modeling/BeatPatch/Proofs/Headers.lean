import BeatPatch.Assembly
import BeatPatch.Proofs.Footers
import BeatPatch.Proofs.Numbers

/-!
# The spelling of headers

A header is read from its spelling and from nothing else (`readHeader_eq_ok_iff`), so a patch is
parsed exactly if it opens with the spelling of a header and is long enough for a footer
(`parse_eq_ok_iff`).
-/

namespace BeatPatch.Patch

theorem readHeader_eq_ok_iff {sourceSize targetSize : Nat} {metadata : Bytes} {r r' : Reader} :
    readHeader r = .ok (sourceSize, targetSize, metadata) r' ↔
      sourceSize < Number.bound ∧ targetSize < Number.bound ∧ metadata.length < Number.bound ∧
        r.Consumes (encodeHeader sourceSize targetSize metadata) r' := by
  simp only [readHeader, Reading.bind_eq_ok_iff, Reading.pure_eq_ok_iff,
    Number.read_eq_ok_iff_consumes, readSignature_eq_ok_iff, readBytes_eq_ok_iff, Prod.mk.injEq,
    encodeHeader, Reader.consumes_append_iff]
  constructor
  · rintro ⟨-, a, opening, _, b, ⟨source, first⟩, _, c, ⟨target, second⟩, _, d, ⟨size, third⟩,
      _, e, ⟨rfl, fourth⟩, ⟨rfl, rfl, rfl⟩, rfl⟩
    exact ⟨source, target, size, d, ⟨c, ⟨b, ⟨a, opening, first⟩, second⟩, third⟩, fourth⟩
  · rintro ⟨source, target, size, d, ⟨c, ⟨b, ⟨a, opening, first⟩, second⟩, third⟩, fourth⟩
    exact ⟨(), a, opening, _, b, ⟨source, first⟩, _, c, ⟨target, second⟩, _, d, ⟨size, third⟩,
      _, r', ⟨rfl, fourth⟩, ⟨rfl, rfl, rfl⟩, rfl⟩

theorem parse_eq_ok_iff {bytes : Bytes} {p : Patch} :
    parse bytes = .ok p ↔ p.bytes = bytes ∧
      readHeader (Reader.start bytes) = .ok (p.sourceSize, p.targetSize, p.metadata) p.body ∧
      Footer.read bytes = .ok p.footer := by
  unfold parse
  cases header : readHeader (Reader.start bytes) with
  | error e r => simp
  | ok found body =>
    obtain ⟨sourceSize, targetSize, metadata⟩ := found
    cases footer : Footer.read bytes with
    | error e => simp [bind, Except.bind]
    | ok f =>
      obtain ⟨_, _, _, _, _, _⟩ := p
      simp [bind, Except.bind, pure, Except.pure]
      tauto

end BeatPatch.Patch
