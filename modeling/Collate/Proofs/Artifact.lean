import Collate.Artifact
import Collate.Proofs.Template.RoundTrip

/-!
# Artifacts that were written

The artifact of a portable template opens, and holds the template (`Artifact.decode_encode`).
-/

namespace Collate.Artifact

namespace Header

theorem length_bytes (h : Header) : h.bytes.length = headerLength := by
  simp [bytes, headerLength]

theorem numberAt_eq {bs : List UInt8} {start count n : Nat} (before after : List UInt8)
    (hbs : bs = before ++ (LittleEndian.encode count n ++ after)) (hstart : before.length = start)
    (hn : n < 256 ^ count) : numberAt bs start count = n := by
  subst hbs hstart
  rw [numberAt, List.drop_left, List.take_left' (LittleEndian.length_encode ..),
    LittleEndian.decode_encode, Nat.mod_eq_of_lt hn]

/-- A header of the current magic and format is read back. -/
theorem ofBytes_bytes {h : Header} (hmagic : h.magic = Artifact.magic)
    (hformat : h.format = Artifact.format) : ofBytes h.bytes = .ok h := by
  have hbytes : h.bytes = LittleEndian.encode 4 h.magic.toNat ++
      (LittleEndian.encode 2 h.format.toNat ++ ([0, 0] ++ (LittleEndian.encode 4 h.revision.toNat ++
        (LittleEndian.encode 8 h.bodyLength.toNat ++ [])))) := by
    simp [bytes]
  have hmagicAt : numberAt h.bytes 0 4 = h.magic.toNat :=
    numberAt_eq [] _ hbytes rfl h.magic.toNat_lt
  have hformatAt : numberAt h.bytes 4 2 = h.format.toNat :=
    numberAt_eq (LittleEndian.encode 4 h.magic.toNat) _ hbytes (by simp) h.format.toNat_lt
  have hrevisionAt : numberAt h.bytes 8 4 = h.revision.toNat :=
    numberAt_eq
      (LittleEndian.encode 4 h.magic.toNat ++ (LittleEndian.encode 2 h.format.toNat ++ [0, 0]))
      (LittleEndian.encode 8 h.bodyLength.toNat) (by simp [hbytes]) (by simp) h.revision.toNat_lt
  have hlengthAt : numberAt h.bytes 12 8 = h.bodyLength.toNat :=
    numberAt_eq (LittleEndian.encode 4 h.magic.toNat ++ (LittleEndian.encode 2 h.format.toNat ++
      ([0, 0] ++ LittleEndian.encode 4 h.revision.toNat)))
      [] (by simp [hbytes]) (by simp) h.bodyLength.toNat_lt
  have hfields : (⟨.ofNat (numberAt h.bytes 0 4), .ofNat (numberAt h.bytes 4 2),
      .ofNat (numberAt h.bytes 8 4), .ofNat (numberAt h.bytes 12 8)⟩ : Header) = h := by
    rw [hmagicAt, hformatAt, hrevisionAt, hlengthAt]
    simp
  rw [ofBytes, check_bind_eq_ok_iff, hfields]
  refine ⟨(length_bytes h).ge, ?_⟩
  rw [check_bind_eq_ok_iff, check_bind_eq_ok_iff]
  exact ⟨hmagic, hformat, rfl⟩

end Header

theorem templateOf_text {t : Template} (h : t.Portable) :
    templateOf (Text.bytes t.text) = .ok t := by
  rw [templateOf, h.ofBytes_text]
  simp only [Template.validate_eq_ok_iff.2 h.valid]

theorem length_checksum (header body : List UInt8) : (checksum header body).length = 32 :=
  Blake3.length_hash _

/-- The artifact of a portable template opens, and holds the template. -/
theorem decode_encode {t : Template} (h : t.Portable) : decode (encode t) = .ok t := by
  let header := Header.ofBody (Text.bytes t.text)
  have hhash := length_checksum header.bytes (Text.bytes t.text)
  have hpreamble : (header.bytes ++ checksum header.bytes (Text.bytes t.text)).length =
      preambleLength := by
    rw [List.length_append, Header.length_bytes, hhash]
    rfl
  have hframe : encode t =
      header.bytes ++ checksum header.bytes (Text.bytes t.text) ++ Text.bytes t.text := rfl
  have hheader : (encode t).take headerLength = header.bytes := by
    rw [hframe, List.append_assoc, List.take_left' (Header.length_bytes header)]
  have hbody : (encode t).drop preambleLength = Text.bytes t.text := by
    rw [hframe, List.drop_left' hpreamble]
  have hsum : ((encode t).take preambleLength).drop headerLength =
      checksum header.bytes (Text.bytes t.text) := by
    rw [hframe, List.take_left' hpreamble, List.drop_left' (Header.length_bytes header)]
  rw [decode, check_bind_eq_ok_iff, hheader, hbody, hsum, Header.ofBytes_bytes rfl rfl]
  refine ⟨?_, ?_⟩
  · rw [hframe, List.length_append, hpreamble]
    exact Nat.le_add_right _ _
  · show (check _ _ >>= _) = _
    rw [check_bind_eq_ok_iff, check_bind_eq_ok_iff, check_bind_eq_ok_iff, templateOf_text h]
    exact ⟨rfl, rfl, rfl, rfl⟩

theorem encode_ne_nil (t : Template) : encode t ≠ [] := by
  intro hnil
  have hlength := congrArg List.length hnil
  rw [encode, frame, List.length_append, List.length_append, Header.length_bytes] at hlength
  simp [headerLength] at hlength

end Collate.Artifact
