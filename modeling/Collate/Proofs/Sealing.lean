import Collate.Proofs.Artifact

/-!
# Opening artifacts

Bytes open if they meet seven requirements, and what does not open is refused for the first
requirement that it does not meet (`Artifact.decode_eq_ok_iff`, `Artifact.decode_eq_error_iff`).  So
an artifact that has lost or gained bytes at its end, or whose hash has been changed, does not open
(`Artifact.damaged_artifacts_refused`), whatever the hash function.
-/

namespace Collate

/-! ### Slices that hold numbers -/

namespace LittleEndian

theorem decode_injective {bs bs' : List UInt8} (hlength : bs.length = bs'.length)
    (h : decode bs = decode bs') : bs = bs' := by
  rw [← encode_decode bs, ← encode_decode bs', hlength, h]

theorem eq_encode_iff {bs : List UInt8} {count n : Nat} (hlength : bs.length = count) :
    bs = encode count n ↔ decode bs = n % 256 ^ count := by
  rw [← decode_encode]
  refine ⟨congrArg decode, decode_injective ?_⟩
  rw [hlength, length_encode]

theorem ofNat_decode_eq_iff_16 {bs : List UInt8} (hlength : bs.length = 2) (w : UInt16) :
    UInt16.ofNat (decode bs) = w ↔ bs = encode 2 w.toNat := by
  have hlt := decode_lt bs
  rw [hlength] at hlt
  rw [eq_encode_iff hlength, UInt16.ofNat_eq_iff_mod_eq_toNat, Nat.mod_eq_of_lt hlt,
    Nat.mod_eq_of_lt (show w.toNat < 256 ^ 2 from w.toNat_lt)]

theorem ofNat_decode_eq_iff_32 {bs : List UInt8} (hlength : bs.length = 4) (w : UInt32) :
    UInt32.ofNat (decode bs) = w ↔ bs = encode 4 w.toNat := by
  have hlt := decode_lt bs
  rw [hlength] at hlt
  rw [eq_encode_iff hlength, UInt32.ofNat_eq_iff_mod_eq_toNat, Nat.mod_eq_of_lt hlt,
    Nat.mod_eq_of_lt (show w.toNat < 256 ^ 4 from w.toNat_lt)]

theorem ofNat_decode_eq_iff_64 {bs : List UInt8} (hlength : bs.length = 8) (w : UInt64) :
    UInt64.ofNat (decode bs) = w ↔ bs = encode 8 w.toNat := by
  have hlt := decode_lt bs
  rw [hlength] at hlt
  rw [eq_encode_iff hlength, UInt64.ofNat_eq_iff_mod_eq_toNat, Nat.mod_eq_of_lt hlt,
    Nat.mod_eq_of_lt (show w.toNat < 256 ^ 8 from w.toNat_lt)]

/-- Eight bytes hold a number that is kept in 64 bits. -/
theorem encode_toNat_ofNat_64 (n : Nat) : encode 8 (UInt64.ofNat n).toNat = encode 8 n := by
  rw [eq_encode_iff (length_encode _ _), decode_encode, UInt64.toNat_ofNat']
  exact Nat.mod_mod _ _

end LittleEndian

/-! ### Checks -/

section

variable {ε : Type} {p q : Prop} [Decidable p] [Decidable q] {e : ε}

theorem check_of (h : p) : check p e = .ok () := if_pos h

theorem check_of_not (h : ¬p) : check p e = .error e := if_neg h

theorem check_congr (h : p ↔ q) : check p e = check q e := by
  unfold check
  simp only [h]

end

namespace Artifact

/-! ### Requirements -/

/-- What bytes need to open. -/
inductive Requirement
  | size
  | magic
  | format
  | length
  | checksum
  | revision
  | body
  deriving DecidableEq, Repr

namespace Requirement

/-- The requirements that are checked before one. -/
def before : Requirement → List Requirement
  | size => []
  | magic => [size]
  | format => [size, magic]
  | length => [size, magic, format]
  | checksum => [size, magic, format, length]
  | revision => [size, magic, format, length, checksum]
  | body => [size, magic, format, length, checksum, revision]

/-- The bytes meet the requirement. -/
def MetBy (bs : List UInt8) : Requirement → Prop
  | size => 52 ≤ bs.length
  | magic => bs.extract 0 4 = LittleEndian.encode 4 0x4B4E5343
  | format => bs.extract 4 6 = LittleEndian.encode 2 1
  | length => bs.extract 12 20 = LittleEndian.encode 8 (bs.length - 52)
  | checksum => bs.extract 20 52 = Blake3.hash (bs.extract 0 20 ++ bs.drop 52)
  | revision => bs.extract 8 12 = LittleEndian.encode 4 Template.currentRevision.toNat
  | body => ∃ t, Template.ofBytes (bs.drop 52) = .ok t ∧ t.validate = .ok ()

end Requirement

end Artifact

namespace ArtifactError

open Artifact (Requirement)

/-- The requirement that an error says is not met. -/
def requirement : ArtifactError → Requirement
  | truncated _ => .size
  | badMagic _ => .magic
  | format _ => .format
  | revision _ => .revision
  | length _ _ => .length
  | checksum => .checksum
  | body _ => .body

/-- What an error says of the bytes is true. -/
def Describes (bs : List UInt8) : ArtifactError → Prop
  | truncated n => n = bs.length
  | badMagic found => bs.extract 0 4 = LittleEndian.encode 4 found.toNat
  | format found => bs.extract 4 6 = LittleEndian.encode 2 found.toNat
  | revision found => bs.extract 8 12 = LittleEndian.encode 4 found.toNat
  | length declared actual =>
    bs.extract 12 20 = LittleEndian.encode 8 declared.toNat ∧ actual = bs.length - 52
  | checksum => True
  | body (.parse e) => Template.ofBytes (bs.drop 52) = .error e
  | body (.template e) => ∃ t, Template.ofBytes (bs.drop 52) = .ok t ∧ t.validate = .error e

end ArtifactError

namespace Artifact

variable {bs : List UInt8}

theorem templateOf_eq_ok_iff {body : List UInt8} {t : Template} :
    templateOf body = .ok t ↔ Template.ofBytes body = .ok t ∧ t.validate = .ok () := by
  rw [templateOf]
  cases Template.ofBytes body with
  | error e => simp
  | ok t' => cases hvalid : t'.validate <;> grind

theorem templateOf_eq_error_iff {body : List UInt8} {e : BodyError} :
    templateOf body = .error e ↔
      match e with
      | .parse e => Template.ofBytes body = .error e
      | .template e => ∃ t, Template.ofBytes body = .ok t ∧ t.validate = .error e := by
  rw [templateOf]
  cases Template.ofBytes body with
  | error e' => cases e <;> simp
  | ok t => cases hvalid : t.validate <;> cases e <;> simp [hvalid]

/-- Whether a requirement is met can be computed. -/
instance (r : Requirement) : Decidable (r.MetBy bs) :=
  match r with
  | .size => inferInstanceAs (Decidable (52 ≤ bs.length))
  | .magic => inferInstanceAs (Decidable (bs.extract 0 4 = LittleEndian.encode 4 0x4B4E5343))
  | .format => inferInstanceAs (Decidable (bs.extract 4 6 = LittleEndian.encode 2 1))
  | .length =>
    inferInstanceAs (Decidable (bs.extract 12 20 = LittleEndian.encode 8 (bs.length - 52)))
  | .checksum =>
    inferInstanceAs (Decidable (bs.extract 20 52 = Blake3.hash (bs.extract 0 20 ++ bs.drop 52)))
  | .revision => inferInstanceAs
      (Decidable (bs.extract 8 12 = LittleEndian.encode 4 Template.currentRevision.toNat))
  | .body =>
    match h : templateOf (bs.drop 52) with
    | .ok t => .isTrue ⟨t, templateOf_eq_ok_iff.1 h⟩
    | .error _ => .isFalse fun ⟨t, ht⟩ => by
      rw [templateOf_eq_ok_iff.2 ht] at h
      cases h

/-! ### Single checks -/

theorem numberAt_take (start stop : Nat) (h : stop ≤ 20) :
    Header.numberAt (bs.take 20) start (stop - start) =
      LittleEndian.decode (bs.extract start stop) := by
  rw [Header.numberAt, List.drop_take, List.take_take, Nat.min_eq_left (by omega)]

theorem length_extract {start stop : Nat} (h : stop ≤ bs.length) :
    (bs.extract start stop).length = stop - start := by
  rw [List.length_take, List.length_drop]
  omega

/-- What is checked of bytes that are long enough for a header and a hash. -/
theorem decode_of_size (h : Requirement.size.MetBy bs) :
    decode bs = (do
      check (Requirement.magic.MetBy bs) (.badMagic (.ofNat (LittleEndian.decode (bs.extract 0 4))))
      check (Requirement.format.MetBy bs) (.format (.ofNat (LittleEndian.decode (bs.extract 4 6))))
      check (Requirement.length.MetBy bs)
        (.length (.ofNat (LittleEndian.decode (bs.extract 12 20))) (bs.length - 52))
      check (Requirement.checksum.MetBy bs) .checksum
      check (Requirement.revision.MetBy bs)
        (.revision (.ofNat (LittleEndian.decode (bs.extract 8 12))))
      match templateOf (bs.drop 52) with
      | .ok t => .ok t
      | .error e => .error (.body e)) := by
  change 52 ≤ bs.length at h
  have hheader : headerLength ≤ (bs.take headerLength).length := by
    rw [List.length_take, headerLength]
    omega
  have hmagic : Header.numberAt (bs.take 20) 0 4 = _ := numberAt_take 0 4 (by decide)
  have hformat : Header.numberAt (bs.take 20) 4 2 = _ := numberAt_take 4 6 (by decide)
  have hrevision : Header.numberAt (bs.take 20) 8 4 = _ := numberAt_take 8 12 (by decide)
  have hlength : Header.numberAt (bs.take 20) 12 8 = _ := numberAt_take 12 20 (by decide)
  have hsum : (bs.take 52).drop 20 = bs.extract 20 52 := List.drop_take
  rw [decode, check_of (show preambleLength ≤ bs.length from h), Header.ofBytes, check_of hheader]
  simp only [headerLength, preambleLength, hmagic, hformat, hrevision, hlength, hsum,
    List.length_drop, checksum, bind_assoc, pure_bind]
  rw [check_congr (LittleEndian.ofNat_decode_eq_iff_32 (length_extract (by omega)) magic),
    check_congr (LittleEndian.ofNat_decode_eq_iff_16 (length_extract (by omega)) format),
    check_congr (LittleEndian.ofNat_decode_eq_iff_64 (length_extract (by omega)) _),
    check_congr (@eq_comm _ (Blake3.hash _) _),
    check_congr (LittleEndian.ofNat_decode_eq_iff_32 (length_extract (by omega)) _)]
  simp only [LittleEndian.encode_toNat_ofNat_64]
  rfl

/-! ### The first requirement that is not met -/

/-- Bytes are refused with the error of the first requirement that they do not meet. -/
theorem decode_of_unmet {e : ArtifactError} (he : e.Describes bs)
    (hunmet : ¬e.requirement.MetBy bs) (hmet : ∀ r ∈ e.requirement.before, r.MetBy bs) :
    decode bs = .error e := by
  by_cases hsize : Requirement.size.MetBy bs
  · have hlength : 52 ≤ bs.length := hsize
    rw [decode_of_size hsize]
    cases e <;> dsimp only [ArtifactError.requirement, Requirement.before] at hunmet hmet
    case truncated => exact absurd hsize hunmet
    case badMagic found =>
      rw [check_of_not hunmet,
        (LittleEndian.ofNat_decode_eq_iff_32 (length_extract (by omega)) found).2 he]
      rfl
    case format found =>
      rw [check_of (hmet .magic (by decide)), check_of_not hunmet,
        (LittleEndian.ofNat_decode_eq_iff_16 (length_extract (by omega)) found).2 he]
      rfl
    case length declared actual =>
      rw [check_of (hmet .magic (by decide)), check_of (hmet .format (by decide)),
        check_of_not hunmet, he.2,
        (LittleEndian.ofNat_decode_eq_iff_64 (length_extract (by omega)) declared).2 he.1]
      rfl
    case checksum =>
      rw [check_of (hmet .magic (by decide)), check_of (hmet .format (by decide)),
        check_of (hmet .length (by decide)), check_of_not hunmet]
      rfl
    case revision found =>
      rw [check_of (hmet .magic (by decide)), check_of (hmet .format (by decide)),
        check_of (hmet .length (by decide)), check_of (hmet .checksum (by decide)),
        check_of_not hunmet,
        (LittleEndian.ofNat_decode_eq_iff_32 (length_extract (by omega)) found).2 he]
      rfl
    case body e =>
      have hbody : templateOf (bs.drop 52) = .error e := by
        cases e <;> exact templateOf_eq_error_iff.2 he
      rw [check_of (hmet .magic (by decide)), check_of (hmet .format (by decide)),
        check_of (hmet .length (by decide)), check_of (hmet .checksum (by decide)),
        check_of (hmet .revision (by decide)), hbody]
      rfl
  · cases e <;> dsimp only [ArtifactError.requirement, Requirement.before] at hmet
    case truncated n =>
      have hshort : ¬preambleLength ≤ bs.length := hsize
      rw [he, decode, check_of_not hshort]
      rfl
    all_goals exact absurd (hmet .size (by decide)) hsize

/-- For every requirement that is not met there is an error. -/
theorem exists_describes {r : Requirement} (h : ¬r.MetBy bs)
    (hbefore : ∀ r' ∈ r.before, r'.MetBy bs) :
    ∃ e : ArtifactError, e.requirement = r ∧ e.Describes bs := by
  cases r with
  | size => exact ⟨.truncated bs.length, rfl, rfl⟩
  | checksum => exact ⟨.checksum, rfl, trivial⟩
  | body =>
    cases hopen : templateOf (bs.drop 52) with
    | ok t => exact absurd ⟨t, templateOf_eq_ok_iff.1 hopen⟩ h
    | error e =>
      refine ⟨.body e, rfl, ?_⟩
      cases e <;> exact templateOf_eq_error_iff.1 hopen
  | magic =>
    have hlength : 52 ≤ bs.length := hbefore .size (by decide)
    exact ⟨.badMagic _, rfl,
      (LittleEndian.ofNat_decode_eq_iff_32 (length_extract (by omega)) _).1 rfl⟩
  | format =>
    have hlength : 52 ≤ bs.length := hbefore .size (by decide)
    exact ⟨.format _, rfl,
      (LittleEndian.ofNat_decode_eq_iff_16 (length_extract (by omega)) _).1 rfl⟩
  | revision =>
    have hlength : 52 ≤ bs.length := hbefore .size (by decide)
    exact ⟨.revision _, rfl,
      (LittleEndian.ofNat_decode_eq_iff_32 (length_extract (by omega)) _).1 rfl⟩
  | length =>
    have hlength : 52 ≤ bs.length := hbefore .size (by decide)
    exact ⟨.length _ _, rfl,
      (LittleEndian.ofNat_decode_eq_iff_64 (length_extract (by omega)) _).1 rfl, rfl⟩

/-- Some requirement that is not met is the first one. -/
theorem exists_first_unmet (h : ¬∀ r : Requirement, r.MetBy bs) :
    ∃ r : Requirement, ¬r.MetBy bs ∧ ∀ r' ∈ r.before, r'.MetBy bs := by
  by_contra hnone
  have step : ∀ r : Requirement, (∀ r' ∈ r.before, r'.MetBy bs) → r.MetBy bs := by
    intro r hbefore
    by_contra hunmet
    exact hnone ⟨r, hunmet, hbefore⟩
  have hsize := step .size (by simp [Requirement.before])
  have hmagic := step .magic (by simp [Requirement.before, hsize])
  have hformat := step .format (by simp [Requirement.before, hsize, hmagic])
  have hlength := step .length (by simp [Requirement.before, hsize, hmagic, hformat])
  have hchecksum := step .checksum (by simp [Requirement.before, hsize, hmagic, hformat, hlength])
  have hrevision := step .revision
    (by simp [Requirement.before, hsize, hmagic, hformat, hlength, hchecksum])
  have hbody := step .body
    (by simp [Requirement.before, hsize, hmagic, hformat, hlength, hchecksum, hrevision])
  exact h fun r => by cases r <;> assumption

/-- Bytes that meet all requirements open. -/
theorem decode_of_met (h : ∀ r : Requirement, r.MetBy bs) :
    ∃ t, Template.ofBytes (bs.drop 52) = .ok t ∧ t.validate = .ok () ∧ decode bs = .ok t := by
  obtain ⟨t, ht, hvalid⟩ := h .body
  refine ⟨t, ht, hvalid, ?_⟩
  rw [decode_of_size (h .size), check_of (h .magic), check_of (h .format), check_of (h .length),
    check_of (h .checksum), check_of (h .revision), templateOf_eq_ok_iff.2 ⟨ht, hvalid⟩]
  rfl

theorem decode_eq_error_iff {e : ArtifactError} :
    decode bs = .error e ↔ e.Describes bs ∧ ¬e.requirement.MetBy bs ∧
      ∀ r ∈ e.requirement.before, r.MetBy bs := by
  constructor
  · intro hdecode
    have hunmet : ¬∀ r : Requirement, r.MetBy bs := by
      intro hmet
      obtain ⟨t, -, -, hopen⟩ := decode_of_met hmet
      rw [hopen] at hdecode
      cases hdecode
    obtain ⟨r, hr, hbefore⟩ := exists_first_unmet hunmet
    obtain ⟨e', rfl, he'⟩ := exists_describes hr hbefore
    obtain rfl : e = e' := by
      rw [decode_of_unmet he' hr hbefore] at hdecode
      exact (Except.error.inj hdecode).symm
    exact ⟨he', hr, hbefore⟩
  · rintro ⟨he, hunmet, hbefore⟩
    exact decode_of_unmet he hunmet hbefore

theorem decode_eq_ok_iff {t : Template} :
    decode bs = .ok t ↔
      (∀ r : Requirement, r.MetBy bs) ∧ Template.ofBytes (bs.drop 52) = .ok t := by
  constructor
  · intro hdecode
    have hmet : ∀ r : Requirement, r.MetBy bs := by
      by_contra hunmet
      obtain ⟨r, hr, hbefore⟩ := exists_first_unmet hunmet
      obtain ⟨e, rfl, he⟩ := exists_describes hr hbefore
      rw [decode_of_unmet he hr hbefore] at hdecode
      cases hdecode
    obtain ⟨t', ht', -, hopen⟩ := decode_of_met hmet
    obtain rfl : t' = t := Except.ok.inj (hopen.symm.trans hdecode)
    exact ⟨hmet, ht'⟩
  · rintro ⟨hmet, ht⟩
    obtain ⟨t', ht', -, hopen⟩ := decode_of_met hmet
    obtain rfl : t' = t := Except.ok.inj (ht'.symm.trans ht)
    exact hopen

/-! ### Damaged artifacts -/

theorem extract_of_take (before slice after : List UInt8) {start stop : Nat}
    (h : bs.take 20 = before ++ (slice ++ after)) (hstart : before.length = start)
    (hstop : start + slice.length = stop) : bs.extract start stop = slice := by
  subst hstart hstop
  have hle : before.length + slice.length ≤ 20 := by
    have hlength := congrArg List.length h
    simp only [List.length_take, List.length_append] at hlength
    omega
  have htake : (bs.take 20).extract before.length (before.length + slice.length) =
      bs.extract before.length (before.length + slice.length) := by
    rw [List.extract, List.drop_take, List.take_take, Nat.min_eq_left (by omega)]
  rw [← htake, h, List.extract, List.drop_left, Nat.add_sub_cancel_left, List.take_left]

/-- What bytes are that begin with the header of a body. -/
theorem metBy_of_header {body : List UInt8} (h : bs.take 20 = (Header.ofBody body).bytes) :
    Requirement.magic.MetBy bs ∧ Requirement.format.MetBy bs ∧ Requirement.revision.MetBy bs ∧
      bs.extract 12 20 = LittleEndian.encode 8 body.length := by
  let magic := LittleEndian.encode 4 0x4B4E5343
  let format := LittleEndian.encode 2 1
  let revision := LittleEndian.encode 4 Template.currentRevision.toNat
  let length := LittleEndian.encode 8 body.length
  have hparts : bs.take 20 = magic ++ (format ++ ([0, 0] ++ (revision ++ (length ++ [])))) := by
    rw [h, Header.bytes, Header.ofBody, LittleEndian.encode_toNat_ofNat_64, List.append_nil]
    simp only [List.append_assoc]
    rfl
  refine ⟨extract_of_take [] _ _ hparts rfl rfl, extract_of_take magic _ _ hparts rfl rfl,
    extract_of_take (magic ++ (format ++ [0, 0])) revision (length ++ []) ?_ rfl rfl,
    extract_of_take (magic ++ (format ++ ([0, 0] ++ revision))) length [] ?_ rfl ?_⟩
  · rw [hparts]
    simp only [List.append_assoc]
  · rw [hparts]
    simp only [List.append_assoc]
  · rw [LittleEndian.length_encode]

/-- Bytes that begin with the header of a body of another length are refused for their length. -/
theorem decode_of_length {body : List UInt8} (h : bs.take 20 = (Header.ofBody body).bytes)
    (hsize : 52 ≤ bs.length) (hbody : body.length < 2 ^ 64) (hlt : bs.length < 2 ^ 64)
    (hne : bs.length - 52 ≠ body.length) :
    decode bs = .error (.length (.ofNat body.length) (bs.length - 52)) := by
  obtain ⟨hmagic, hformat, -, hlength⟩ := metBy_of_header h
  refine decode_eq_error_iff.2 ⟨⟨?_, rfl⟩, ?_, ?_⟩
  · rw [hlength, LittleEndian.encode_toNat_ofNat_64]
  · intro hmet
    change bs.extract 12 20 = LittleEndian.encode 8 (bs.length - 52) at hmet
    rw [hlength] at hmet
    have hnumber := congrArg LittleEndian.decode hmet
    rw [LittleEndian.decode_encode, LittleEndian.decode_encode] at hnumber
    omega
  · simp only [ArtifactError.requirement, Requirement.before, List.forall_mem_cons,
      List.not_mem_nil, false_implies, implies_true, and_true]
    exact ⟨hsize, hmagic, hformat⟩

/-! The parts of the artifact of a template. -/

variable (t : Template)

theorem length_encode : (encode t).length = 52 + (Text.bytes t.text).length := by
  rw [encode, frame, List.length_append, List.length_append, Header.length_bytes, length_checksum,
    headerLength]

theorem take_encode : (encode t).take 20 = (Header.ofBody (Text.bytes t.text)).bytes := by
  rw [encode, frame, List.append_assoc]
  exact List.take_left' (Header.length_bytes _)

theorem drop_encode : (encode t).drop 52 = Text.bytes t.text := by
  rw [encode, frame]
  refine List.drop_left' ?_
  rw [List.length_append, Header.length_bytes, length_checksum, headerLength]

theorem extract_encode : (encode t).extract 20 52 =
    Blake3.hash ((encode t).take 20 ++ (encode t).drop 52) := by
  rw [take_encode, drop_encode, encode, frame, List.append_assoc, List.extract,
    show List.drop 20 (_ ++ _) = _ from List.drop_left' (Header.length_bytes _)]
  exact List.take_left' (length_checksum _ _)

/-- Bytes that begin with the header of an artifact, but are more or fewer. -/
theorem decode_of_take_encode (h : bs.take 20 = (encode t).take 20) (hsize : 52 ≤ bs.length)
    (hencode : (encode t).length < 2 ^ 64) (hlt : bs.length < 2 ^ 64)
    (hne : bs.length ≠ (encode t).length) :
    decode bs = .error (.length (.ofNat ((encode t).length - 52)) (bs.length - 52)) := by
  rw [length_encode] at hencode hne ⊢
  rw [Nat.add_sub_cancel_left]
  rw [take_encode] at h
  exact decode_of_length h hsize (by omega) hlt (by omega)

/-- Bytes that differ from an artifact in the hash only are refused for it. -/
theorem decode_of_other_hash (hlength : bs.length = (encode t).length)
    (hheader : bs.take 20 = (encode t).take 20) (hbody : bs.drop 52 = (encode t).drop 52)
    (hne : bs ≠ encode t) : decode bs = .error .checksum := by
  have hlengths := length_encode t
  have hsize : Requirement.size.MetBy bs := by
    show 52 ≤ bs.length
    omega
  obtain ⟨hmagic, hformat, -, hdeclared⟩ := metBy_of_header (hheader.trans (take_encode t))
  have hdeclared : Requirement.length.MetBy bs := by
    show bs.extract 12 20 = LittleEndian.encode 8 (bs.length - 52)
    rw [hdeclared, hlength, hlengths, Nat.add_sub_cancel_left]
  refine decode_eq_error_iff.2 ⟨trivial, ?_, ?_⟩
  · intro hmet
    change bs.extract 20 52 = Blake3.hash (bs.take 20 ++ bs.drop 52) at hmet
    rw [hheader, hbody, ← extract_encode] at hmet
    refine hne ?_
    rw [← List.take_append_drop 20 bs, ← List.take_append_drop 20 (encode t), hheader,
      ← List.take_append_drop 32 (bs.drop 20), ← List.take_append_drop 32 ((encode t).drop 20),
      List.drop_drop, List.drop_drop]
    rw [show (bs.drop 20).take 32 = ((encode t).drop 20).take 32 from hmet, hbody]
  · simp only [ArtifactError.requirement, Requirement.before, List.forall_mem_cons,
      List.not_mem_nil, false_implies, implies_true, and_true]
    exact ⟨hsize, hmagic, hformat, hdeclared⟩

variable {t}

/-- Bytes open if and only if they meet all requirements, and are refused for the first one that
they do not meet.  So an artifact that has lost bytes at its end is refused for its size or its
length, one that has more bytes for its length, and one with another hash for its hash.  A header
keeps lengths in 64 bits. -/
theorem damaged_artifacts_refused :
    (∀ bs t, decode bs = .ok t ↔
      (∀ r : Requirement, r.MetBy bs) ∧ Template.ofBytes (bs.drop 52) = .ok t) ∧
    (∀ bs e, decode bs = .error e ↔
      e.Describes bs ∧ ¬e.requirement.MetBy bs ∧ ∀ r ∈ e.requirement.before, r.MetBy bs) ∧
    ∀ t : Template, (encode t).length < 2 ^ 64 →
      (∀ bs, bs <+: encode t → bs ≠ encode t →
        decode bs = .error (if bs.length < 52 then .truncated bs.length
          else .length (.ofNat ((encode t).length - 52)) (bs.length - 52))) ∧
      (∀ extra, extra ≠ [] → (encode t ++ extra).length < 2 ^ 64 →
        decode (encode t ++ extra) = .error
          (.length (.ofNat ((encode t).length - 52)) ((encode t ++ extra).length - 52))) ∧
      ∀ bs, bs.length = (encode t).length → bs.take 20 = (encode t).take 20 →
        bs.drop 52 = (encode t).drop 52 → bs ≠ encode t → decode bs = .error .checksum := by
  refine ⟨fun _ _ => decode_eq_ok_iff, fun _ _ => decode_eq_error_iff, fun t hencode =>
    ⟨?_, ?_, fun bs => decode_of_other_hash t⟩⟩
  · intro bs hinitial hne
    have hle := hinitial.length_le
    have hlengths : bs.length ≠ (encode t).length := fun h => hne (hinitial.eq_of_length h)
    split
    · rename_i hshort
      refine decode_eq_error_iff.2 ⟨rfl, Nat.not_le.2 hshort, fun r hr => by cases hr⟩
    · rename_i hsize
      refine decode_of_take_encode t ?_ (Nat.not_lt.1 hsize) hencode (by omega) hlengths
      rw [List.prefix_iff_eq_take.1 hinitial, List.take_take, Nat.min_eq_left (by omega)]
  · intro extra hextra hlt
    have hpos := List.length_pos_of_ne_nil hextra
    have hlengths := length_encode t
    rw [List.length_append] at hlt
    refine decode_of_take_encode t ?_ ?_ hencode ?_ ?_
    · rw [List.take_append_of_le_length (by omega)]
    all_goals
      rw [List.length_append]
      omega

/-- The template of a request to sort one column. -/
def sample : Template :=
  .lower
    { columns := [⟨"day", .date32, true⟩]
      firstKey := ⟨0, by decide⟩
      otherKeys := []
      nullOrder := .first
      direction := .ascending }
    .indexed 7

/-- The sample with one byte of its hash changed. -/
def forged : List UInt8 := (encode sample).modify 20 (· + 1)

theorem damaged_sample_refused :
    (encode sample).length < 2 ^ 64 ∧
      decode ((encode sample).take 51) = .error (.truncated 51) ∧
      decode ((encode sample).take 60) =
        .error (.length (.ofNat ((encode sample).length - 52)) 8) ∧
      decode (encode sample ++ [0]) = .error
        (.length (.ofNat ((encode sample).length - 52)) ((encode sample ++ [0]).length - 52)) ∧
      decode forged = .error .checksum := by
  have hlength := length_encode sample
  have hbody : 8 < (Text.bytes sample.text).length ∧ (Text.bytes sample.text).length < 2 ^ 63 := by
    decide +kernel
  have hencode : (encode sample).length < 2 ^ 64 := by omega
  obtain ⟨hinitial, hextra, hhash⟩ := damaged_artifacts_refused.2.2 sample hencode
  have htruncated := hinitial ((encode sample).take 51) (List.take_prefix 51 _)
    (by simp; omega)
  have hlengths := hinitial ((encode sample).take 60) (List.take_prefix 60 _)
    (by simp; omega)
  have htake51 : ((encode sample).take 51).length = 51 := List.length_take_of_le (by omega)
  have htake60 : ((encode sample).take 60).length = 60 := List.length_take_of_le (by omega)
  rw [htake51] at htruncated
  rw [htake60] at hlengths
  refine ⟨hencode, htruncated, hlengths, hextra [0] (by decide) ?_, hhash forged ?_ ?_ ?_ ?_⟩
  · simp; omega
  · rw [forged, List.length_modify]
  · refine List.ext_getElem? fun i => ?_
    simp only [forged, List.getElem?_take, List.getElem?_modify]
    grind
  · refine List.ext_getElem? fun i => ?_
    simp only [forged, List.getElem?_drop, List.getElem?_modify]
    grind
  · intro heq
    have hat := congrArg (fun bs : List UInt8 => bs[20]?) heq
    have hget := List.getElem?_eq_getElem (show 20 < (encode sample).length by omega)
    rw [forged] at hat
    simp only [List.getElem?_modify, hget] at hat
    generalize (encode sample)[20] = b at hat
    simp at hat

end Artifact

end Collate
