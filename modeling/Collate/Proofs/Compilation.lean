import Collate.Cache.Toolchain
import Collate.Proofs.Artifact
import Collate.Proofs.Template.Bounds
import Collate.Proofs.Template.Lowering

/-!
# Compiled sources

The source and the artifact of a template hold the template, as long as its source can be read at
all (`Template.source_and_artifact_hold_template`).  A text need not be the source of any template
to compile; but whatever compiles holds a template, and its artifact opens and holds the same one
(`Toolchain.compiled_artifact_holds_template`).
-/

namespace Collate

/-! ### Sources that are rendered -/

namespace Template

/-- A valid template of at most 125 keys, whose sizes have 64 bits, is read back from its source and
from its artifact. -/
theorem source_and_artifact_hold_template {t : Template} (hvalid : t.validate = .ok ())
    (hkeys : t.keys.length ≤ 125) (hbatch : t.batchSize < 2 ^ 64)
    (hslots : ∀ f ∈ t.fields, f.slot < 2 ^ 64) :
    ofSource t.source = .ok t ∧ Artifact.decode (Artifact.encode t) = .ok t := by
  rw [validate_eq_ok_iff] at hvalid
  have hlinks : t.comparator.links.length ≤ 125 := by
    rwa [← hvalid.comparatorSlots, CompareChain.slots, List.length_map] at hkeys
  have hwithin : t.Within 125 := ⟨hbatch, hslots, hlinks⟩
  have hportable : t.Portable :=
    (hvalid.portable_iff hbatch (hwithin.length_fields hvalid)).2 hkeys
  exact ⟨hportable.ofSource_source, Artifact.decode_encode hportable⟩

/-- A request whose 125 keys are two columns in turn, with names that have to be escaped. -/
def escaping : SortSpec where
  columns := [⟨"say \"k\"\\\n\x01\x7f é 😀", .decimal128 255 (-128), true⟩, ⟨"", .binary, false⟩]
  firstKey := ⟨0, by decide⟩
  otherKeys := (List.replicate 62 [⟨1, by decide⟩, ⟨0, by decide⟩]).flatten
  nullOrder := .last
  direction := .descending

theorem escaping_held :
    (lower escaping .indexed (2 ^ 64 - 1)).keys.length = 125 ∧
      ofSource (lower escaping .indexed (2 ^ 64 - 1)).source =
        .ok (lower escaping .indexed (2 ^ 64 - 1)) ∧
      Artifact.decode (Artifact.encode (lower escaping .indexed (2 ^ 64 - 1))) =
        .ok (lower escaping .indexed (2 ^ 64 - 1)) := by
  have hvalid : (lower escaping .indexed (2 ^ 64 - 1)).Valid :=
    valid_lower (by decide) fun h => nomatch h
  have hkeys : (lower escaping .indexed (2 ^ 64 - 1)).keys.length = 125 := by
    decide +kernel
  exact ⟨hkeys, source_and_artifact_hold_template (validate_eq_ok_iff.2 hvalid) hkeys.le
    (by decide) (by decide)⟩

end Template

/-! ### Any source -/

namespace Toolchain

theorem compile_eq_ok_iff {signature text : String} {bytes : List UInt8} :
    standard.compile signature text = .ok bytes ↔
      ∃ t, Template.ofSource text = .ok t ∧ Artifact.encode t = bytes := by
  simp only [standard]
  cases Template.ofSource text <;> simp

theorem compile_of_error {signature text : String} {e : SourceError}
    (h : Template.ofSource text = .error e) :
    standard.compile signature text = .error (.compile signature (.source e)) := by
  simp only [standard, h]

/-- A source compiles if and only if it holds a template, and the artifact then opens and holds the
same template. -/
theorem compiled_artifact_holds_template (signature text : String) :
    ((∃ bytes, standard.compile signature text = .ok bytes) ↔
        ∃ t, Template.ofSource text = .ok t) ∧
      ∀ bytes t, standard.compile signature text = .ok bytes → Template.ofSource text = .ok t →
        Artifact.decode bytes = .ok t := by
  simp only [compile_eq_ok_iff]
  refine ⟨?_, ?_⟩
  · constructor
    · rintro ⟨bytes, t, ht, -⟩
      exact ⟨t, ht⟩
    · rintro ⟨t, ht⟩
      exact ⟨_, t, ht, rfl⟩
  · rintro bytes t ⟨t', ht', rfl⟩ ht
    obtain rfl : t' = t := Except.ok.inj (ht'.symm.trans ht)
    exact Artifact.decode_encode (Template.portable_of_ofSource ht)

/-- A request to sort one column. -/
def oneColumn : SortSpec where
  columns := [⟨"n", .int64, true⟩]
  firstKey := ⟨0, by decide⟩
  otherKeys := []
  nullOrder := .first
  direction := .ascending

/-- A source with its members in another order, a record as a list of its values, an escape that is
not needed, and a member that no record has. -/
def looseSource : String :=
  "\x7b\"kernel\" : [1, \"Indexed\", [\"First\", \x7b\"Ascending\": null\x7d], 7, " ++
    "[[0, \"\\u006e\", \"Int64\", \"PrimitiveColumn<Int64Type>\", " ++
    "\"PrimitiveBuilder<Int64Type>\"]], [0], 0, " ++
    "\x7b\"more\": [1.5e3, \x7b\x7d], \"slot\": 0, \"direction\": \"Ascending\"\x7d, " ++
    "[\"AfterNulls\", \"Front\"], \x7b\"Radix\": [0]\x7d], \"generator\": \"another\"\x7d "

theorem looseSource_held :
    Template.ofSource looseSource = .ok (.lower oneColumn .indexed 7) ∧
      standard.compile "n" looseSource =
        .ok (Artifact.encode (.lower oneColumn .indexed 7)) ∧
      Artifact.decode (Artifact.encode (.lower oneColumn .indexed 7)) =
        .ok (.lower oneColumn .indexed 7) := by
  have hread : Template.ofSource looseSource = .ok (.lower oneColumn .indexed 7) := by
    decide +kernel
  have hcompile : standard.compile "n" looseSource =
      .ok (Artifact.encode (.lower oneColumn .indexed 7)) :=
    compile_eq_ok_iff.2 ⟨_, hread, rfl⟩
  exact ⟨hread, hcompile,
    (compiled_artifact_holds_template "n" looseSource).2 _ _ hcompile hread⟩

end Toolchain

end Collate
