import Collate.Config
import Collate.Proofs.Json.Records

/-!
# Settings that were written

Settings are read back from the document that holds them (`Config.readsJson`), however it is spaced
and whatever characters the path of the directory has.  So a document of settings is answered with
these settings if they can be used, and refused as they are refused if not (`Config.ofText_json`).
-/

namespace Collate.Config

open Json Json.Reader

/-- A number of 64 bits that may be missing. -/
theorem readsJson_limit (limit : Option UInt64) :
    ReadsJson (optional (natural "u64" 64))
      (match limit with
        | some n => .ofNat n.toNat
        | none => .null) (limit.map UInt64.toNat) := by
  cases limit with
  | none => exact readsJson_null _
  | some n => exact readsJson_some Json.noConfusion (readsJson_natural le_rfl n.toNat_lt)

/-- Settings are read back from their document. -/
theorem readsJson (c : Config) : ReadsJson reader c.json c := by
  refine readsJson_record ⟨_, .member rfl rfl readsJson_text (.member rfl rfl
    (readsJson_size c.batchSize.toNat_lt) (.member rfl rfl (readsJson_size c.memCapBytes.toNat_lt)
    (.member rfl rfl (readsJson_natural le_rfl c.lockPollMs.toNat_lt)
    (.member rfl rfl (readsJson_limit c.lockTimeoutMs) (.nil _))))), ?_⟩
  have hlimit : (c.lockTimeoutMs.map UInt64.toNat).map UInt64.ofNat = c.lockTimeoutMs := by
    cases c.lockTimeoutMs with
    | none => rfl
    | some n => exact congrArg some UInt64.ofNat_toNat
  show Except.ok _ = Except.ok _
  simp [hlimit]

/-- A document of settings is answered with these settings if they can be used, and else refused for
the same reason as the settings. -/
theorem ofText_json (c : Config) (spacing : Spacing) :
    ofText (c.json.render spacing) = c.validate.map fun _ => c := by
  have hread : reader.run (Text.bytes (c.json.render spacing)) = .ok c := (c.readsJson spacing).run
  rw [ofText, hread]
  cases hvalid : c.validate with
  | ok _ => simp only [hvalid, Except.map]
  | error e => simp only [hvalid, Except.map]

end Collate.Config
