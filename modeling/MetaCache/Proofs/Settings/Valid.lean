import MetaCache.Cache.ReadThrough
import Mathlib.Data.Option.Basic

/-!
# Valid settings

Settings are looked at part by part before anything is set up. What the checks find nothing wrong
with is said in one place (`CacheSettings.Valid`), and there is a backend and a cache for it.
-/

namespace MetaCache

open MetaCache.Store

namespace CacheSettings

variable {s : CacheSettings}

/-! ## The checks -/

/-- Settings that can be used. -/
structure Valid (s : CacheSettings) : Prop where
  lifetime : s.baseTtlSecs ≠ 0
  path : s.backend = .persistent → ∃ path, s.storagePath = some path ∧ path ≠ ""
  suffixes : ∀ suffix ∈ s.suffixesToStrip, suffix ≠ ""
  room : s.mapSizeMiB ≠ 0
  countable : s.mapSizeMiB.toNat * bytesPerMiB < UInt64.size

theorem ttlProblem?_eq_none_iff : s.ttlProblem? = none ↔ s.baseTtlSecs ≠ 0 := by
  simp [ttlProblem?]

theorem pathProblem?_eq_none_iff : s.pathProblem? = none
    ↔ (s.backend = .persistent → ∃ path, s.storagePath = some path ∧ path ≠ "") := by
  unfold pathProblem?
  split
  · next hpersistent =>
    cases s.storagePath <;> simp [hpersistent]
  · next hother => simp [hother]

theorem suffixProblem?_eq_none_iff :
    s.suffixProblem? = none ↔ ∀ suffix ∈ s.suffixesToStrip, suffix ≠ "" := by
  simp [suffixProblem?, List.findIdx?_eq_none_iff]

theorem mapProblem?_eq_none_iff : s.mapProblem? = none
    ↔ s.mapSizeMiB ≠ 0 ∧ s.mapSizeMiB.toNat * bytesPerMiB < UInt64.size := by
  unfold mapProblem?
  split
  · next hzero => simp [hzero]
  · next hroom =>
    split
    · next hlarge => simp [Nat.not_lt.2 hlarge]
    · next hsmall => simp [hroom, Nat.lt_of_not_le hsmall]

theorem problem?_eq_none_iff : s.problem? = none ↔ s.Valid := by
  simp only [problem?, Option.orElse_eq_none, ttlProblem?_eq_none_iff,
    pathProblem?_eq_none_iff, suffixProblem?_eq_none_iff, mapProblem?_eq_none_iff]
  exact ⟨fun ⟨lifetime, path, suffixes, room, countable⟩ =>
      ⟨lifetime, path, suffixes, room, countable⟩,
    fun h => ⟨h.lifetime, h.path, h.suffixes, h.room, h.countable⟩⟩

/-- **The checks find nothing wrong with valid settings only.** -/
theorem validate_ok_iff : s.validate = .ok () ↔ s.Valid := by
  rw [← problem?_eq_none_iff, validate]
  cases s.problem? <;> simp

end CacheSettings

/-! ## Setting up -/

theorem Store.Backend.ofSettings_error {siteOf : String → Site} {s : CacheSettings} {e : Error}
    (h : ofSettings siteOf s = .error e) : s.backend = .persistent ∧ s.storagePath = none := by
  unfold ofSettings at h
  split at h
  · next hpersistent =>
    split at h
    · cases h
    · next hnone => exact ⟨hpersistent, hnone⟩
  · cases h
  · cases h

theorem Store.Backend.exists_of_valid {s : CacheSettings} (h : s.Valid) (siteOf : String → Site) :
    ∃ b, ofSettings siteOf s = .ok b := by
  cases hbackend : ofSettings siteOf s with
  | ok b => exact ⟨b, rfl⟩
  | error e =>
    obtain ⟨hpersistent, hnone⟩ := ofSettings_error hbackend
    obtain ⟨path, hsome, -⟩ := h.path hpersistent
    rw [hnone] at hsome
    cases hsome

/-- Where no backend can be made, the check fails as well. -/
theorem Store.Backend.validate_error_of_error {siteOf : String → Site} {s : CacheSettings}
    {e : Error} (h : ofSettings siteOf s = .error e) : ∃ cause, s.validate = .error cause := by
  cases hvalidated : s.validate with
  | error cause => exact ⟨cause, rfl⟩
  | ok done =>
    obtain ⟨b, hb⟩ := exists_of_valid (CacheSettings.validate_ok_iff.1 hvalidated) siteOf
    rw [hb] at h
    cases h

theorem Cache.exists_of_valid {s : CacheSettings} (h : s.Valid) : ∃ c, ofSettings s = .ok c := by
  rw [ofSettings, CacheSettings.validate_ok_iff.2 h]
  exact ⟨_, rfl⟩

theorem Cache.ofSettings_error_iff {s : CacheSettings} {e : Error} :
    ofSettings s = .error e ↔ s.validate = .error e := by
  unfold ofSettings
  split
  · next hvalid => simp [hvalid]
  · next hinvalid => simp [hinvalid]

end MetaCache
