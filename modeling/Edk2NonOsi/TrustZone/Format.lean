-- SUMMARY: `validate_config` against the documented format of the TrustZone block: which blocks it judges as documented, which configurations generate mode accepts, and how their blocks read back from a slot.
import Edk2NonOsi.TrustZone.BinConfig

namespace TrustZone

open TrustzoneExportConfigCrc (layout)

/-- The fields `validate_config` compares with a constant, all as documented. -/
structure ComparedFields (g : TrustzoneExportConfigCrc) : Prop where
  signature : g.signature = trustzoneConfigSignature
  versionMajor : g.versionMajor = trustzoneConfigVersionMajor
  versionMinor : g.versionMinor = trustzoneConfigVersionMinor
  headerVersion : g.config.header.versionId = 0x01
  headerLength : g.config.header.length.toNat = TrustzoneExportConfig.layout.size

/-- The other fields whose values the comments of the header file list, all as
    documented. -/
structure ListedFields (g : TrustzoneExportConfigCrc) : Prop where
  length : g.length.toNat = layout.size
  speFeatureEn : g.config.data.speFeatureEn ∈ [0x00, 0x01, 0xFF]
  secureStorageType : g.config.data.secureStorageType = secStorageTypeNofDisabled ∨
    g.config.data.secureStorageType = secStorageTypeNofEnabled

/-- The documented format; it leaves the timestamp, the checksum pair and the
    storage area open. -/
structure DocumentedFormat (g : TrustzoneExportConfigCrc) : Prop extends
  ComparedFields g, ListedFields g

/-- `validate_config` answers as the documentation does. -/
def JudgedAsDocumented (g : TrustzoneExportConfigCrc) : Prop :=
  validateConfig g = 0 ↔ DocumentedFormat g

theorem headerVersion_iff {v : UInt8} : v.toUInt16 = trustzoneConfigVersionMajor ↔ v = 0x01 := by
  have hmajor : trustzoneConfigVersionMajor.toNat = (0x01 : UInt8).toNat := rfl
  rw [← UInt16.toNat_inj, ← UInt8.toNat_inj, UInt8.toNat_toUInt16, hmajor]

/-- Nothing is above the last value of a byte, so the comparison excludes it alone. -/
theorem secStorageTypeInvalid_le_iff {t : UInt8} :
    t ≥ secStorageTypeInvalid ↔ t = secStorageTypeInvalid := by
  have hinvalid : secStorageTypeInvalid.toNat = 255 := rfl
  have hlt := t.toNat_lt
  rw [ge_iff_le, UInt8.le_iff_toNat_le, ← UInt8.toNat_inj, hinvalid]
  omega

/-- What `validate_config` accepts. -/
theorem validateConfig_eq_zero_iff (g : TrustzoneExportConfigCrc) :
    validateConfig g = 0 ↔
      ComparedFields g ∧ g.config.data.secureStorageType ≠ secStorageTypeInvalid := by
  have hrejects : ¬ (-1 : Int) = 0 := by decide
  unfold validateConfig
  split
  next h => exact iff_of_false hrejects fun hok => h hok.1.signature
  next hsignature =>
    split
    next h =>
      refine iff_of_false hrejects fun hok => ?_
      exact h.elim (fun h => h hok.1.versionMajor) fun h => h hok.1.versionMinor
    next hversion =>
      rw [not_or, not_not, not_not] at hversion
      split
      next h =>
        exact iff_of_false hrejects fun hok => h (headerVersion_iff.mpr hok.1.headerVersion)
      next hheader =>
        split
        next h => exact iff_of_false hrejects fun hok => h hok.1.headerLength
        next hlength =>
          split
          next h =>
            exact iff_of_false hrejects fun hok => hok.2 (secStorageTypeInvalid_le_iff.mp h)
          next htype =>
            have hcompared : ComparedFields g :=
              ⟨not_not.mp hsignature, hversion.1, hversion.2,
                headerVersion_iff.mp (not_not.mp hheader), not_not.mp hlength⟩
            exact iff_of_true rfl ⟨hcompared, mt secStorageTypeInvalid_le_iff.mpr htype⟩

theorem ListedFields.storageType_ne {g : TrustzoneExportConfigCrc} (h : ListedFields g) :
    g.config.data.secureStorageType ≠ secStorageTypeInvalid := by
  cases h.secureStorageType with
  | inl htype =>
    rw [htype]
    decide
  | inr htype =>
    rw [htype]
    decide

/-- **When validation follows the documentation.** A field that is compared already
    tells the block apart, the storage type is the one value that is excluded, or
    the fields that are not compared happen to hold documented values. -/
theorem judgedAsDocumented_iff (g : TrustzoneExportConfigCrc) :
    JudgedAsDocumented g ↔
      ¬ ComparedFields g ∨ g.config.data.secureStorageType = secStorageTypeInvalid ∨
        ListedFields g := by
  unfold JudgedAsDocumented
  rw [validateConfig_eq_zero_iff]
  constructor
  · intro hiff
    by_cases hcompared : ComparedFields g
    · by_cases htype : g.config.data.secureStorageType = secStorageTypeInvalid
      · exact Or.inr (Or.inl htype)
      · exact Or.inr (Or.inr (hiff.mp ⟨hcompared, htype⟩).toListedFields)
    · exact Or.inl hcompared
  · rintro (hcompared | htype | hlisted)
    · exact iff_of_false (fun h => hcompared h.1) fun h => hcompared h.toComparedFields
    · exact iff_of_false (fun h => h.2 htype) fun h => h.toListedFields.storageType_ne htype
    · constructor
      · intro h
        exact ⟨h.1, hlisted⟩
      · intro h
        exact ⟨h.toComparedFields, hlisted.storageType_ne⟩

/-- The configuration of `user_config.h`, but with a storage type the enumeration
    does not have. -/
def unlistedConfig : TrustzoneExportConfig :=
  { trustzoneConfig with data := { trustzoneConfig.data with secureStorageType := 0x02 } }

/-- Generate mode accepts it and writes an image with it. -/
theorem validateConfig_accepts_unlisted :
    validateConfig (initConfig (some unlistedConfig) 0) = 0 ∧
      ¬ DocumentedFormat (initConfig (some unlistedConfig) 0) ∧
      ¬ JudgedAsDocumented (initConfig (some unlistedConfig) 0) ∧
      ∃ file, generateMode .success (some unlistedConfig) 0 none = .ok (0, some file) := by
  have hvalid : validateConfig (initConfig (some unlistedConfig) 0) = 0 := by decide
  have hformat : ¬ DocumentedFormat (initConfig (some unlistedConfig) 0) := by
    intro h
    have htype : ¬ (unlistedConfig.data.secureStorageType = secStorageTypeNofDisabled ∨
        unlistedConfig.data.secureStorageType = secStorageTypeNofEnabled) := by decide
    exact htype h.secureStorageType
  exact ⟨hvalid, hformat, fun h => hformat (h.mp hvalid), _, generateMode_success none hvalid⟩

-- ---------------------------------------------------------------------------
-- What generate mode accepts
-- ---------------------------------------------------------------------------

/-- What `user_config.h` may say: the header of version 1, 12 bytes long, and a storage type
    other than the invalid one. Without the file, the minimal configuration stands in. -/
structure Acceptable (user : Option TrustzoneExportConfig) : Prop where
  versionId : (user.getD minimalConfig).header.versionId = 0x01
  length : (user.getD minimalConfig).header.length.toNat = TrustzoneExportConfig.layout.size
  storageType : (user.getD minimalConfig).data.secureStorageType ≠ secStorageTypeInvalid

theorem validateConfig_initConfig_iff (user : Option TrustzoneExportConfig) (timestamp : UInt32) :
    validateConfig (initConfig user timestamp) = 0 ↔ Acceptable user := by
  rw [validateConfig_eq_zero_iff]
  constructor
  · rintro ⟨hcompared, htype⟩
    exact ⟨hcompared.headerVersion, hcompared.headerLength, htype⟩
  · intro h
    exact ⟨⟨rfl, rfl, rfl, h.versionId, h.length⟩, h.storageType⟩

/-- What is read from a slot that starts with the block of a configuration. -/
structure ReadsBack (user : Option TrustzoneExportConfig) (timestamp : UInt32) (slot : Bytes) :
    Prop where
  config : (readConfig slot).config = user.getD minimalConfig
  timestamp : (readConfig slot).timestamp = timestamp
  valid : validateConfig (readConfig slot) = 0
  sums : StoredSumsCorrect (readConfig slot)

theorem readsBack_storedConfig {user : Option TrustzoneExportConfig} (h : Acceptable user)
    (timestamp : UInt32) (rest : Bytes) :
    ReadsBack user timestamp (layout.enc (storedConfig user timestamp) ++ rest) := by
  have hread := readConfig_append (storedConfig user timestamp) rest
  constructor
  · rw [hread]
    rfl
  · rw [hread]
    rfl
  · rw [hread, validateConfig_storedConfig]
    exact (validateConfig_initConfig_iff user timestamp).mpr h
  · rw [hread, storedSumsCorrect_iff, zeroedSums_storedConfig]
    rfl

end TrustZone
