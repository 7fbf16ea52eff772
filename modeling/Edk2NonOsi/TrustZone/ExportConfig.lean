-- SUMMARY: The TrustZone configuration block of `trustzone_export_config.h` and its packed layout.
import Edk2NonOsi.C.Memory

namespace TrustZone

/-! ## Constants -/

/-- `TABLE_SIGNATURE('T', 'Z', 'C', 'F')`. -/
def trustzoneConfigSignature : UInt32 := 0x46435A54

def trustzoneConfigVersionMajor : UInt16 := 1
def trustzoneConfigVersionMinor : UInt16 := 0

/-- `secure_storage_type_e`. -/
def secStorageTypeNofDisabled : UInt8 := 0x00
def secStorageTypeNofEnabled : UInt8 := 0x01
def secStorageTypeInvalid : UInt8 := 0xFF

/-! ## Structures -/

/-- `trustzone_config_header_t`. -/
structure TrustzoneConfigHeader where
  versionId : UInt8
  length : UInt8
deriving DecidableEq

/-- `trustzone_config_data_t`. -/
structure TrustzoneConfigData where
  speFeatureEn : UInt8
  secureStorageType : UInt8
  secureStorageAddr : UInt32
  secureStorageSize : UInt32
deriving DecidableEq

/-- `trustzone_export_config_t`. -/
structure TrustzoneExportConfig where
  header : TrustzoneConfigHeader
  data : TrustzoneConfigData
deriving DecidableEq

/-- `trustzone_export_config_crc_t`. The structure is 36 bytes long, so its
    alignment padding is empty. -/
structure TrustzoneExportConfigCrc where
  versionMajor : UInt16
  versionMinor : UInt16
  timestamp : UInt32
  length : UInt32
  signature : UInt32
  crc1 : UInt32
  crc2 : UInt32
  config : TrustzoneExportConfig
deriving DecidableEq

/-! ## Layouts -/

open Layout

def TrustzoneConfigHeader.layout : Layout TrustzoneConfigHeader :=
  (u8.pair u8).iso (fun p => ⟨p.1, p.2⟩) (fun h => (h.versionId, h.length))
    (fun _ => rfl) (fun _ => rfl)

def TrustzoneConfigData.layout : Layout TrustzoneConfigData :=
  (u8.pair (u8.pair (u32.pair u32))).iso (fun p => ⟨p.1, p.2.1, p.2.2.1, p.2.2.2⟩)
    (fun d => (d.speFeatureEn, d.secureStorageType, d.secureStorageAddr, d.secureStorageSize))
    (fun _ => rfl) (fun _ => rfl)

def TrustzoneExportConfig.layout : Layout TrustzoneExportConfig :=
  (TrustzoneConfigHeader.layout.pair TrustzoneConfigData.layout).iso (fun p => ⟨p.1, p.2⟩)
    (fun c => (c.header, c.data)) (fun _ => rfl) (fun _ => rfl)

namespace TrustzoneExportConfigCrc

/-- The fields in front of `crc1`. -/
def headLayout : Layout (UInt16 × UInt16 × UInt32 × UInt32 × UInt32) :=
  u16.pair (u16.pair (u32.pair (u32.pair u32)))

def layout : Layout TrustzoneExportConfigCrc :=
  (headLayout.pair (u32.pair (u32.pair TrustzoneExportConfig.layout))).iso
    (fun p => ⟨p.1.1, p.1.2.1, p.1.2.2.1, p.1.2.2.2.1, p.1.2.2.2.2, p.2.1, p.2.2.1, p.2.2.2⟩)
    (fun g => ((g.versionMajor, g.versionMinor, g.timestamp, g.length, g.signature),
      g.crc1, g.crc2, g.config))
    (fun _ => rfl) (fun _ => rfl)

/-- `sizeof (trustzone_export_config_crc_t)`. -/
theorem layout_size : layout.size = 36 := rfl

/-- The words of the block: four before the checksum pair, three behind it. -/
theorem words_enc (g : TrustzoneExportConfigCrc) :
    ∃ pre post, pre.length = 4 ∧ post.length = 3 ∧
      ∀ c₁ c₂, C.words (layout.enc { g with crc1 := c₁, crc2 := c₂ }) = pre ++ c₁ :: c₂ :: post := by
  let head := headLayout.enc (g.versionMajor, g.versionMinor, g.timestamp, g.length, g.signature)
  have hhead : head.length = 16 := headLayout.length_enc _
  have htail : (TrustzoneExportConfig.layout.enc g.config).length = 12 :=
    TrustzoneExportConfig.layout.length_enc _
  refine ⟨C.words head, C.words (TrustzoneExportConfig.layout.enc g.config), ?_, ?_, ?_⟩
  · rw [C.length_words, hhead]
  · rw [C.length_words, htail]
  · intro c₁ c₂
    have henc : layout.enc { g with crc1 := c₁, crc2 := c₂ } =
        head ++ (u32.enc c₁ ++ (u32.enc c₂ ++ TrustzoneExportConfig.layout.enc g.config)) := rfl
    rw [henc, C.words_append (by rw [hhead]), C.words_enc_append, C.words_enc_append]

end TrustzoneExportConfigCrc

end TrustZone
