-- SUMMARY: The memory configuration image of `MemConfigurationTable.h`: quick config, header, block table and block headers with their layouts, and the GUIDs of the block types.
import Edk2NonOsi.C.Memory

namespace MemConfig

open Layout

/-! ## Structures -/

/-- `MEM_QUICK_CONFIG`. -/
structure MemQuickConfig where
  boardIdGettingMethod : UInt8
  boardId : UInt8
  boardIdChanged : UInt8
  bootEnv : UInt8
  logFilter : UInt32
  volMajorVer : UInt8
  dfsDvfs : UInt8
  volSubVer : UInt8
  reserved0 : UInt8
  featHash : UInt32
  reserved1 : Fin 16 → UInt8

/-- `MEM_CONFIG_HEADER`. -/
structure MemConfigHeader where
  signature : UInt32
  reserved0 : UInt32
  majorVer : UInt16
  minorVer : UInt16
  blockTbOffset : UInt16
  blockCount : UInt8
  reserved1 : UInt8
  headerSize : UInt8
  headerCheckSum : UInt8
  totalSize : UInt16
  reserved2 : Fin 10 → UInt32
  hashValue : UInt32

/-- `MEM_CONFIG_BLOCK_TABLE_ENTRY`. -/
structure MemConfigBlockTableEntry where
  guid : UInt16
  offset : UInt16
deriving DecidableEq

/-- `MEM_CONFIG_BLOCK_HEADER`. -/
structure MemConfigBlockHeader where
  signature : UInt32
  reserved0 : UInt32
  blockSize : UInt16
  blockChecksum : UInt8
  reserved1 : UInt8
  boardMask : UInt16
  reserved2 : UInt16
deriving DecidableEq

/-! ## Constants -/

/-- `MEM_CONFIG_HEADER_SIGNATURE`: "CDCB". -/
def memConfigHeaderSignature : UInt32 := 0x42434443

def memConfigMajorVer : UInt16 := 0x1
def memConfigMinorVer : UInt16 := 0x6

def guidInvalid : UInt16 := 0xFFFF
def memConfigBlockFeatureGuid : UInt16 := 0x1002

/-! ## Layouts -/

def MemQuickConfig.layout : Layout MemQuickConfig :=
  (u8.pair (u8.pair (u8.pair (u8.pair (u32.pair (u8.pair (u8.pair (u8.pair (u8.pair
    (u32.pair (u8.array 16))))))))))).iso
    (fun p => ⟨p.1, p.2.1, p.2.2.1, p.2.2.2.1, p.2.2.2.2.1, p.2.2.2.2.2.1, p.2.2.2.2.2.2.1,
      p.2.2.2.2.2.2.2.1, p.2.2.2.2.2.2.2.2.1, p.2.2.2.2.2.2.2.2.2.1, p.2.2.2.2.2.2.2.2.2.2⟩)
    (fun q => (q.boardIdGettingMethod, q.boardId, q.boardIdChanged, q.bootEnv, q.logFilter,
      q.volMajorVer, q.dfsDvfs, q.volSubVer, q.reserved0, q.featHash, q.reserved1))
    (fun _ => rfl) (fun _ => rfl)

def MemConfigHeader.layout : Layout MemConfigHeader :=
  (u32.pair (u32.pair (u16.pair (u16.pair (u16.pair (u8.pair (u8.pair (u8.pair (u8.pair
    (u16.pair ((u32.array 10).pair u32))))))))))).iso
    (fun p => ⟨p.1, p.2.1, p.2.2.1, p.2.2.2.1, p.2.2.2.2.1, p.2.2.2.2.2.1, p.2.2.2.2.2.2.1,
      p.2.2.2.2.2.2.2.1, p.2.2.2.2.2.2.2.2.1, p.2.2.2.2.2.2.2.2.2.1, p.2.2.2.2.2.2.2.2.2.2.1,
      p.2.2.2.2.2.2.2.2.2.2.2⟩)
    (fun h => (h.signature, h.reserved0, h.majorVer, h.minorVer, h.blockTbOffset, h.blockCount,
      h.reserved1, h.headerSize, h.headerCheckSum, h.totalSize, h.reserved2, h.hashValue))
    (fun _ => rfl) (fun _ => rfl)

def MemConfigBlockTableEntry.layout : Layout MemConfigBlockTableEntry :=
  (u16.pair u16).iso (fun p => ⟨p.1, p.2⟩) (fun e => (e.guid, e.offset))
    (fun _ => rfl) (fun _ => rfl)

def MemConfigBlockHeader.layout : Layout MemConfigBlockHeader :=
  (u32.pair (u32.pair (u16.pair (u8.pair (u8.pair (u16.pair u16)))))).iso
    (fun p => ⟨p.1, p.2.1, p.2.2.1, p.2.2.2.1, p.2.2.2.2.1, p.2.2.2.2.2.1, p.2.2.2.2.2.2⟩)
    (fun h => (h.signature, h.reserved0, h.blockSize, h.blockChecksum, h.reserved1, h.boardMask,
      h.reserved2))
    (fun _ => rfl) (fun _ => rfl)

/-- `sizeof (MEM_QUICK_CONFIG)`. -/
theorem MemQuickConfig.layout_size : MemQuickConfig.layout.size = 32 := by
  decide +kernel

/-- `sizeof (MEM_CONFIG_HEADER)`. -/
theorem MemConfigHeader.layout_size : MemConfigHeader.layout.size = 64 := by
  decide +kernel

/-- `sizeof (MEM_CONFIG_BLOCK_TABLE_ENTRY)`. -/
theorem MemConfigBlockTableEntry.layout_size : MemConfigBlockTableEntry.layout.size = 4 := by
  decide +kernel

@[simp] theorem MemQuickConfig.length_enc (q : MemQuickConfig) :
    (MemQuickConfig.layout.enc q).length = 32 := by
  rw [Layout.length_enc, MemQuickConfig.layout_size]

@[simp] theorem MemConfigHeader.length_enc (h : MemConfigHeader) :
    (MemConfigHeader.layout.enc h).length = 64 := by
  rw [Layout.length_enc, MemConfigHeader.layout_size]

@[simp] theorem MemConfigBlockTableEntry.length_enc (e : MemConfigBlockTableEntry) :
    (MemConfigBlockTableEntry.layout.enc e).length = 4 := by
  rw [Layout.length_enc, MemConfigBlockTableEntry.layout_size]

/-! ## Fields -/

def MemQuickConfig.featHashField : MemQuickConfig.layout.Field u32 :=
  (Field.fst _ _).right.right.right.right.right.right.right.right.right.iso

def MemConfigHeader.headerSizeField : MemConfigHeader.layout.Field u8 :=
  (Field.fst _ _).right.right.right.right.right.right.right.iso

def MemConfigHeader.headerCheckSumField : MemConfigHeader.layout.Field u8 :=
  (Field.fst _ _).right.right.right.right.right.right.right.right.iso

theorem MemQuickConfig.featHashField_set (q : MemQuickConfig) (h : UInt32) :
    MemQuickConfig.featHashField.set q h = { q with featHash := h } := rfl

/-- The positions of `BlockSize` and `BlockChecksum` in an object read as one that
    starts with a block header. -/
abbrev blockSizeOffset : Nat := 8
abbrev blockChecksumOffset : Nat := 10

/-! ## Block types -/

/-- The types of the objects a list can be built from; `other` stands for every
    type `GUID` does not name. -/
inductive BlockType where
  | boardId
  | config
  | feature
  | spd
  | buscfgLp4x
  | buscfgLp5
  | phyPadCfg
  | biosSetup
  | dqSwap
  | boardIdMap
  | traceLenDiff
  | trainOptimize
  | other
deriving DecidableEq

/-- `GUID (x)`. -/
def BlockType.guid : BlockType → UInt16
  | .boardId => 0x1000
  | .config => 0x1001
  | .feature => memConfigBlockFeatureGuid
  | .spd => 0x1003
  | .buscfgLp4x => 0x1004
  | .buscfgLp5 => 0x1005
  | .phyPadCfg => 0x1006
  | .biosSetup => 0x1007
  | .dqSwap => 0x1008
  | .boardIdMap => 0x1009
  | .traceLenDiff => 0x100A
  | .trainOptimize => 0x100B
  | .other => guidInvalid

/-- Whether objects of the type start with a `MEM_CONFIG_BLOCK_HEADER`. -/
def BlockType.hasHeader : BlockType → Bool
  | .spd => false
  | .other => false
  | _ => true

/-- `sizeof (MEM_CONFIG_SPD)`. -/
def spdSize : Nat := 512

end MemConfig
