-- SUMMARY: The three configuration generators side by side: what each is run with, the file it leaves, and what is read from the slot of its image.
import Edk2NonOsi.FlashImage.FlashConfig
import Edk2NonOsi.MemConfig.Slot
import Edk2NonOsi.MemConfig.TableCapacity
import Edk2NonOsi.PmConfig.WellFormed
import Edk2NonOsi.TrustZone.Format

open FlashImage

namespace PackageTool

-- ---------------------------------------------------------------------------
-- Kinds
-- ---------------------------------------------------------------------------

/-- The configurations that are generated: `memory_config.bin`, `csu_pm_config.bin` and
    `trustzone_config.bin`. -/
inductive ConfigKind where
  | memory
  | csuPm
  | trustzone
deriving DecidableEq

/-- Where `spi_flash_config_all.json` puts the file. -/
def ConfigKind.group : ConfigKind → ImageHeader
  | .memory => ⟨3, 0x400000, 0x4000⟩
  | .csuPm => ⟨4, 0x404000, 0x1000⟩
  | .trustzone => ⟨9, 0xF0000, 0x1000⟩

/-- The kind of an image type. -/
def kindOf? (t : Int) : Option ConfigKind :=
  if t = 3 then some .memory
  else if t = 4 then some .csuPm
  else if t = 9 then some .trustzone
  else none

theorem ConfigKind.group_mem (k : ConfigKind) : k.group ∈ imageHeaderGroups := by
  cases k with
  | memory => decide
  | csuPm => decide
  | trustzone => decide

@[simp] theorem kindOf?_group (k : ConfigKind) : kindOf? k.group.imageType = some k := by
  cases k with
  | memory => rfl
  | csuPm => rfl
  | trustzone => rfl

theorem kindOf?_eq_some_iff {t : Int} {k : ConfigKind} :
    kindOf? t = some k ↔ t = k.group.imageType := by
  constructor
  · intro h
    unfold kindOf? at h
    split at h
    next ht =>
      obtain rfl := Option.some.inj h
      exact ht
    next =>
      split at h
      next ht =>
        obtain rfl := Option.some.inj h
        exact ht
      next =>
        split at h
        next ht =>
          obtain rfl := Option.some.inj h
          exact ht
        next => cases h
  · rintro rfl
    exact kindOf?_group k

/-- No other group has the type of a kind. -/
theorem ConfigKind.eq_group (k : ConfigKind) {g : ImageHeader} (hg : g ∈ imageHeaderGroups)
    (htype : (g.imageType : Int) = k.group.imageType) : g = k.group := by
  have hall : ∀ g ∈ imageHeaderGroups, g.imageType = k.group.imageType → g = k.group := by
    cases k with
    | memory => decide
    | csuPm => decide
    | trustzone => decide
  exact hall g hg (by exact_mod_cast htype)

theorem ConfigKind.group_imageType_ne_zero (k : ConfigKind) : (k.group.imageType : Int) ≠ 0 := by
  cases k with
  | memory => decide
  | csuPm => decide
  | trustzone => decide

-- ---------------------------------------------------------------------------
-- Configurations
-- ---------------------------------------------------------------------------

/-- What a run of a generator is given. -/
inductive Config (Ptr : Type) where
  | memory (quick : MemConfig.MemQuickConfig) (heap : Ptr → Bytes)
      (entries : List (MemConfig.CdcbBlockEntry Ptr))
  | csuPm (user : PmConfig.UserConfig) (timestamp : UInt32)
  | trustzone (user : Option TrustZone.TrustzoneExportConfig) (timestamp : UInt32)

namespace Config

variable {Ptr : Type}

def kind : Config Ptr → ConfigKind
  | .memory .. => .memory
  | .csuPm .. => .csuPm
  | .trustzone .. => .trustzone

/-- What a generator can be run on: headered blocks whose image fits its slot, and OPP tables
    that are there. -/
def Admissible : Config Ptr → Prop
  | .memory _ heap entries => entries.length ≤ 255 ∧
      (∀ e ∈ entries, MemConfig.Headered (heap e.ptr)) ∧
      MemConfig.imageSize heap entries ≤ MemConfig.memoryConfigSlotSize
  | .csuPm user _ => PmConfig.DomainsPresent user
  | .trustzone _ _ => True

/-- What a generator is to accept. -/
def Valid : Config Ptr → Prop
  | .memory _ _ entries => ∀ e ∈ entries, e.guid ≠ MemConfig.guidInvalid
  | .csuPm user _ => PmConfig.WellFormed user
  | .trustzone user _ => TrustZone.Acceptable user

/-- The configuration can be read from a slot. -/
def ReadsBack : Config Ptr → Bytes → Prop
  | .memory quick heap entries => MemConfig.ReadsBack quick heap entries
  | .csuPm user timestamp => PmConfig.ReadsBack user timestamp
  | .trustzone user timestamp => TrustZone.ReadsBack user timestamp

variable [DecidableEq Ptr]

/-- A run of the generator: its file afterwards, which held `old`. Every library call
    succeeds. -/
def generate (old : Option Bytes) : Config Ptr → Except C.Fault (Option Bytes)
  | .memory quick heap entries => do
    match ← MemConfig.main quick heap entries with
    | .invalidGuid => return old
    | .written image => return some image
  | .csuPm user timestamp => do
    let (_, file) ← PmConfig.generateMode .success user timestamp old
    return file
  | .trustzone user timestamp => do
    let (_, file) ← TrustZone.generateMode .success user timestamp old
    return file

/-- The image of a configuration. -/
def image : Config Ptr → Bytes
  | .memory quick heap entries => MemConfig.image quick heap entries
  | .csuPm user timestamp => PmConfig.imageOf user timestamp
  | .trustzone user timestamp =>
    TrustZone.TrustzoneExportConfigCrc.layout.enc (TrustZone.storedConfig user timestamp) ++
      TrustZone.padding

variable {c : Config Ptr}

omit [DecidableEq Ptr] in
theorem packable {quick : MemConfig.MemQuickConfig} {heap : Ptr → Bytes}
    {entries : List (MemConfig.CdcbBlockEntry Ptr)} (ha : (memory quick heap entries).Admissible)
    (hv : (memory quick heap entries).Valid) : MemConfig.Packable heap entries := by
  obtain ⟨hcount, hblocks, hsize⟩ := ha
  have hslot : MemConfig.memoryConfigSlotSize ≤ 65536 := by decide
  exact ⟨hcount, hv, hblocks, hsize.trans hslot⟩

/-- The generator writes the image of what it is to accept. -/
theorem generate_valid (ha : c.Admissible) (hv : c.Valid) (old : Option Bytes) :
    c.generate old = .ok (some c.image) := by
  cases c with
  | memory quick heap entries =>
    rw [generate, MemConfig.main_eq (packable ha hv).fits quick]
    rfl
  | csuPm user timestamp =>
    rw [generate, PmConfig.generateMode_wellFormed ha hv]
    rfl
  | trustzone user timestamp =>
    have hvalid := (TrustZone.validateConfig_initConfig_iff user timestamp).mpr hv
    rw [generate, TrustZone.generateMode_success old hvalid]
    rfl

/-- It leaves its file alone otherwise. -/
theorem generate_invalid (ha : c.Admissible) (hv : ¬ c.Valid) (old : Option Bytes) :
    c.generate old = .ok old := by
  cases c with
  | memory quick heap entries =>
    obtain ⟨hcount, hblocks, -⟩ := ha
    have hinvalid : ∃ e ∈ entries, e.guid = MemConfig.guidInvalid := by
      by_contra hnone
      exact hv fun e he hguid => hnone ⟨e, he, hguid⟩
    rw [generate, MemConfig.main_invalidGuid hcount (fun e he => (hblocks e he).readable) hinvalid]
    rfl
  | csuPm user timestamp =>
    rw [generate, PmConfig.generateMode_rejects ha hv]
    rfl
  | trustzone user timestamp =>
    have hvalid := mt (TrustZone.validateConfig_initConfig_iff user timestamp).mp hv
    rw [generate, TrustZone.generateMode_invalid hvalid]
    rfl

theorem length_image_le (ha : c.Admissible) (hv : c.Valid) :
    c.image.length ≤ c.kind.group.size := by
  cases c with
  | memory quick heap entries =>
    have hpack := packable ha hv
    have hsize := MemConfig.imageSize_eq fun e he => (hpack.headered e he).size
    rw [image, MemConfig.length_image hpack.readable, ← hsize]
    exact ha.2.2
  | csuPm user timestamp => exact Nat.le_of_eq (PmConfig.length_imageOf user timestamp)
  | trustzone user timestamp =>
    rw [image, List.length_append, Layout.length_enc, TrustZone.padding, List.length_replicate]
    exact Nat.le_of_eq rfl

/-- An image is read back from wherever it starts. -/
theorem readsBack_image (ha : c.Admissible) (hv : c.Valid) (rest : Bytes) :
    c.ReadsBack (c.image ++ rest) := by
  cases c with
  | memory quick heap entries => exact (packable ha hv).readsBack quick rest
  | csuPm user timestamp =>
    show PmConfig.ReadsBack user timestamp (PmConfig.imageOf user timestamp ++ rest)
    rw [PmConfig.imageOf, List.append_assoc]
    exact PmConfig.readsBack_generatedConfig ha hv timestamp _
  | trustzone user timestamp =>
    show TrustZone.ReadsBack user timestamp (_ ++ TrustZone.padding ++ rest)
    rw [List.append_assoc]
    exact TrustZone.readsBack_storedConfig hv timestamp _

end Config

end PackageTool
