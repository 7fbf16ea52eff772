-- SUMMARY: The PM configuration block of `pm_export_config.h`: its structures, their packed layouts, and the sections of the block as fields of its layout.
import Edk2NonOsi.C.Memory

namespace PmConfig

open Layout

/-! ## Constants -/

/-- `TABLE_SIGNATURE('P', 'M', 'C', 'F')`. -/
def pmConfigSignature : UInt32 := 0x46434D50

def pmConfigVersionMajor : UInt16 := 3
def pmConfigVersionMinor : UInt16 := 1

def pmConfigValid : UInt8 := 0
def pmConfigInvalid : UInt8 := 1

/-- `OPP_DXS_MAX`. -/
abbrev oppDxsMax : Nat := 13

/-- `OPP_PWR_RAIL_MAX`. -/
abbrev oppPwrRailMax : Nat := 8

/-- `MAX_FAN_NUM`. -/
abbrev maxFanNum : Nat := 3

/-- `MAX_FAN_TABLE_ENTRIES`. -/
abbrev maxFanTableEntries : Nat := 9

/-- `FAN_MODE_MAX`; the modes are NORMAL, PERFORMANCE and QUIET. -/
abbrev fanModeMax : Nat := 3

/-- `DOMAIN_MAX_OPP_ENTRIES`. -/
abbrev domainMaxOppEntries : Nat := 13

/-- `DOMAIN_MAX_COUNT`. -/
abbrev domainMaxCount : Nat := 13

/-- `SPT_CTRL_MAX`. -/
abbrev sptCtrlMax : Nat := 4

/-! ## Structures -/

/-- `config_data_t`: a valid bit, 0 for valid and 1 for invalid, below 31 bits of
    data. -/
structure ConfigData where
  data : UInt32
deriving DecidableEq

/-- `fields.valid`. -/
def ConfigData.valid (c : ConfigData) : UInt32 := c.data &&& 1

/-- `fields.raw_data`. -/
def ConfigData.rawData (c : ConfigData) : UInt32 := c.data >>> 1

/-- `DPM_PWR_RAIL_CFG`: bit fields in two words. -/
structure DpmPwrRailCfg where
  word0 : UInt32
  word1 : UInt32
deriving DecidableEq

/-- `pm_config_pmic_t`. -/
structure PmConfigPmic where
  pmicScheme : ConfigData
  oppMax : Fin oppDxsMax → UInt16
  edpCfg : Fin oppPwrRailMax → DpmPwrRailCfg

/-- `board_sensor_config_t`; `i2c_ctrl` shares the lowest byte of `reg_id`. -/
structure BoardSensorConfig where
  sensorValid : ConfigData
  regId : UInt32
deriving DecidableEq

/-- `i2c_ctrl`. -/
def BoardSensorConfig.i2cCtrl (c : BoardSensorConfig) : UInt8 := c.regId.toUInt8

/-- `pm_config_pvt_t`. -/
structure PmConfigPvt where
  thermalTripSoc : ConfigData
  weightValid : UInt8
  weight : Fin 13 → UInt8
  boardSensor1 : BoardSensorConfig
  boardSensor2 : BoardSensorConfig

/-- `rpm_entry_t`. -/
structure RpmEntry where
  rpm : UInt16
  upTemp : Int8
  downTemp : Int8
deriving DecidableEq

/-- `pm_config_fan_t`. -/
structure PmConfigFan where
  fanValid : ConfigData
  rpmTableValid : Fin fanModeMax → UInt8
  rpmTableItems : Fin fanModeMax → UInt8
  rpmTable : Fin fanModeMax → Fin maxFanTableEntries → RpmEntry
  fanId : ConfigData
  sensorId : ConfigData
  fanPolarity : ConfigData
  scaleupMargin : ConfigData
  pwmFreq : ConfigData

/-- `dvfs_opp_t`. -/
structure DvfsOpp where
  level : UInt32
  voltage : UInt32
  frequency : UInt32
  power : UInt32
deriving DecidableEq

/-- `domain_opp_config_t`. -/
structure DomainOppConfig where
  size : UInt16
  sustainedIdx : UInt16
  oppTable : Fin domainMaxOppEntries → DvfsOpp

/-- `pm_config_opp_t`. -/
structure PmConfigOpp where
  oppValid : UInt8
  opps : Fin domainMaxCount → DomainOppConfig

/-- `pm_config_log_t`. -/
structure PmConfigLog where
  logEnable : ConfigData
  uartBaudrate : ConfigData
deriving DecidableEq

/-- `pm_config_vmin_t`. -/
structure PmConfigVmin where
  vminDisable : ConfigData
  vminProfile : ConfigData
deriving DecidableEq

/-- `pm_config_noc_idle_t`. -/
structure PmConfigNocIdle where
  nocIdleEnable : ConfigData
  nocIdleAmu1Thro0 : ConfigData
  nocIdleAmu1Thro1 : ConfigData
  nocIdleDdrDymPwrThro : ConfigData
  nocIdleHysteresis : ConfigData
deriving DecidableEq

/-- `pm_config_spt_t`. -/
structure PmConfigSpt where
  sptEnableMask : ConfigData
  sptSetpoints : Fin sptCtrlMax → ConfigData
  sptSkinMargin : ConfigData
  sptSkinCoeffKh : ConfigData
  sptSkinCoeffKa : ConfigData
  sptSkinCoeffC : ConfigData
  sptSkinCoeffAlpha : ConfigData

/-- `pm_config_gpio_t`. -/
structure PmConfigGpio where
  gpio : Fin 3 → ConfigData

/-- `pm_export_config_t`. -/
structure PmExportConfig where
  pmicConfig : PmConfigPmic
  pvtConfig : PmConfigPvt
  oppConfig : PmConfigOpp
  fanConfig : Fin maxFanNum → PmConfigFan
  logConfig : PmConfigLog
  vminConfig : PmConfigVmin
  nocIdleConfig : PmConfigNocIdle
  sptConfig : PmConfigSpt
  wdtTimeout : ConfigData
  opp100MEnable : ConfigData
  gpioConfig : PmConfigGpio
  reserved : Fin 111 → UInt8

/-- `pm_export_config_crc_t`. -/
structure PmExportConfigCrc where
  versionMajor : UInt16
  versionMinor : UInt16
  timestamp : UInt32
  length : UInt32
  signature : UInt32
  crc1 : UInt32
  crc2 : UInt32
  config : PmExportConfig
  padding : Fin 2 → UInt8

/-! ## Layouts -/

def i8 : Layout Int8 :=
  u8.iso UInt8.toInt8 Int8.toUInt8 (fun _ => rfl) (fun _ => rfl)

def ConfigData.layout : Layout ConfigData :=
  u32.iso (fun w => ⟨w⟩) (fun c => c.data) (fun _ => rfl) (fun _ => rfl)

def DpmPwrRailCfg.layout : Layout DpmPwrRailCfg :=
  (u32.pair u32).iso (fun p => ⟨p.1, p.2⟩) (fun c => (c.word0, c.word1))
    (fun _ => rfl) (fun _ => rfl)

def PmConfigPmic.layout : Layout PmConfigPmic :=
  (ConfigData.layout.pair
    ((u16.array oppDxsMax).pair (DpmPwrRailCfg.layout.array oppPwrRailMax))).iso
    (fun p => ⟨p.1, p.2.1, p.2.2⟩) (fun c => (c.pmicScheme, c.oppMax, c.edpCfg))
    (fun _ => rfl) (fun _ => rfl)

def BoardSensorConfig.layout : Layout BoardSensorConfig :=
  (ConfigData.layout.pair u32).iso (fun p => ⟨p.1, p.2⟩) (fun c => (c.sensorValid, c.regId))
    (fun _ => rfl) (fun _ => rfl)

def PmConfigPvt.layout : Layout PmConfigPvt :=
  (ConfigData.layout.pair (u8.pair ((u8.array 13).pair
    (BoardSensorConfig.layout.pair BoardSensorConfig.layout)))).iso
    (fun p => ⟨p.1, p.2.1, p.2.2.1, p.2.2.2.1, p.2.2.2.2⟩)
    (fun c => (c.thermalTripSoc, c.weightValid, c.weight, c.boardSensor1, c.boardSensor2))
    (fun _ => rfl) (fun _ => rfl)

def RpmEntry.layout : Layout RpmEntry :=
  (u16.pair (i8.pair i8)).iso (fun p => ⟨p.1, p.2.1, p.2.2⟩)
    (fun e => (e.rpm, e.upTemp, e.downTemp)) (fun _ => rfl) (fun _ => rfl)

def PmConfigFan.layout : Layout PmConfigFan :=
  (ConfigData.layout.pair ((u8.array fanModeMax).pair ((u8.array fanModeMax).pair
    (((RpmEntry.layout.array maxFanTableEntries).array fanModeMax).pair
      (ConfigData.layout.pair (ConfigData.layout.pair (ConfigData.layout.pair
        (ConfigData.layout.pair ConfigData.layout)))))))).iso
    (fun p => ⟨p.1, p.2.1, p.2.2.1, p.2.2.2.1, p.2.2.2.2.1, p.2.2.2.2.2.1, p.2.2.2.2.2.2.1,
      p.2.2.2.2.2.2.2.1, p.2.2.2.2.2.2.2.2⟩)
    (fun c => (c.fanValid, c.rpmTableValid, c.rpmTableItems, c.rpmTable, c.fanId, c.sensorId,
      c.fanPolarity, c.scaleupMargin, c.pwmFreq))
    (fun _ => rfl) (fun _ => rfl)

def DvfsOpp.layout : Layout DvfsOpp :=
  (u32.pair (u32.pair (u32.pair u32))).iso (fun p => ⟨p.1, p.2.1, p.2.2.1, p.2.2.2⟩)
    (fun o => (o.level, o.voltage, o.frequency, o.power)) (fun _ => rfl) (fun _ => rfl)

def DomainOppConfig.layout : Layout DomainOppConfig :=
  (u16.pair (u16.pair (DvfsOpp.layout.array domainMaxOppEntries))).iso
    (fun p => ⟨p.1, p.2.1, p.2.2⟩) (fun c => (c.size, c.sustainedIdx, c.oppTable))
    (fun _ => rfl) (fun _ => rfl)

def PmConfigOpp.layout : Layout PmConfigOpp :=
  (u8.pair (DomainOppConfig.layout.array domainMaxCount)).iso (fun p => ⟨p.1, p.2⟩)
    (fun c => (c.oppValid, c.opps)) (fun _ => rfl) (fun _ => rfl)

def PmConfigLog.layout : Layout PmConfigLog :=
  (ConfigData.layout.pair ConfigData.layout).iso (fun p => ⟨p.1, p.2⟩)
    (fun c => (c.logEnable, c.uartBaudrate)) (fun _ => rfl) (fun _ => rfl)

def PmConfigVmin.layout : Layout PmConfigVmin :=
  (ConfigData.layout.pair ConfigData.layout).iso (fun p => ⟨p.1, p.2⟩)
    (fun c => (c.vminDisable, c.vminProfile)) (fun _ => rfl) (fun _ => rfl)

def PmConfigNocIdle.layout : Layout PmConfigNocIdle :=
  (ConfigData.layout.pair (ConfigData.layout.pair (ConfigData.layout.pair
    (ConfigData.layout.pair ConfigData.layout)))).iso
    (fun p => ⟨p.1, p.2.1, p.2.2.1, p.2.2.2.1, p.2.2.2.2⟩)
    (fun c => (c.nocIdleEnable, c.nocIdleAmu1Thro0, c.nocIdleAmu1Thro1, c.nocIdleDdrDymPwrThro,
      c.nocIdleHysteresis))
    (fun _ => rfl) (fun _ => rfl)

def PmConfigSpt.layout : Layout PmConfigSpt :=
  (ConfigData.layout.pair ((ConfigData.layout.array sptCtrlMax).pair
    (ConfigData.layout.pair (ConfigData.layout.pair (ConfigData.layout.pair
      (ConfigData.layout.pair ConfigData.layout)))))).iso
    (fun p => ⟨p.1, p.2.1, p.2.2.1, p.2.2.2.1, p.2.2.2.2.1, p.2.2.2.2.2.1, p.2.2.2.2.2.2⟩)
    (fun c => (c.sptEnableMask, c.sptSetpoints, c.sptSkinMargin, c.sptSkinCoeffKh,
      c.sptSkinCoeffKa, c.sptSkinCoeffC, c.sptSkinCoeffAlpha))
    (fun _ => rfl) (fun _ => rfl)

def PmConfigGpio.layout : Layout PmConfigGpio :=
  (ConfigData.layout.array 3).iso (fun v => ⟨v⟩) (fun c => c.gpio) (fun _ => rfl) (fun _ => rfl)

def PmExportConfig.layout : Layout PmExportConfig :=
  (PmConfigPmic.layout.pair (PmConfigPvt.layout.pair (PmConfigOpp.layout.pair
    ((PmConfigFan.layout.array maxFanNum).pair (PmConfigLog.layout.pair
      (PmConfigVmin.layout.pair (PmConfigNocIdle.layout.pair (PmConfigSpt.layout.pair
        (ConfigData.layout.pair (ConfigData.layout.pair (PmConfigGpio.layout.pair
          (u8.array 111)))))))))))).iso
    (fun p => ⟨p.1, p.2.1, p.2.2.1, p.2.2.2.1, p.2.2.2.2.1, p.2.2.2.2.2.1, p.2.2.2.2.2.2.1,
      p.2.2.2.2.2.2.2.1, p.2.2.2.2.2.2.2.2.1, p.2.2.2.2.2.2.2.2.2.1, p.2.2.2.2.2.2.2.2.2.2.1,
      p.2.2.2.2.2.2.2.2.2.2.2⟩)
    (fun c => (c.pmicConfig, c.pvtConfig, c.oppConfig, c.fanConfig, c.logConfig, c.vminConfig,
      c.nocIdleConfig, c.sptConfig, c.wdtTimeout, c.opp100MEnable, c.gpioConfig, c.reserved))
    (fun _ => rfl) (fun _ => rfl)

namespace PmExportConfigCrc

/-- The fields in front of `crc1`. -/
def headLayout : Layout (UInt16 × UInt16 × UInt32 × UInt32 × UInt32) :=
  u16.pair (u16.pair (u32.pair (u32.pair u32)))

def layout : Layout PmExportConfigCrc :=
  (headLayout.pair (u32.pair (u32.pair (PmExportConfig.layout.pair (u8.array 2))))).iso
    (fun p => ⟨p.1.1, p.1.2.1, p.1.2.2.1, p.1.2.2.2.1, p.1.2.2.2.2, p.2.1, p.2.2.1, p.2.2.2.1,
      p.2.2.2.2⟩)
    (fun g => ((g.versionMajor, g.versionMinor, g.timestamp, g.length, g.signature),
      g.crc1, g.crc2, g.config, g.padding))
    (fun _ => rfl) (fun _ => rfl)

end PmExportConfigCrc

/-! ## Sizes -/

theorem PmExportConfig.layout_size : PmExportConfig.layout.size = 3506 := by
  decide +kernel

/-- `sizeof (pm_export_config_crc_t)`. -/
theorem PmExportConfigCrc.layout_size : PmExportConfigCrc.layout.size = 3532 := by
  decide +kernel

/-! ## Erased tables -/

def DomainOppConfig.sizeField : DomainOppConfig.layout.Field u16 := (Field.fst _ _).iso

def PmConfigFan.fanValidField : PmConfigFan.layout.Field ConfigData.layout := (Field.fst _ _).iso

/-- The size in a table whose bytes are all `b`. -/
theorem size_filled (b : UInt8) : (DomainOppConfig.layout.filled b).size = u16.filled b :=
  DomainOppConfig.sizeField.get_filled b

theorem fanValid_filled (b : UInt8) :
    (PmConfigFan.layout.filled b).fanValid = ConfigData.layout.filled b :=
  PmConfigFan.fanValidField.get_filled b

/-! ## Sections

The members of the block that generate mode copies to, as fields of its layout. -/

namespace PmExportConfigCrc

def crc1Field : layout.Field u32 := (Field.fst _ _).right.iso

def crc2Field : layout.Field u32 := (Field.fst _ _).right.right.iso

def configField : layout.Field PmExportConfig.layout := (Field.fst _ _).right.right.right.iso

def paddingField : layout.Field (u8.array 2) := (Field.snd _ _).right.right.right.iso

def pmicSection : layout.Field PmConfigPmic.layout :=
  configField.comp (Field.fst _ _).iso

def pvtSection : layout.Field PmConfigPvt.layout :=
  configField.comp (Field.fst _ _).right.iso

def oppSection : layout.Field PmConfigOpp.layout :=
  configField.comp (Field.fst _ _).right.right.iso

def fanSection : layout.Field (PmConfigFan.layout.array maxFanNum) :=
  configField.comp (Field.fst _ _).right.right.right.iso

def logSection : layout.Field PmConfigLog.layout :=
  configField.comp (Field.fst _ _).right.right.right.right.iso

def vminSection : layout.Field PmConfigVmin.layout :=
  configField.comp (Field.fst _ _).right.right.right.right.right.iso

def nocIdleSection : layout.Field PmConfigNocIdle.layout :=
  configField.comp (Field.fst _ _).right.right.right.right.right.right.iso

def sptSection : layout.Field PmConfigSpt.layout :=
  configField.comp (Field.fst _ _).right.right.right.right.right.right.right.iso

def wdtSection : layout.Field ConfigData.layout :=
  configField.comp (Field.fst _ _).right.right.right.right.right.right.right.right.iso

def opp100MSection : layout.Field ConfigData.layout :=
  configField.comp (Field.fst _ _).right.right.right.right.right.right.right.right.right.iso

def gpioSection : layout.Field PmConfigGpio.layout :=
  configField.comp (Field.fst _ _).right.right.right.right.right.right.right.right.right.right.iso

def reservedSection : layout.Field (u8.array 111) :=
  configField.comp (Field.snd _ _).right.right.right.right.right.right.right.right.right.right.iso

/-- `fan_config[i]`. -/
def fanField (i : Fin maxFanNum) : layout.Field PmConfigFan.layout :=
  fanSection.comp (Field.elem _ _ i)

/-- `opp_config.opp_valid`. -/
def oppValidField : layout.Field u8 :=
  oppSection.comp (Field.fst _ _).iso

/-- `opp_config.opps[i]`. -/
def oppsField (i : Fin domainMaxCount) : layout.Field DomainOppConfig.layout :=
  oppSection.comp (Field.elem _ _ i).right.iso

/-- The block with other OPP tables. -/
def withOpps (g : PmExportConfigCrc) (opps : Fin domainMaxCount → DomainOppConfig) :
    PmExportConfigCrc :=
  { g with config := { g.config with oppConfig := { g.config.oppConfig with opps := opps } } }

@[simp] theorem withOpps_opps (g : PmExportConfigCrc)
    (opps : Fin domainMaxCount → DomainOppConfig) :
    (withOpps g opps).config.oppConfig.opps = opps := rfl

theorem withOpps_self (g : PmExportConfigCrc) : withOpps g g.config.oppConfig.opps = g := rfl

theorem withOpps_withOpps (g : PmExportConfigCrc)
    (opps opps' : Fin domainMaxCount → DomainOppConfig) :
    withOpps (withOpps g opps) opps' = withOpps g opps' := rfl

theorem oppsField_set (g : PmExportConfigCrc) (i : Fin domainMaxCount)
    (config : DomainOppConfig) :
    (oppsField i).set g config =
      withOpps g (Function.update g.config.oppConfig.opps i config) := rfl

theorem crcFields_set (g : PmExportConfigCrc) (c₁ c₂ : UInt32) :
    crc2Field.set (crc1Field.set g c₁) c₂ = { g with crc1 := c₁, crc2 := c₂ } := rfl

theorem oppSection_set (g : PmExportConfigCrc) (v : UInt8)
    (opps : Fin domainMaxCount → DomainOppConfig) :
    oppSection.set g ⟨v, opps⟩ = withOpps (oppValidField.set g v) opps := rfl

theorem oppValidField_set_opps (g : PmExportConfigCrc) (v : UInt8) :
    (oppValidField.set g v).config.oppConfig.opps = (oppSection.get g).opps := rfl

example : (fanSection.offset, gpioSection.offset, reservedSection.offset) = (2909, 3407, 3419) := by
  decide +kernel

end PmExportConfigCrc

end PmConfig
