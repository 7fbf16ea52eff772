-- SUMMARY: `dump_config` as the array accesses it makes, parse mode of `csupm_bin_config.c`, and exactly which files keep them in bounds.
import Edk2NonOsi.PmConfig.ExportConfig

namespace PmConfig

-- ---------------------------------------------------------------------------
-- Accesses
-- ---------------------------------------------------------------------------

/-- The arrays the dump indexes. `rpmTableRow` is the inner dimension of
    `rpm_table`, and `sensorName` the table of names in `dump_pvt_config`. -/
inductive ArrayName where
  | oppMax
  | edpCfg
  | opps
  | oppTable
  | fanConfig
  | rpmTableValid
  | rpmTableItems
  | rpmTable
  | rpmTableRow
  | sensorName
  | weight
  | sptSetpoints
  | gpio
deriving DecidableEq

def ArrayName.length : ArrayName → Nat
  | .oppMax => oppDxsMax
  | .edpCfg => oppPwrRailMax
  | .opps => domainMaxCount
  | .oppTable => domainMaxOppEntries
  | .fanConfig => maxFanNum
  | .rpmTableValid => fanModeMax
  | .rpmTableItems => fanModeMax
  | .rpmTable => fanModeMax
  | .rpmTableRow => maxFanTableEntries
  | .sensorName => 13
  | .weight => 13
  | .sptSetpoints => sptCtrlMax
  | .gpio => 3

/-- The access to element `index` of an array. -/
structure Access where
  array : ArrayName
  index : Nat
deriving DecidableEq

def Access.InBounds (a : Access) : Prop :=
  a.index < a.array.length

instance (a : Access) : Decidable a.InBounds :=
  inferInstanceAs (Decidable (a.index < a.array.length))

/-- Run the accesses of a dump: the first one out of bounds is a fault. -/
def runAccesses (accesses : List Access) : Except C.Fault Unit :=
  if ∀ a ∈ accesses, a.InBounds then .ok () else .error .outOfBounds

theorem runAccesses_of_inBounds {accesses : List Access} (h : ∀ a ∈ accesses, a.InBounds) :
    runAccesses accesses = .ok () :=
  if_pos h

-- ---------------------------------------------------------------------------
-- The dump functions
-- ---------------------------------------------------------------------------

/-- `CONFIG_EDP_CFG_CUSTOM`. -/
def configEdpCfgCustom : UInt32 := 0

/-- `dump_pmic_config`. -/
def dumpPmicConfig (config : PmConfigPmic) : List Access :=
  if config.pmicScheme.valid ≠ pmConfigValid.toUInt32 ∨
      config.pmicScheme.rawData ≠ configEdpCfgCustom then []
  else (List.range oppDxsMax).map (⟨.oppMax, ·⟩) ++ (List.range oppPwrRailMax).map (⟨.edpCfg, ·⟩)

/-- The accesses of `dump_opp_config` for one domain. -/
def dumpDomain (config : DomainOppConfig) : List Access :=
  if config.size = 0xFFFF then []
  else (List.range config.size.toNat).map (⟨.oppTable, ·⟩)

/-- `dump_opp_config`. -/
def dumpOppConfig (config : PmConfigOpp) : List Access :=
  (List.finRange domainMaxCount).flatMap fun (i : Fin domainMaxCount) =>
    ⟨.opps, i⟩ :: dumpDomain (config.opps i)

/-- `dump_pvt_config`. -/
def dumpPvtConfig (config : PmConfigPvt) : List Access :=
  if config.weightValid = pmConfigValid then
    (List.range 13).flatMap fun i => [⟨.sensorName, i⟩, ⟨.weight, i⟩]
  else []

/-- The accesses of `dump_fan_config` for mode `j` of a fan. -/
def dumpMode (config : PmConfigFan) (j : Fin fanModeMax) : List Access :=
  if config.rpmTableValid j = 0 then
    ⟨.rpmTableItems, j⟩ :: (List.range (config.rpmTableItems j).toNat).flatMap fun k =>
      [⟨.rpmTable, j⟩, ⟨.rpmTableRow, k⟩]
  else []

/-- The accesses for one fan. -/
def dumpFan (config : PmConfigFan) : List Access :=
  if config.fanValid.valid = pmConfigInvalid.toUInt32 then []
  else (List.finRange fanModeMax).flatMap fun (j : Fin fanModeMax) =>
    ⟨.rpmTableValid, j⟩ :: dumpMode config j

/-- `dump_fan_config`. -/
def dumpFanConfig (config : Fin maxFanNum → PmConfigFan) : List Access :=
  (List.finRange maxFanNum).flatMap fun (i : Fin maxFanNum) =>
    ⟨.fanConfig, i⟩ :: dumpFan (config i)

/-- `dump_spt_config`. -/
def dumpSptConfig (config : PmConfigSpt) : List Access :=
  if config.sptEnableMask.valid = pmConfigInvalid.toUInt32 then []
  else (List.range sptCtrlMax).map (⟨.sptSetpoints, ·⟩)

/-- `dump_gpio_config`. -/
def dumpGpioConfig : List Access :=
  (List.range 3).map (⟨.gpio, ·⟩)

/-- `dump_config`. The sections it prints member by member (log, vmin, NOC idle,
    watchdog and 100M) index no array. -/
def dumpConfig (g : PmExportConfigCrc) : List Access :=
  dumpPmicConfig g.config.pmicConfig ++ dumpOppConfig g.config.oppConfig ++
    dumpPvtConfig g.config.pvtConfig ++ dumpFanConfig g.config.fanConfig ++
    dumpSptConfig g.config.sptConfig ++ dumpGpioConfig

-- ---------------------------------------------------------------------------
-- Accesses in bounds
-- ---------------------------------------------------------------------------

/-- The dump of a domain stays in its table: the size is the one of an erased
    entry, which is skipped, or fits. -/
def DomainFits (config : DomainOppConfig) : Prop :=
  config.size = 0xFFFF ∨ config.size.toNat ≤ domainMaxOppEntries

/-- The dump of a fan stays in its tables. -/
def FanFits (config : PmConfigFan) : Prop :=
  config.fanValid.valid ≠ pmConfigInvalid.toUInt32 →
    ∀ j, config.rpmTableValid j = 0 → (config.rpmTableItems j).toNat ≤ maxFanTableEntries

theorem forall_mem_range_map {P : Access → Prop} {name : ArrayName} {n : Nat} :
    (∀ a ∈ (List.range n).map (Access.mk name), P a) ↔ ∀ k < n, P ⟨name, k⟩ := by
  simp

/-- A loop from 0 is in bounds exactly when it ends within the array. -/
theorem inBounds_range_iff (name : ArrayName) (n : Nat) :
    (∀ k < n, (Access.mk name k).InBounds) ↔ n ≤ name.length := by
  constructor
  · intro h
    by_contra hlt
    exact Nat.lt_irrefl _ (h name.length (Nat.lt_of_not_le hlt))
  · intro hle k hk
    exact Nat.lt_of_lt_of_le hk hle

/-- A loop over a whole array that accesses each element and then goes on with it. -/
theorem forall_mem_elements_iff (name : ArrayName) {n : Nat} (hn : n ≤ name.length)
    {rest : Fin n → List Access} :
    (∀ a ∈ (List.finRange n).flatMap fun (i : Fin n) => Access.mk name i :: rest i, a.InBounds) ↔
      ∀ i, ∀ a ∈ rest i, a.InBounds := by
  have hhead (i : Fin n) : (Access.mk name i).InBounds := Nat.lt_of_lt_of_le i.isLt hn
  simp only [List.forall_mem_flatMap, List.mem_finRange, true_implies, List.forall_mem_cons, hhead,
    true_and]

theorem inBounds_dumpPmicConfig (config : PmConfigPmic) :
    ∀ a ∈ dumpPmicConfig config, a.InBounds := by
  unfold dumpPmicConfig
  split
  next => simp
  next =>
    rw [List.forall_mem_append, forall_mem_range_map, forall_mem_range_map, inBounds_range_iff,
      inBounds_range_iff]
    exact ⟨Nat.le_refl _, Nat.le_refl _⟩

theorem inBounds_dumpDomain_iff (config : DomainOppConfig) :
    (∀ a ∈ dumpDomain config, a.InBounds) ↔ DomainFits config := by
  unfold dumpDomain DomainFits
  split
  next h => simp [h]
  next h =>
    rw [forall_mem_range_map, inBounds_range_iff]
    simp only [h, false_or]
    rfl

theorem inBounds_dumpOppConfig_iff (config : PmConfigOpp) :
    (∀ a ∈ dumpOppConfig config, a.InBounds) ↔ ∀ i, DomainFits (config.opps i) := by
  rw [dumpOppConfig, forall_mem_elements_iff .opps (show domainMaxCount ≤ _ from Nat.le_refl _)]
  exact forall_congr' fun i => inBounds_dumpDomain_iff (config.opps i)

theorem inBounds_dumpPvtConfig (config : PmConfigPvt) :
    ∀ a ∈ dumpPvtConfig config, a.InBounds := by
  unfold dumpPvtConfig
  split
  next =>
    simp only [List.forall_mem_flatMap, List.mem_range, List.forall_mem_cons, List.not_mem_nil,
      false_implies, implies_true, and_true]
    exact fun i hi => ⟨hi, hi⟩
  next => simp

theorem inBounds_dumpMode_iff (config : PmConfigFan) (j : Fin fanModeMax) :
    (∀ a ∈ dumpMode config j, a.InBounds) ↔
      (config.rpmTableValid j = 0 → (config.rpmTableItems j).toNat ≤ maxFanTableEntries) := by
  unfold dumpMode
  split
  next h =>
    have hrow := inBounds_range_iff .rpmTableRow (config.rpmTableItems j).toNat
    have hmode (name : ArrayName) (hname : fanModeMax ≤ name.length) :
        (Access.mk name j).InBounds := Nat.lt_of_lt_of_le j.isLt hname
    simp only [List.forall_mem_flatMap, List.mem_range, List.forall_mem_cons, List.not_mem_nil,
      false_implies, implies_true, and_true, hmode .rpmTableItems (Nat.le_refl _),
      hmode .rpmTable (Nat.le_refl _), true_and, hrow, h, true_implies]
    rfl
  next h => simp [h]

theorem inBounds_dumpFan_iff (config : PmConfigFan) :
    (∀ a ∈ dumpFan config, a.InBounds) ↔ FanFits config := by
  unfold dumpFan FanFits
  split
  next h => simp [h]
  next h =>
    rw [forall_mem_elements_iff .rpmTableValid (show fanModeMax ≤ _ from Nat.le_refl _)]
    simp only [inBounds_dumpMode_iff, ne_eq, h, not_false_eq_true, true_implies]

theorem inBounds_dumpFanConfig_iff (config : Fin maxFanNum → PmConfigFan) :
    (∀ a ∈ dumpFanConfig config, a.InBounds) ↔ ∀ i, FanFits (config i) := by
  rw [dumpFanConfig, forall_mem_elements_iff .fanConfig (show maxFanNum ≤ _ from Nat.le_refl _)]
  exact forall_congr' fun i => inBounds_dumpFan_iff (config i)

theorem inBounds_dumpSptConfig (config : PmConfigSpt) :
    ∀ a ∈ dumpSptConfig config, a.InBounds := by
  unfold dumpSptConfig
  split
  next => simp
  next =>
    rw [forall_mem_range_map, inBounds_range_iff]
    exact Nat.le_refl _

theorem inBounds_dumpGpioConfig : ∀ a ∈ dumpGpioConfig, a.InBounds := by
  rw [dumpGpioConfig, forall_mem_range_map, inBounds_range_iff]
  exact Nat.le_refl _

/-- Only the OPP tables and the fan tables can take the dump out of bounds. -/
theorem inBounds_dumpConfig_iff (g : PmExportConfigCrc) :
    (∀ a ∈ dumpConfig g, a.InBounds) ↔
      (∀ i, DomainFits (g.config.oppConfig.opps i)) ∧ ∀ i, FanFits (g.config.fanConfig i) := by
  simp only [dumpConfig, List.forall_mem_append, inBounds_dumpOppConfig_iff,
    inBounds_dumpFanConfig_iff]
  constructor
  · rintro ⟨⟨⟨⟨⟨-, hopps⟩, -⟩, hfans⟩, -⟩, -⟩
    exact ⟨hopps, hfans⟩
  · rintro ⟨hopps, hfans⟩
    exact ⟨⟨⟨⟨⟨inBounds_dumpPmicConfig _, hopps⟩, inBounds_dumpPvtConfig _⟩, hfans⟩,
      inBounds_dumpSptConfig _⟩, inBounds_dumpGpioConfig⟩

-- ---------------------------------------------------------------------------
-- Parse mode
-- ---------------------------------------------------------------------------

open PmExportConfigCrc (layout)

/-- `g_config` after the `fread` of parse mode: it starts out zero, and a short
    read sets its first bytes only. -/
def loadConfig (file : Bytes) : PmExportConfigCrc :=
  layout.dec (Span.write (List.replicate layout.size 0) 0 (file.take layout.size))

/-- Parse mode of `main`, on the named file or on none: its exit status. -/
def parseMode (file : Option Bytes) : Except C.Fault Int := do
  match file with
  | none => return -1
  | some file =>
    runAccesses (dumpConfig (loadConfig file))
    return 0

/-- A file that starts with a block loads that block. -/
theorem loadConfig_append (g : PmExportConfigCrc) (rest : Bytes) :
    loadConfig (layout.enc g ++ rest) = g := by
  have hlen := layout.length_enc g
  have hzero : (List.replicate layout.size (0 : UInt8)).length = layout.size :=
    List.length_replicate
  rw [loadConfig, List.take_left' hlen, Span.write, List.take_zero, List.nil_append, hlen,
    Nat.zero_add, List.drop_of_length_le (Nat.le_of_eq hzero), List.append_nil, layout.dec_enc]

/-- Every element access of the dump is within its array. -/
def ParseInBounds (file : Bytes) : Prop :=
  ∀ a ∈ dumpConfig (loadConfig file), a.InBounds

theorem parseMode_returns_iff (file : Bytes) :
    parseMode (some file) = .ok 0 ↔ ParseInBounds file := by
  show (runAccesses (dumpConfig (loadConfig file)) >>= fun _ => pure 0) = _ ↔ _
  unfold runAccesses ParseInBounds
  split
  next h => exact iff_of_true rfl h
  next h => exact iff_of_false (by rintro ⟨⟩) h

/-- **When parse mode stays inside the tables.** Nothing checks the sizes a file
    gives, so its domains and its fans must fit by themselves; and parse mode runs to
    its end on exactly these files. -/
theorem parseInBounds_iff (file : Bytes) :
    (ParseInBounds file ↔
      (∀ i, DomainFits ((loadConfig file).config.oppConfig.opps i)) ∧
        ∀ i, FanFits ((loadConfig file).config.fanConfig i)) ∧
      (parseMode (some file) = .ok 0 ↔ ParseInBounds file) :=
  ⟨inBounds_dumpConfig_iff (loadConfig file), parseMode_returns_iff file⟩

/-- A block of zeros, but for 14 as the size of the first domain. -/
def oversizedConfig : PmExportConfigCrc :=
  (PmExportConfigCrc.oppsField 0).set (layout.filled 0)
    { size := 14, sustainedIdx := 0, oppTable := fun _ => ⟨0, 0, 0, 0⟩ }

theorem mem_dumpConfig_of_domain {g : PmExportConfigCrc} {a : Access} (i : Fin domainMaxCount)
    (ha : a ∈ dumpDomain (g.config.oppConfig.opps i)) : a ∈ dumpConfig g := by
  have hopp : a ∈ dumpOppConfig g.config.oppConfig :=
    List.mem_flatMap.mpr ⟨i, List.mem_finRange i, List.mem_cons_of_mem _ ha⟩
  simp only [dumpConfig, List.mem_append]
  exact Or.inl (Or.inl (Or.inl (Or.inl (Or.inr hopp))))

/-- Parsing the file with that block reads the element behind an OPP table. -/
theorem parseMode_leaves_opp_table :
    ⟨.oppTable, domainMaxOppEntries⟩ ∈ dumpConfig (loadConfig (layout.enc oversizedConfig)) ∧
      ¬ ParseInBounds (layout.enc oversizedConfig) := by
  have hload := loadConfig_append oversizedConfig []
  rw [List.append_nil] at hload
  have hdomain : oversizedConfig.config.oppConfig.opps 0 =
      { size := 14, sustainedIdx := 0, oppTable := fun _ => ⟨0, 0, 0, 0⟩ } := by
    rw [oversizedConfig, PmExportConfigCrc.oppsField_set, PmExportConfigCrc.withOpps_opps,
      Function.update_self]
  have hmem : ⟨.oppTable, domainMaxOppEntries⟩ ∈ dumpConfig oversizedConfig := by
    apply mem_dumpConfig_of_domain 0
    rw [hdomain]
    decide
  rw [ParseInBounds, hload]
  refine ⟨hmem, ?_⟩
  intro hall
  have hlt : (Access.mk .oppTable domainMaxOppEntries).InBounds := hall _ hmem
  exact Nat.lt_irrefl _ hlt

end PmConfig
