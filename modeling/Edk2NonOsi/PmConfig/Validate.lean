-- SUMMARY: The validators of `csupm_bin_config.c`, with every read that may leave an object or go through a null pointer, and what they establish.
import Edk2NonOsi.PmConfig.ExportConfig

namespace PmConfig

/-! ## OPP tables -/

/-- `DVFS_ELEMENT_IDX_LITTLE`, `DVFS_ELEMENT_IDX_MID_G1` and
    `DVFS_ELEMENT_IDX_DSU`; the CPU domains are those from the first to the second. -/
abbrev dvfsElementIdxLittle : Nat := 2
abbrev dvfsElementIdxMidG1 : Nat := 6
abbrev dvfsElementIdxDsu : Nat := 7

/-- `volt_abs`. -/
def voltAbs (a b : UInt32) : UInt32 :=
  if a ≥ b then a - b else b - a

/-- The first loop of `check_opp_table`. -/
def checkSizes : List (Option DomainOppConfig) → Bool
  | [] => true
  | none :: rest => checkSizes rest
  | some config :: rest =>
    if config.sustainedIdx ≥ config.size then false
    else if config.size.toNat > domainMaxOppEntries then false
    else checkSizes rest

/-- `config->opp_table[config->sustained_idx]`. -/
def sustainedOpp (config : DomainOppConfig) : Except C.Fault DvfsOpp :=
  C.arrayAt config.oppTable config.sustainedIdx.toNat

/-- The second loop, over the indices still to visit. -/
def checkCpuDomains (domOpps : List (Option DomainOppConfig)) (dsu : DvfsOpp) :
    List Nat → Except C.Fault Bool
  | [] => return true
  | i :: rest =>
    if i < dvfsElementIdxLittle ∨ i > dvfsElementIdxMidG1 then checkCpuDomains domOpps dsu rest
    else do
      let config ← C.listAt domOpps i
      -- No test for NULL here, unlike in the first loop.
      let config ← C.deref config
      let opp ← sustainedOpp config
      if voltAbs opp.voltage dsu.voltage > 200 then return false
      else if opp.frequency / 2 > dsu.frequency then return false
      else checkCpuDomains domOpps dsu rest

/-- `check_opp_table`, on the array `dom_opps`. -/
def checkOppTable (domOpps : List (Option DomainOppConfig)) : Except C.Fault Bool :=
  if checkSizes domOpps then do
    match ← C.listAt domOpps dvfsElementIdxDsu with
    | none => return false
    | some config =>
      let dsu ← sustainedOpp config
      checkCpuDomains domOpps dsu (List.range domOpps.length)
  else return false

/-! ## Fan tables -/

/-- The loop of `check_rpm_table`, over the indices still to visit. -/
def checkRpmEntries (rpmTable : Fin maxFanTableEntries → RpmEntry) :
    List Nat → Except C.Fault Int
  | [] => return 0
  | i :: rest => do
    let entry ← C.arrayAt rpmTable i
    let previous ← C.arrayAt rpmTable (i - 1)
    if entry.rpm ≤ previous.rpm ∨ entry.upTemp ≤ previous.upTemp ∨
        entry.downTemp ≤ previous.downTemp then return -1
    else checkRpmEntries rpmTable rest

/-- `check_rpm_table`. -/
def checkRpmTable (rpmTable : Fin maxFanTableEntries → RpmEntry) (num : Nat) :
    Except C.Fault Int :=
  checkRpmEntries rpmTable (List.range' 1 (num - 1))

/-- The loop of `check_fan_table` over the modes of one fan: whether all its
    tables pass. -/
def checkFanModes (ptr : PmConfigFan) : List (Fin fanModeMax) → Except C.Fault Bool
  | [] => return true
  | m :: rest =>
    if ptr.rpmTableValid m = pmConfigInvalid then checkFanModes ptr rest
    else if ptr.rpmTableItems m < 2 ∨ (ptr.rpmTableItems m).toNat > maxFanTableEntries then
      return false
    else do
      if (← checkRpmTable (ptr.rpmTable m) (ptr.rpmTableItems m).toNat) ≠ 0 then return false
      else checkFanModes ptr rest

/-- The loop over the fans. -/
def checkFans (config : List PmConfigFan) : List Nat → Except C.Fault Int
  | [] => return 0
  | i :: rest => do
    let ptr ← C.listAt config i
    if ptr.fanValid.valid = pmConfigInvalid.toUInt32 then checkFans config rest
    else if ptr.fanId.valid = pmConfigValid.toUInt32 ∧ ptr.fanId.rawData.toNat ≥ maxFanNum then
      return -1
    else do
      if ← checkFanModes ptr (List.finRange fanModeMax) then checkFans config rest
      else return -1

/-- `check_fan_table`. -/
def checkFanTable (config : List PmConfigFan) (num : Nat) : Except C.Fault Int :=
  checkFans config (List.range num)

/-! ## Sensors and pins -/

/-- `check_board_sensor`. -/
def checkBoardSensor (config : BoardSensorConfig) : Int :=
  if config.sensorValid.valid = pmConfigValid.toUInt32 then
    if config.sensorValid.rawData > 1 then -1
    else if config.sensorValid.rawData = 0 ∧ (config.regId < 0x10 ∨ config.regId ≥ 0x20) then -1
    else if config.sensorValid.rawData = 1 ∧ config.i2cCtrl > 3 then -1
    else 0
  else 0

/-- `total_weight`. -/
def totalWeight (config : PmConfigPvt) : UInt32 :=
  (List.ofFn config.weight).foldl (fun total weight => total + weight.toUInt32) 0

/-- `check_pvt_config`. -/
def checkPvtConfig (config : PmConfigPvt) : Int :=
  if config.weightValid = pmConfigValid ∧ totalWeight config ≠ 1024 then -1
  else if checkBoardSensor config.boardSensor1 ≠ 0 ∨ checkBoardSensor config.boardSensor2 ≠ 0 then
    -1
  else 0

/-- `pm_gpio_function_t`. -/
def pmGpioFuncNull : UInt32 := 0
def pmGpioFuncMax : UInt32 := 4

/-- The loop of `check_gpio_config`, over the pins still to visit. -/
def checkGpios (config : PmConfigGpio) : List (Fin 3) → Int
  | [] => 0
  | i :: rest =>
    if (config.gpio i).valid = pmConfigValid.toUInt32 ∧
        ((config.gpio i).rawData ≥ pmGpioFuncMax ∨ (config.gpio i).rawData = pmGpioFuncNull) then -1
    else checkGpios config rest

/-- `check_gpio_config`. -/
def checkGpioConfig (config : PmConfigGpio) : Int :=
  checkGpios config (List.finRange 3)

/-! ## What the validators establish -/

/-- The table of a domain holds its entries, the sustained one among them. -/
def SizeOk (config : DomainOppConfig) : Prop :=
  config.sustainedIdx < config.size ∧ config.size.toNat ≤ domainMaxOppEntries

theorem checkSizes_iff (domOpps : List (Option DomainOppConfig)) :
    checkSizes domOpps = true ↔ ∀ config, some config ∈ domOpps → SizeOk config := by
  induction domOpps with
  | nil => simp [checkSizes]
  | cons d rest ih =>
    cases d with
    | none => simp [checkSizes, ih]
    | some config =>
      simp only [checkSizes, List.mem_cons, Option.some.injEq, forall_eq_or_imp, ← ih]
      split
      next hidx =>
        have hnot : ¬ SizeOk config := fun h => absurd h.1 (UInt16.not_lt.mpr hidx)
        simp [hnot]
      next hidx =>
        split
        next hsize =>
          have hnot : ¬ SizeOk config := fun h => absurd h.2 (Nat.not_le.mpr hsize)
          simp [hnot]
        next hsize =>
          have hok : SizeOk config := ⟨UInt16.not_le.mp hidx, Nat.not_lt.mp hsize⟩
          simp [hok]

theorem checkOppTable_sizes {domOpps : List (Option DomainOppConfig)}
    (h : checkOppTable domOpps = .ok true) :
    ∀ config, some config ∈ domOpps → SizeOk config := by
  unfold checkOppTable at h
  split at h
  next hsizes => exact (checkSizes_iff domOpps).mp hsizes
  next => cases h

end PmConfig
