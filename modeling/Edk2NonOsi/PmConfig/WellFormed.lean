-- SUMMARY: Generate mode as a decision: the user configurations it accepts are the well formed ones, and what it does with both kinds.
import Edk2NonOsi.PackageTool.OutputFile
import Edk2NonOsi.PmConfig.OppTable

namespace PmConfig

open PmExportConfigCrc (layout)

-- ---------------------------------------------------------------------------
-- Well formed configurations
-- ---------------------------------------------------------------------------

/-- A sensor on the board: kind 0 sits at a memory register from 0x10 to 0x1F, kind 1
    behind an I2C controller from 0 to 3. -/
structure SensorOk (config : BoardSensorConfig) : Prop where
  kind : config.sensorValid.rawData.toNat ≤ 1
  memory : config.sensorValid.rawData.toNat = 0 →
    0x10 ≤ config.regId.toNat ∧ config.regId.toNat < 0x20
  i2c : config.sensorValid.rawData.toNat = 1 → config.i2cCtrl.toNat ≤ 3

/-- Weights that are given add up to 1024, as numbers. -/
structure PvtOk (config : PmConfigPvt) : Prop where
  weights : config.weightValid = pmConfigValid →
    ((List.ofFn config.weight).map UInt8.toNat).sum = 1024
  sensor1 : config.boardSensor1.sensorValid.valid ≠ pmConfigInvalid.toUInt32 →
    SensorOk config.boardSensor1
  sensor2 : config.boardSensor2.sensorValid.valid ≠ pmConfigInvalid.toUInt32 →
    SensorOk config.boardSensor2

/-- A pin that is given a function is given one that exists. -/
def GpioOk (config : PmConfigGpio) : Prop :=
  ∀ i, (config.gpio i).valid ≠ pmConfigInvalid.toUInt32 →
    0 < (config.gpio i).rawData.toNat ∧ (config.gpio i).rawData.toNat < pmGpioFuncMax.toNat

/-- Each section that is switched on is sound by itself. -/
structure WellFormed (user : UserConfig) : Prop where
  pvt : ∀ c, user.pvtConfig = some c → PvtOk c
  fan : ∀ c, user.fanConfig = some c → ∀ i,
    (c i).fanValid.valid ≠ pmConfigInvalid.toUInt32 → FanOk (c i)
  gpio : ∀ c, user.gpioConfig = some c → GpioOk c
  opp : ∀ l, user.domOpps = some l → ConsistentSet l

/-- The array of OPP tables covers the DSU, has a table for every CPU domain, and is not
    longer than the block has room for. -/
structure DomainsPresent (user : UserConfig) : Prop where
  dsu : ∀ l, user.domOpps = some l → dvfsElementIdxDsu < l.length
  cpus : ∀ l, user.domOpps = some l → ∀ i, dvfsElementIdxLittle ≤ i → i ≤ dvfsElementIdxMidG1 →
    l[i]? ≠ some none
  room : ∀ l, user.domOpps = some l → l.length ≤ domainMaxCount

-- ---------------------------------------------------------------------------
-- Sensors and pins
-- ---------------------------------------------------------------------------

theorem ConfigData.valid_eq_valid_iff (c : ConfigData) :
    c.valid = pmConfigValid.toUInt32 ↔ c.valid ≠ pmConfigInvalid.toUInt32 := by
  have hbit : pmConfigValid.toUInt32 ≠ pmConfigInvalid.toUInt32 := by decide
  cases c.valid_eq with
  | inl hvalid => simp [hvalid, hbit]
  | inr hinvalid => simp [hinvalid, hbit.symm]

theorem checkBoardSensor_eq_zero_iff (config : BoardSensorConfig) :
    checkBoardSensor config = 0 ↔
      (config.sensorValid.valid ≠ pmConfigInvalid.toUInt32 → SensorOk config) := by
  have hrejects : ¬ (-1 : Int) = 0 := by decide
  have hone : (1 : UInt32).toNat = 1 := rfl
  have hfirst : (0x10 : UInt32).toNat = 0x10 := rfl
  have hlast : (0x20 : UInt32).toNat = 0x20 := rfl
  have hthree : (3 : UInt8).toNat = 3 := rfl
  unfold checkBoardSensor
  split
  next hflag =>
    have hvalid := config.sensorValid.valid_eq_valid_iff.mp hflag
    split
    next hkind =>
      refine iff_of_false hrejects fun hok => ?_
      have hle := (hok hvalid).kind
      rw [gt_iff_lt, UInt32.lt_iff_toNat_lt, hone] at hkind
      omega
    next hkind =>
      rw [gt_iff_lt, UInt32.lt_iff_toNat_lt, hone] at hkind
      split
      next hmemory =>
        refine iff_of_false hrejects fun hok => ?_
        obtain ⟨hzero, hreg⟩ := hmemory
        have hrange := (hok hvalid).memory (congrArg UInt32.toNat hzero)
        rw [ge_iff_le, UInt32.lt_iff_toNat_lt, UInt32.le_iff_toNat_le, hfirst, hlast] at hreg
        omega
      next hmemory =>
        split
        next hi2c =>
          refine iff_of_false hrejects fun hok => ?_
          obtain ⟨hkind', hctrl⟩ := hi2c
          have hle := (hok hvalid).i2c (congrArg UInt32.toNat hkind')
          rw [gt_iff_lt, UInt8.lt_iff_toNat_lt, hthree] at hctrl
          omega
        next hi2c =>
          refine iff_of_true rfl fun _ => ⟨by omega, ?_, ?_⟩
          · intro hzero
            have hreg := (not_and.mp hmemory) (UInt32.toNat_inj.mp hzero)
            rw [ge_iff_le, UInt32.lt_iff_toNat_lt, UInt32.le_iff_toNat_le, hfirst, hlast] at hreg
            omega
          · intro hraw
            have hctrl := (not_and.mp hi2c) (UInt32.toNat_inj.mp hraw)
            rw [gt_iff_lt, UInt8.lt_iff_toNat_lt, hthree] at hctrl
            omega
  next hoff =>
    exact iff_of_true rfl fun hvalid => (hoff (ConfigData.valid_eq_valid_iff _ |>.mpr hvalid)).elim

/-- Adding up bytes does not wrap as long as the sum is a 32-bit number. -/
theorem toNat_foldl_weights (weights : List UInt8) (total : UInt32)
    (h : total.toNat + (weights.map UInt8.toNat).sum < 2 ^ 32) :
    (weights.foldl (fun total weight => total + weight.toUInt32) total).toNat =
      total.toNat + (weights.map UInt8.toNat).sum := by
  induction weights generalizing total with
  | nil => rfl
  | cons weight rest ih =>
    rw [List.map_cons, List.sum_cons] at h
    have hadd : (total + weight.toUInt32).toNat = total.toNat + weight.toNat := by
      rw [UInt32.toNat_add, UInt8.toNat_toUInt32]
      exact Nat.mod_eq_of_lt (by omega)
    rw [List.foldl_cons, ih _ (by omega), hadd, List.map_cons, List.sum_cons, Nat.add_assoc]

theorem sum_weights_le (weights : List UInt8) :
    (weights.map UInt8.toNat).sum ≤ weights.length * 255 := by
  rw [← List.length_map (f := UInt8.toNat)]
  apply List.sum_le_card_nsmul
  intro n hn
  obtain ⟨weight, -, rfl⟩ := List.mem_map.mp hn
  have := weight.toNat_lt
  omega

/-- Thirteen weights cannot wrap the sum. -/
theorem toNat_totalWeight (config : PmConfigPvt) :
    (totalWeight config).toNat = ((List.ofFn config.weight).map UInt8.toNat).sum := by
  have hle := sum_weights_le (List.ofFn config.weight)
  have hzero : (0 : UInt32).toNat = 0 := rfl
  rw [List.length_ofFn] at hle
  rw [totalWeight, toNat_foldl_weights _ 0 (by omega), hzero, Nat.zero_add]

theorem checkPvtConfig_eq_zero_iff (config : PmConfigPvt) :
    checkPvtConfig config = 0 ↔ PvtOk config := by
  have hrejects : ¬ (-1 : Int) = 0 := by decide
  have hsum : totalWeight config = 1024 ↔
      ((List.ofFn config.weight).map UInt8.toNat).sum = 1024 := by
    rw [← toNat_totalWeight, ← UInt32.toNat_inj]
    rfl
  unfold checkPvtConfig
  split
  next hweight =>
    refine iff_of_false hrejects fun hok => ?_
    exact hweight.2 (hsum.mpr (hok.weights hweight.1))
  next hweight =>
    split
    next hsensor =>
      refine iff_of_false hrejects fun hok => ?_
      cases hsensor with
      | inl hfirst => exact hfirst ((checkBoardSensor_eq_zero_iff _).mpr hok.sensor1)
      | inr hsecond => exact hsecond ((checkBoardSensor_eq_zero_iff _).mpr hok.sensor2)
    next hsensor =>
      rw [not_or, not_not, not_not, checkBoardSensor_eq_zero_iff, checkBoardSensor_eq_zero_iff]
        at hsensor
      refine iff_of_true rfl ⟨?_, hsensor.1, hsensor.2⟩
      intro hvalid
      exact hsum.mp (not_not.mp (not_and.mp hweight hvalid))

theorem checkGpios_eq_zero_iff (config : PmConfigGpio) (pins : List (Fin 3)) :
    checkGpios config pins = 0 ↔ ∀ i ∈ pins,
      (config.gpio i).valid ≠ pmConfigInvalid.toUInt32 →
        0 < (config.gpio i).rawData.toNat ∧
          (config.gpio i).rawData.toNat < pmGpioFuncMax.toNat := by
  induction pins with
  | nil => simp [checkGpios]
  | cons i rest ih =>
    have hnull : (config.gpio i).rawData = pmGpioFuncNull ↔ (config.gpio i).rawData.toNat = 0 :=
      UInt32.toNat_inj.symm
    have hflag := (config.gpio i).valid_eq_valid_iff
    rw [checkGpios, List.forall_mem_cons]
    split
    next hbad =>
      rw [hflag, ge_iff_le, UInt32.le_iff_toNat_le, hnull] at hbad
      refine iff_of_false (by decide) ?_
      rintro ⟨hok, -⟩
      have := hok hbad.1
      omega
    next hgood =>
      rw [hflag, ge_iff_le, UInt32.le_iff_toNat_le, hnull] at hgood
      rw [ih]
      refine (and_iff_right ?_).symm
      intro hvalid
      have := not_and.mp hgood hvalid
      omega

theorem checkGpioConfig_eq_zero_iff (config : PmConfigGpio) :
    checkGpioConfig config = 0 ↔ GpioOk config := by
  rw [checkGpioConfig, checkGpios_eq_zero_iff]
  exact ⟨fun h i => h i (List.mem_finRange i), fun h i _ => h i⟩

-- ---------------------------------------------------------------------------
-- All sections
-- ---------------------------------------------------------------------------

/-- The fan check runs through, and passes when each fan that is switched on is well ordered. -/
theorem checkFanTable_ofFn_decides (fans : Fin maxFanNum → PmConfigFan) :
    ∃ status, checkFanTable (List.ofFn fans) maxFanNum = .ok status ∧
      (status = 0 ↔ ∀ i, (fans i).fanValid.valid ≠ pmConfigInvalid.toUInt32 → FanOk (fans i)) := by
  have hlen : (List.ofFn fans).length = maxFanNum := List.length_ofFn
  obtain ⟨status, hrun, hiff⟩ := checkFanTable_decides (Nat.le_of_eq hlen.symm)
  refine ⟨status, hrun, hiff.trans ?_⟩
  rw [List.take_of_length_le (Nat.le_of_eq hlen), List.forall_mem_ofFn_iff]

variable {user : UserConfig}

/-- The validators accept the well formed configurations. -/
theorem accepted_iff (hdomains : DomainsPresent user) : Accepted user ↔ WellFormed user := by
  constructor
  · intro h
    refine ⟨fun c hc => (checkPvtConfig_eq_zero_iff c).mp (h.pvt c hc), ?_,
      fun c hc => (checkGpioConfig_eq_zero_iff c).mp (h.gpio c hc), ?_⟩
    · intro c hc
      exact fanOk_of_checkFanTable (h.fan c hc)
    · intro l hl
      obtain ⟨accepted, hrun, hiff⟩ := checkOppTable_decides (hdomains.dsu l hl) (hdomains.cpus l hl)
      rw [h.opp l hl] at hrun
      exact hiff.mp (Except.ok.inj hrun).symm
  · intro h
    refine ⟨fun c hc => (checkPvtConfig_eq_zero_iff c).mpr (h.pvt c hc), ?_,
      fun c hc => (checkGpioConfig_eq_zero_iff c).mpr (h.gpio c hc), ?_, hdomains.room⟩
    · intro c hc
      obtain ⟨status, hrun, hiff⟩ := checkFanTable_ofFn_decides c
      rw [hrun, hiff.mpr (h.fan c hc)]
    · intro l hl
      obtain ⟨accepted, hrun, hiff⟩ := checkOppTable_decides (hdomains.dsu l hl) (hdomains.cpus l hl)
      rw [hrun, hiff.mpr (h.opp l hl)]

theorem checkSection_returns {α : Type} {check : α → Except C.Fault Bool} {obj : Option α}
    (h : ∀ c, obj = some c → ∃ passed, check c = .ok passed) :
    ∃ passed, checkSection check obj = .ok passed := by
  cases obj with
  | none => exact ⟨true, rfl⟩
  | some c => exact h c rfl

/-- A check that runs through, in front of a computation that does. -/
theorem check_returns {α : Type} {check : Except C.Fault Bool}
    {rest : Except C.Fault (Option α)} (hcheck : ∃ passed, check = .ok passed)
    (hrest : ∃ result, rest = .ok result) :
    ∃ result, (check >>= fun passed => if (!passed) = true then pure none else rest) =
      .ok result := by
  obtain ⟨passed, rfl⟩ := hcheck
  cases passed with
  | false => exact ⟨none, rfl⟩
  | true => exact hrest

/-- With all domains present, generate mode gets to its end or is turned back by a validator. -/
theorem fillConfig_returns (hdomains : DomainsPresent user) (timestamp : UInt32) :
    ∃ result, fillConfig user timestamp = .ok result := by
  unfold fillConfig
  simp only [copySection_enc, C.ok_bind, fillOppSection_enc hdomains.room]
  apply check_returns (checkSection_returns fun c _ => ⟨_, rfl⟩)
  apply check_returns
  · apply checkSection_returns
    intro c _
    obtain ⟨status, hrun, -⟩ := checkFanTable_ofFn_decides c
    rw [hrun]
    exact ⟨_, rfl⟩
  apply check_returns (checkSection_returns fun c _ => ⟨_, rfl⟩)
  apply check_returns
  · apply checkSection_returns
    intro l hl
    obtain ⟨accepted, hrun, -⟩ := checkOppTable_decides (hdomains.dsu l hl) (hdomains.cpus l hl)
    exact ⟨accepted, hrun⟩
  exact ⟨_, rfl⟩

/-- A configuration that is not well formed is turned back. -/
theorem fillConfig_rejects (hdomains : DomainsPresent user) (hbad : ¬ WellFormed user)
    (timestamp : UInt32) : fillConfig user timestamp = .ok none := by
  obtain ⟨result, hrun⟩ := fillConfig_returns hdomains timestamp
  cases result with
  | none => exact hrun
  | some g => exact (hbad ((accepted_iff hdomains).mp (accepted_of_fillConfig hrun))).elim

theorem generateMode_rejects (hdomains : DomainsPresent user) (hbad : ¬ WellFormed user)
    (io : C.Stdio) (timestamp : UInt32) (old : Option Bytes) :
    generateMode io user timestamp old = .ok (-1, old) := by
  rw [generateMode, fillConfig_rejects hdomains hbad]
  rfl

/-- The file of a configuration. -/
def imageOf (user : UserConfig) (timestamp : UInt32) : Bytes :=
  layout.enc (generatedConfig user timestamp) ++
    List.replicate (pmConfigBinSize - layout.size) 0xFF

theorem length_imageOf (user : UserConfig) (timestamp : UInt32) :
    (imageOf user timestamp).length = pmConfigBinSize := by
  rw [imageOf, List.length_append, layout.length_enc, List.length_replicate,
    PmExportConfigCrc.layout_size]
  rfl

theorem generateMode_wellFormed (hdomains : DomainsPresent user) (hok : WellFormed user)
    (timestamp : UInt32) (old : Option Bytes) :
    generateMode .success user timestamp old = .ok (0, some (imageOf user timestamp)) :=
  generateMode_success ((accepted_iff hdomains).mpr hok) timestamp old

/-- What parse mode and its dump make of the file, whatever is behind it. -/
structure ReadsBack (user : UserConfig) (timestamp : UInt32) (file : Bytes) : Prop where
  contains : Contains user timestamp (loadConfig file)
  parses : parseMode (some file) = .ok 0

/-- A file that starts with the block of a well formed configuration reads back as it. -/
theorem readsBack_generatedConfig (hdomains : DomainsPresent user) (hok : WellFormed user)
    (timestamp : UInt32) (rest : Bytes) :
    ReadsBack user timestamp (layout.enc (generatedConfig user timestamp) ++ rest) := by
  have hload := loadConfig_append (generatedConfig user timestamp) rest
  have haccept := (accepted_iff hdomains).mpr hok
  refine ⟨?_, ?_⟩
  · rw [hload]
    exact contains_generatedConfig user timestamp
  · have hbounds := inBounds_generatedConfig haccept timestamp
    rw [← hload] at hbounds
    unfold parseMode
    dsimp only
    rw [runAccesses_of_inBounds hbounds]
    rfl

/-- **Generate mode decides well-formedness.** On every configuration with all domains
    present, and however the library calls end: a well formed one leads to a file that is its
    image when the run succeeds, and the image reads back as the configuration; any other one
    is turned back with status -1, and the file stays as it was. -/
theorem generateMode_decides (user : UserConfig) (hdomains : DomainsPresent user) (io : C.Stdio)
    (timestamp : UInt32) (old : Option Bytes) :
    ∃ status file, generateMode io user timestamp old = .ok (status, file) ∧
      (WellFormed user → ∃ image, image.length = pmConfigBinSize ∧
        ReadsBack user timestamp image ∧ io.LeavesFile image old status file ∧
        (io = .success → status = 0)) ∧
      (¬ WellFormed user → status = -1 ∧ file = old) := by
  by_cases hok : WellFormed user
  · have haccept := (accepted_iff hdomains).mpr hok
    obtain ⟨status, file, hwrite, hleaves⟩ :=
      PackageTool.pm_writeConfig_leavesFile io old (generatedConfig user timestamp)
    rw [← generateMode_eq haccept] at hwrite
    refine ⟨status, file, hwrite, fun _ => ?_, fun hbad => (hbad hok).elim⟩
    refine ⟨imageOf user timestamp, length_imageOf user timestamp,
      readsBack_generatedConfig hdomains hok timestamp _, hleaves, ?_⟩
    rintro rfl
    rw [generateMode_wellFormed hdomains hok] at hwrite
    exact (Prod.mk.inj (Except.ok.inj hwrite)).1.symm
  · exact ⟨-1, old, generateMode_rejects hdomains hok io timestamp old,
      fun h => (hok h).elim, fun _ => ⟨rfl, rfl⟩⟩

theorem domainsPresent_sampleConfig : DomainsPresent sampleConfig where
  dsu := by
    rintro l ⟨⟩
    decide
  cpus := by
    rintro l ⟨⟩ i hi hle
    rw [List.append_assoc, List.getElem?_append_right hi, List.getElem?_append_left,
      List.getElem?_replicate_of_lt]
    · simp
    · have hmid : dvfsElementIdxMidG1 < 8 := by decide
      simp only [List.length_cons, List.length_nil]
      omega
    · have hmid : dvfsElementIdxMidG1 < 8 := by decide
      simp only [List.length_cons, List.length_nil, List.length_replicate]
      omega
  room := by
    rintro l ⟨⟩
    decide

theorem generateMode_decides_sample :
    ∃ image, generateMode .success sampleConfig 0 none = .ok (0, some image) ∧
      ReadsBack sampleConfig 0 image := by
  have hok := (accepted_iff domainsPresent_sampleConfig).mp accepted_sampleConfig
  obtain ⟨status, file, hrun, hwritten, -⟩ :=
    generateMode_decides sampleConfig domainsPresent_sampleConfig .success 0 none
  obtain ⟨image, -, hreads, hleaves, hstatus⟩ := hwritten hok
  obtain rfl := hstatus rfl
  obtain rfl := hleaves.complete rfl rfl
  exact ⟨image, hrun, hreads⟩

end PmConfig
