-- SUMMARY: Generate mode of `csupm_bin_config.c`: the section copies, the checksum and the writes, and what the generated file contains.
import Edk2NonOsi.C.Stdio
import Edk2NonOsi.PackageTool.DoubleCheckSum
import Edk2NonOsi.PmConfig.AbsentDomains
import Edk2NonOsi.PmConfig.Dump
import Edk2NonOsi.PmConfig.FanTable

open PackageTool

namespace PmConfig

open PmExportConfigCrc

/-- `PM_CONFIG_BIN_SIZE`. -/
def pmConfigBinSize : Nat := 4096

-- ---------------------------------------------------------------------------
-- The program
-- ---------------------------------------------------------------------------

/-- The objects of `user_config.h` and `opp_config_custom.h`; `none` for a section
    that is switched off. -/
structure UserConfig where
  pmicConfig : Option PmConfigPmic
  pvtConfig : Option PmConfigPvt
  fanConfig : Option (Fin maxFanNum → PmConfigFan)
  gpioConfig : Option PmConfigGpio
  domOpps : Option (List (Option DomainOppConfig))
  logConfig : Option PmConfigLog
  vminConfig : Option PmConfigVmin
  nocIdleConfig : Option PmConfigNocIdle
  sptConfig : Option PmConfigSpt
  wdtTimeout : Option ConfigData
  opp100MEnable : Option ConfigData

/-- The block in front of the first copy: the 0xFF background, the version fields
    and a zero checksum pair. -/
def initConfig (timestamp : UInt32) : PmExportConfigCrc :=
  { layout.filled 0xFF with
    versionMajor := pmConfigVersionMajor
    versionMinor := pmConfigVersionMinor
    timestamp := timestamp
    length := UInt32.ofNat layout.size
    signature := pmConfigSignature
    crc1 := 0
    crc2 := 0 }

/-- `memcpy (&config->f, &obj, sizeof (obj))`, if the section is enabled. -/
def copySection {α : Type} {A : Layout α} (F : layout.Field A) (obj : Option α) (g : Bytes) :
    Except C.Fault Bytes :=
  match obj with
  | none => return g
  | some obj => C.memcpy g F.offset (A.enc obj) A.size

/-- The table of one domain: the user's, or zeros for a null entry. -/
def fillDomain (i : Fin domainMaxCount) (config : Option DomainOppConfig) (g : Bytes) :
    Except C.Fault Bytes :=
  match config with
  | some config =>
    C.memcpy g (oppsField i).offset (DomainOppConfig.layout.enc config) DomainOppConfig.layout.size
  | none => C.memset g (oppsField i).offset 0x00 DomainOppConfig.layout.size

/-- The loop that fills `opps`, from index `i` on. -/
def fillOpps : List (Option DomainOppConfig) → Nat → Bytes → Except C.Fault Bytes
  | [], _, g => return g
  | config :: rest, i, g =>
    if h : i < domainMaxCount then do
      let g ← fillDomain ⟨i, h⟩ config g
      fillOpps rest (i + 1) g
    else throw .outOfBounds

/-- The OPP section: `opp_valid`, and then the tables. -/
def fillOppSection (domOpps : Option (List (Option DomainOppConfig))) (g : Bytes) :
    Except C.Fault Bytes :=
  match domOpps with
  | none => return g
  | some domOpps =>
    fillOpps domOpps 0 (Span.write g oppValidField.offset (Layout.u8.enc pmConfigValid))

/-- A validator in front of a copy; a section that is switched off has none. -/
def checkSection {α : Type} (check : α → Except C.Fault Bool) (obj : Option α) :
    Except C.Fault Bool :=
  match obj with
  | none => return true
  | some obj => check obj

/-- Generate mode up to the checksum: the bytes of `g_config`, or `none` when a
    validator rejects its section. -/
def fillConfig (user : UserConfig) (timestamp : UInt32) : Except C.Fault (Option Bytes) := do
  let g := layout.enc (initConfig timestamp)
  let g ← copySection pmicSection user.pmicConfig g
  if !(← checkSection (fun c => return checkPvtConfig c == 0) user.pvtConfig) then return none
  let g ← copySection pvtSection user.pvtConfig g
  if !(← checkSection (fun c => return (← checkFanTable (List.ofFn c) maxFanNum) == 0)
      user.fanConfig) then return none
  let g ← copySection fanSection user.fanConfig g
  if !(← checkSection (fun c => return checkGpioConfig c == 0) user.gpioConfig) then return none
  let g ← copySection gpioSection user.gpioConfig g
  if !(← checkSection checkOppTable user.domOpps) then return none
  let g ← fillOppSection user.domOpps g
  let g ← copySection logSection user.logConfig g
  let g ← copySection vminSection user.vminConfig g
  let g ← copySection nocIdleSection user.nocIdleConfig g
  let g ← copySection sptSection user.sptConfig g
  let g ← copySection wdtSection user.wdtTimeout g
  let g ← copySection opp100MSection user.opp100MEnable g
  return some g

/-- The checksum of the block, stored in the block. -/
def storeChecksum (g : Bytes) : Except C.Fault Bytes := do
  let (_, ck) ← doubleCheckSum (C.words g) (UInt32.ofNat layout.size) (some 0) false
  let ck := ck.getD 0
  let g := Span.write g crc1Field.offset (Layout.u32.enc (ck >>> 32).toUInt32)
  return Span.write g crc2Field.offset (Layout.u32.enc (ck &&& 0xFFFFFFFF).toUInt32)

/-- The write of the output file, which held `old` before the run: the exit
    status and the file afterwards. -/
def writeConfig (io : C.Stdio) (old : Option Bytes) (g : Bytes) :
    Except C.Fault (Int × Option Bytes) := do
  if !io.fopen then return (-1, old)
  if !io.malloc then return (-1, some (io.closed []))
  let buffer := List.replicate pmConfigBinSize 0xFF
  let buffer ← C.memcpy buffer 0 g layout.size
  match io.fwrite 0 with
  | some k => return (-1, some (io.closed (buffer.take k)))
  | none => return (0, some (io.closed buffer))

/-- Generate mode of `main`. -/
def generateMode (io : C.Stdio) (user : UserConfig) (timestamp : UInt32) (old : Option Bytes) :
    Except C.Fault (Int × Option Bytes) := do
  match ← fillConfig user timestamp with
  | none => return (-1, old)
  | some g =>
    let g ← storeChecksum g
    runAccesses (dumpConfig (layout.dec g))
    writeConfig io old g

-- ---------------------------------------------------------------------------
-- The copies in terms of the block
-- ---------------------------------------------------------------------------

/-- The section set to the user's object, if there is one. -/
def withSection {α : Type} {A : Layout α} (F : layout.Field A) (obj : Option α)
    (g : PmExportConfigCrc) : PmExportConfigCrc :=
  F.set g (obj.getD (F.get g))

theorem copySection_enc {α : Type} {A : Layout α} (F : layout.Field A) (obj : Option α)
    (g : PmExportConfigCrc) :
    copySection F obj (layout.enc g) = .ok (layout.enc (withSection F obj g)) := by
  cases obj with
  | none =>
    rw [withSection, Option.getD_none, F.set_get]
    rfl
  | some obj => rw [copySection, C.memcpy_field, withSection, Option.getD_some]

theorem fillDomain_enc (i : Fin domainMaxCount) (config : Option DomainOppConfig)
    (g : PmExportConfigCrc) :
    fillDomain i config (layout.enc g) =
      .ok (layout.enc ((oppsField i).set g
        (config.getD (DomainOppConfig.layout.filled 0x00)))) := by
  cases config with
  | none => rw [fillDomain, C.memset_field, Option.getD_none]
  | some config => rw [fillDomain, C.memcpy_field, Option.getD_some]

/-- The tables after the loop from index `k` on, when `opps` was there before it. -/
def filledOpps (domOpps : List (Option DomainOppConfig)) (k : Nat)
    (opps : Fin domainMaxCount → DomainOppConfig) (i : Fin domainMaxCount) : DomainOppConfig :=
  if k ≤ i then
    match domOpps[i - k]? with
    | none => opps i
    | some config => config.getD (DomainOppConfig.layout.filled 0x00)
  else opps i

theorem filledOpps_nil (k : Nat) (opps : Fin domainMaxCount → DomainOppConfig) :
    filledOpps [] k opps = opps := by
  funext i
  simp [filledOpps]

theorem filledOpps_cons (config : Option DomainOppConfig) (rest : List (Option DomainOppConfig))
    {k : Nat} (hk : k < domainMaxCount) (opps : Fin domainMaxCount → DomainOppConfig) :
    filledOpps rest (k + 1) (Function.update opps ⟨k, hk⟩
        (config.getD (DomainOppConfig.layout.filled 0x00))) =
      filledOpps (config :: rest) k opps := by
  funext i
  unfold filledOpps
  obtain hlt | heq | hgt := lt_trichotomy (i : Nat) k
  · rw [if_neg (by omega), if_neg (by omega), Function.update_of_ne]
    exact Fin.ne_of_lt hlt
  · have hi : i = ⟨k, hk⟩ := Fin.ext heq
    rw [if_neg (by omega), if_pos (by omega), hi, Function.update_self, Nat.sub_self]
    rfl
  · have hidx : (i : Nat) - k = i - (k + 1) + 1 := by omega
    rw [if_pos (by omega), if_pos (by omega), hidx, List.getElem?_cons_succ,
      Function.update_of_ne]
    exact Fin.ne_of_gt hgt

/-- The loop stays in `opps` when the array is not longer, and fills the tables it
    reaches. -/
theorem fillOpps_enc {domOpps : List (Option DomainOppConfig)} {k : Nat}
    (hk : k + domOpps.length ≤ domainMaxCount) (g : PmExportConfigCrc) :
    fillOpps domOpps k (layout.enc g) =
      .ok (layout.enc (withOpps g (filledOpps domOpps k g.config.oppConfig.opps))) := by
  induction domOpps generalizing k g with
  | nil =>
    rw [filledOpps_nil, withOpps_self, fillOpps]
    rfl
  | cons config rest ih =>
    rw [List.length_cons] at hk
    have hlt : k < domainMaxCount := by omega
    rw [fillOpps, dif_pos hlt, fillDomain_enc]
    show fillOpps rest (k + 1) _ = _
    rw [ih (by omega), oppsField_set, withOpps_opps, withOpps_withOpps,
      filledOpps_cons config rest hlt]

/-- The OPP section of the generated block, over an old one. -/
def filledOpp (domOpps : Option (List (Option DomainOppConfig))) (old : PmConfigOpp) :
    PmConfigOpp :=
  match domOpps with
  | none => old
  | some domOpps => { oppValid := pmConfigValid, opps := filledOpps domOpps 0 old.opps }

/-- The OPP section with the tables of the user's array, if there is one. -/
def withOppSection (domOpps : Option (List (Option DomainOppConfig))) (g : PmExportConfigCrc) :
    PmExportConfigCrc :=
  oppSection.set g (filledOpp domOpps (oppSection.get g))

theorem fillOppSection_enc {domOpps : Option (List (Option DomainOppConfig))}
    (hlen : ∀ l, domOpps = some l → l.length ≤ domainMaxCount) (g : PmExportConfigCrc) :
    fillOppSection domOpps (layout.enc g) =
      .ok (layout.enc (withOppSection domOpps g)) := by
  unfold withOppSection
  cases domOpps with
  | none =>
    rw [filledOpp, oppSection.set_get]
    rfl
  | some domOpps =>
    have hall := hlen domOpps rfl
    rw [fillOppSection, oppValidField.write_enc, fillOpps_enc (by omega), filledOpp,
      oppSection_set, oppValidField_set_opps]

/-- Every section of `g` set to the user's object, where it is enabled. -/
def withSections (user : UserConfig) (g : PmExportConfigCrc) : PmExportConfigCrc :=
  { g with
    config :=
      { pmicConfig := user.pmicConfig.getD g.config.pmicConfig
        pvtConfig := user.pvtConfig.getD g.config.pvtConfig
        oppConfig := filledOpp user.domOpps g.config.oppConfig
        fanConfig := user.fanConfig.getD g.config.fanConfig
        logConfig := user.logConfig.getD g.config.logConfig
        vminConfig := user.vminConfig.getD g.config.vminConfig
        nocIdleConfig := user.nocIdleConfig.getD g.config.nocIdleConfig
        sptConfig := user.sptConfig.getD g.config.sptConfig
        wdtTimeout := user.wdtTimeout.getD g.config.wdtTimeout
        opp100MEnable := user.opp100MEnable.getD g.config.opp100MEnable
        gpioConfig := user.gpioConfig.getD g.config.gpioConfig
        reserved := g.config.reserved } }

theorem withSections_eq (user : UserConfig) (g : PmExportConfigCrc) :
    withSections user g =
      withSection opp100MSection user.opp100MEnable (withSection wdtSection user.wdtTimeout
        (withSection sptSection user.sptConfig (withSection nocIdleSection user.nocIdleConfig
          (withSection vminSection user.vminConfig (withSection logSection user.logConfig
            (withOppSection user.domOpps (withSection gpioSection user.gpioConfig
              (withSection fanSection user.fanConfig (withSection pvtSection user.pvtConfig
                (withSection pmicSection user.pmicConfig g)))))))))) := by
  simp only [withSections, withSection, withOppSection, pmicSection, pvtSection, fanSection,
    gpioSection, oppSection, logSection, vminSection, nocIdleSection, sptSection, wdtSection,
    opp100MSection, configField, Layout.Field.comp, Layout.Field.iso, Layout.Field.right,
    Layout.Field.fst, Layout.Field.snd]

/-- What the validators accept, with at most as many OPP tables as the block has. -/
structure Accepted (user : UserConfig) : Prop where
  pvt : ∀ c, user.pvtConfig = some c → checkPvtConfig c = 0
  fan : ∀ c, user.fanConfig = some c → checkFanTable (List.ofFn c) maxFanNum = .ok 0
  gpio : ∀ c, user.gpioConfig = some c → checkGpioConfig c = 0
  opp : ∀ l, user.domOpps = some l → checkOppTable l = .ok true
  domains : ∀ l, user.domOpps = some l → l.length ≤ domainMaxCount

theorem checkSection_accepts {α : Type} {check : α → Except C.Fault Bool} {obj : Option α}
    (h : ∀ c, obj = some c → check c = .ok true) : checkSection check obj = .ok true := by
  cases obj with
  | none => rfl
  | some c => exact h c rfl

/-- The copies together: no section spills into another. -/
theorem fillConfig_eq {user : UserConfig} (haccept : Accepted user) (timestamp : UInt32) :
    fillConfig user timestamp =
      .ok (some (layout.enc (withSections user (initConfig timestamp)))) := by
  have hpvt : checkSection (fun c => return checkPvtConfig c == 0) user.pvtConfig = .ok true := by
    apply checkSection_accepts
    intro c hc
    rw [haccept.pvt c hc]
    rfl
  have hfan : checkSection (fun c => return (← checkFanTable (List.ofFn c) maxFanNum) == 0)
      user.fanConfig = .ok true := by
    apply checkSection_accepts
    intro c hc
    rw [haccept.fan c hc]
    rfl
  have hgpio : checkSection (fun c => return checkGpioConfig c == 0) user.gpioConfig = .ok true := by
    apply checkSection_accepts
    intro c hc
    rw [haccept.gpio c hc]
    rfl
  have hopp : checkSection checkOppTable user.domOpps = .ok true := checkSection_accepts haccept.opp
  simp only [fillConfig, C.ok_bind, copySection_enc, hpvt, hfan, hgpio, hopp,
    fillOppSection_enc haccept.domains, Bool.not_true, Bool.false_eq_true, if_false]
  rw [withSections_eq]
  rfl

theorem of_checkSection {α : Type} {check : α → Except C.Fault Bool} {obj : Option α}
    (h : checkSection check obj = .ok true) {c : α} (hc : obj = some c) : check c = .ok true := by
  rw [hc] at h
  exact h

/-- The loop faults on an array that is longer than `opps`. -/
theorem length_le_of_fillOpps {domOpps : List (Option DomainOppConfig)} {k : Nat} {g g' : Bytes}
    (hk : k ≤ domainMaxCount) (h : fillOpps domOpps k g = .ok g') :
    k + domOpps.length ≤ domainMaxCount := by
  induction domOpps generalizing k g with
  | nil => exact hk
  | cons config rest ih =>
    rw [fillOpps] at h
    split at h
    next hlt =>
      obtain ⟨g₁, -, hrest⟩ := C.bind_eq_ok_iff.mp h
      have hlen := ih hlt hrest
      rw [List.length_cons]
      omega
    next => cases h

/-- A block comes out of the copies only when every validator accepted. -/
theorem accepted_of_fillConfig {user : UserConfig} {timestamp : UInt32} {g : Bytes}
    (h : fillConfig user timestamp = .ok (some g)) : Accepted user := by
  unfold fillConfig at h
  simp only [copySection_enc, C.ok_bind] at h
  obtain ⟨hpvt, h⟩ := C.check_eq_some h
  obtain ⟨hfan, h⟩ := C.check_eq_some h
  obtain ⟨hgpio, h⟩ := C.check_eq_some h
  obtain ⟨hopp, h⟩ := C.check_eq_some h
  obtain ⟨g₁, hfill, -⟩ := C.bind_eq_ok_iff.mp h
  refine ⟨?_, ?_, ?_, ?_, ?_⟩
  · intro c hc
    exact eq_of_beq (Except.ok.inj (of_checkSection hpvt hc))
  · intro c hc
    obtain ⟨status, hstatus, hzero⟩ := C.bind_eq_ok_iff.mp (of_checkSection hfan hc)
    rw [hstatus, eq_of_beq (Except.ok.inj hzero)]
  · intro c hc
    exact eq_of_beq (Except.ok.inj (of_checkSection hgpio hc))
  · intro l hl
    exact of_checkSection hopp hl
  · intro l hl
    rw [hl] at hfill
    have hlen := length_le_of_fillOpps (Nat.zero_le _) hfill
    omega

-- ---------------------------------------------------------------------------
-- The checksum
-- ---------------------------------------------------------------------------

theorem length_words_enc (g : PmExportConfigCrc) : (C.words (layout.enc g)).length = 883 := by
  rw [C.length_words, layout.length_enc, layout_size]

theorem byteLength_words_enc (g : PmExportConfigCrc) :
    UInt32.ofNat layout.size = byteLength (C.words (layout.enc g)) := by
  rw [byteLength, length_words_enc, layout_size]

/-- The stored pair is the one `double_check_sum` computes over the block with
    `crc1` and `crc2` zero. -/
def StoredSumsCorrect (g : PmExportConfigCrc) : Prop :=
  doubleCheckSum (C.words (layout.enc { g with crc1 := 0, crc2 := 0 }))
    (UInt32.ofNat layout.size) (some 0) false = .ok (true, some (packSums g.crc1 g.crc2))

/-- The block with its checksum pair. -/
def withSums (g : PmExportConfigCrc) : PmExportConfigCrc :=
  { g with
    crc1 := (blockSums (C.words (layout.enc g))).1
    crc2 := (blockSums (C.words (layout.enc g))).2 }

theorem doubleCheckSum_enc (g : PmExportConfigCrc) :
    doubleCheckSum (C.words (layout.enc g)) (UInt32.ofNat layout.size) (some 0) false =
      .ok (true, some (packSums (blockSums (C.words (layout.enc g))).1
        (blockSums (C.words (layout.enc g))).2)) := by
  rw [byteLength_words_enc]
  exact doubleCheckSum_compute (by rw [length_words_enc]; decide) 0

theorem storeChecksum_enc (g : PmExportConfigCrc) :
    storeChecksum (layout.enc g) = .ok (layout.enc (withSums g)) := by
  have hmask (w : UInt64) : (w &&& 0xFFFFFFFF).toUInt32 = w.toUInt32 := by
    rw [UInt64.toUInt32_and]
    exact UInt32.and_neg_one
  simp only [storeChecksum, doubleCheckSum_enc, C.ok_bind, Option.getD_some, hmask, packSums_high,
    packSums_low]
  rw [crc1Field.write_enc, crc2Field.write_enc, crcFields_set, withSums]
  rfl

theorem storedSumsCorrect_withSums {g : PmExportConfigCrc} (h₁ : g.crc1 = 0) (h₂ : g.crc2 = 0) :
    StoredSumsCorrect (withSums g) := by
  have hzero : { withSums g with crc1 := 0, crc2 := 0 } = g := by
    cases g
    simp only at h₁ h₂
    rw [withSums, h₁, h₂]
  unfold StoredSumsCorrect
  rw [hzero, doubleCheckSum_enc, withSums]

-- ---------------------------------------------------------------------------
-- The generated file
-- ---------------------------------------------------------------------------

/-- The block generate mode writes. -/
def generatedConfig (user : UserConfig) (timestamp : UInt32) : PmExportConfigCrc :=
  withSums (withSections user (initConfig timestamp))

theorem domainFits_generatedConfig {user : UserConfig} (haccept : Accepted user)
    (timestamp : UInt32) (i : Fin domainMaxCount) :
    DomainFits ((generatedConfig user timestamp).config.oppConfig.opps i) := by
  have hold : (oppSection.get (layout.filled 0xFF)).opps i = DomainOppConfig.layout.filled 0xFF :=
    (oppsField i).get_filled 0xFF
  have herased : DomainFits (DomainOppConfig.layout.filled 0xFF) := by
    left
    rw [size_filled]
    decide
  show DomainFits ((filledOpp user.domOpps (oppSection.get (layout.filled 0xFF))).opps i)
  cases hopps : user.domOpps with
  | none =>
    rw [filledOpp, hold]
    exact herased
  | some domOpps =>
    show DomainFits (filledOpps domOpps 0 _ i)
    rw [filledOpps, if_pos (Nat.zero_le _), Nat.sub_zero, hold]
    cases hconfig : domOpps[(i : Nat)]? with
    | none => exact herased
    | some config =>
      cases config with
      | none =>
        right
        show (DomainOppConfig.layout.filled 0x00).size.toNat ≤ _
        rw [size_filled]
        decide
      | some config =>
        right
        exact (checkOppTable_sizes (haccept.opp domOpps hopps) config
          (List.mem_of_getElem? hconfig)).2

/-- What the fan check accepts, the dump reads in bounds: a table with a zero flag is
    one of those that were checked. -/
theorem FanOk.fits {fan : PmConfigFan}
    (h : fan.fanValid.valid ≠ pmConfigInvalid.toUInt32 → FanOk fan) : FanFits fan := by
  intro hvalid j hj
  apply (h hvalid).items j
  rw [hj]
  decide

theorem fanFits_generatedConfig {user : UserConfig} (haccept : Accepted user)
    (timestamp : UInt32) (i : Fin maxFanNum) :
    FanFits ((generatedConfig user timestamp).config.fanConfig i) := by
  show FanFits (user.fanConfig.getD (fanSection.get (layout.filled 0xFF)) i)
  cases hfan : user.fanConfig with
  | none =>
    have hold : fanSection.get (layout.filled 0xFF) i = PmConfigFan.layout.filled 0xFF :=
      (fanField i).get_filled 0xFF
    rw [Option.getD_none, hold]
    intro hvalid
    rw [fanValid_filled] at hvalid
    exact (hvalid (by decide)).elim
  | some fans =>
    exact FanOk.fits (fanOk_of_checkFanTable (haccept.fan fans hfan) i)

/-- What the validators accepted is dumped in bounds, and so are the sections
    left erased. -/
theorem inBounds_generatedConfig {user : UserConfig} (haccept : Accepted user)
    (timestamp : UInt32) : ∀ a ∈ dumpConfig (generatedConfig user timestamp), a.InBounds := by
  rw [inBounds_dumpConfig_iff]
  exact ⟨domainFits_generatedConfig haccept timestamp, fanFits_generatedConfig haccept timestamp⟩

/-- The bytes of a section: those of the user's object, or erased flash. -/
def sectionBytes {α : Type} (A : Layout α) (obj : Option α) : Bytes :=
  match obj with
  | none => List.replicate A.size 0xFF
  | some obj => A.enc obj

/-- The bytes of `opps[i]`: erased past the end of the user's array, zero for a
    null entry. -/
def domainBytes (domOpps : List (Option DomainOppConfig)) (i : Fin domainMaxCount) : Bytes :=
  match domOpps[(i : Nat)]? with
  | none => List.replicate DomainOppConfig.layout.size 0xFF
  | some none => List.replicate DomainOppConfig.layout.size 0x00
  | some (some config) => DomainOppConfig.layout.enc config

/-- A section holds the user's object byte for byte, or erased flash. -/
def Holds {α : Type} (A : Layout α) (obj : Option α) (a : α) : Prop :=
  A.enc a = sectionBytes A obj

/-- The block is a faithful container of the user's objects: every enabled section
    holds its object, everything else is erased flash, and the pair is right. -/
structure Contains (user : UserConfig) (timestamp : UInt32) (g : PmExportConfigCrc) : Prop where
  signature : g.signature = pmConfigSignature
  versionMajor : g.versionMajor = pmConfigVersionMajor
  versionMinor : g.versionMinor = pmConfigVersionMinor
  length : g.length = UInt32.ofNat layout.size
  timestamp : g.timestamp = timestamp
  pmic : Holds PmConfigPmic.layout user.pmicConfig g.config.pmicConfig
  pvt : Holds PmConfigPvt.layout user.pvtConfig g.config.pvtConfig
  fan : Holds (PmConfigFan.layout.array maxFanNum) user.fanConfig g.config.fanConfig
  gpio : Holds PmConfigGpio.layout user.gpioConfig g.config.gpioConfig
  oppOff : user.domOpps = none → Holds PmConfigOpp.layout none g.config.oppConfig
  oppOn : ∀ domOpps, user.domOpps = some domOpps → g.config.oppConfig.oppValid = pmConfigValid ∧
    ∀ i, DomainOppConfig.layout.enc (g.config.oppConfig.opps i) = domainBytes domOpps i
  log : Holds PmConfigLog.layout user.logConfig g.config.logConfig
  vmin : Holds PmConfigVmin.layout user.vminConfig g.config.vminConfig
  nocIdle : Holds PmConfigNocIdle.layout user.nocIdleConfig g.config.nocIdleConfig
  spt : Holds PmConfigSpt.layout user.sptConfig g.config.sptConfig
  wdt : Holds ConfigData.layout user.wdtTimeout g.config.wdtTimeout
  opp100M : Holds ConfigData.layout user.opp100MEnable g.config.opp100MEnable
  reserved : Holds (Layout.u8.array 111) none g.config.reserved
  padding : Holds (Layout.u8.array 2) none g.padding
  sums : StoredSumsCorrect g

/-- A section of the generated block, whichever way it was set. -/
theorem holds_getD {α : Type} {A : Layout α} (F : layout.Field A) (obj : Option α) :
    Holds A obj (obj.getD (F.get (layout.filled 0xFF))) := by
  cases obj with
  | none => rw [Holds, Option.getD_none, F.get_filled, A.enc_filled, sectionBytes]
  | some obj => rfl

theorem enc_filledOpps (domOpps : List (Option DomainOppConfig)) (i : Fin domainMaxCount) :
    DomainOppConfig.layout.enc (filledOpps domOpps 0
      (oppSection.get (layout.filled 0xFF)).opps i) = domainBytes domOpps i := by
  rw [filledOpps, if_pos (Nat.zero_le _), Nat.sub_zero, domainBytes]
  cases domOpps[(i : Nat)]? with
  | none =>
    have hold : (oppSection.get (layout.filled 0xFF)).opps i =
        DomainOppConfig.layout.filled 0xFF := (oppsField i).get_filled 0xFF
    show DomainOppConfig.layout.enc ((oppSection.get (layout.filled 0xFF)).opps i) = _
    rw [hold, Layout.enc_filled]
  | some config =>
    cases config with
    | none => exact DomainOppConfig.layout.enc_filled 0x00
    | some config => rfl

theorem contains_generatedConfig (user : UserConfig) (timestamp : UInt32) :
    Contains user timestamp (generatedConfig user timestamp) where
  signature := rfl
  versionMajor := rfl
  versionMinor := rfl
  length := rfl
  timestamp := rfl
  pmic := holds_getD pmicSection user.pmicConfig
  pvt := holds_getD pvtSection user.pvtConfig
  fan := holds_getD fanSection user.fanConfig
  gpio := holds_getD gpioSection user.gpioConfig
  oppOff := by
    intro hopps
    show Holds _ none (filledOpp user.domOpps (oppSection.get (layout.filled 0xFF)))
    rw [hopps]
    exact holds_getD oppSection none
  oppOn := by
    intro domOpps hopps
    show (filledOpp user.domOpps (oppSection.get (layout.filled 0xFF))).oppValid = _ ∧
      ∀ i, DomainOppConfig.layout.enc ((filledOpp user.domOpps
        (oppSection.get (layout.filled 0xFF))).opps i) = _
    rw [hopps]
    exact ⟨rfl, enc_filledOpps domOpps⟩
  log := holds_getD logSection user.logConfig
  vmin := holds_getD vminSection user.vminConfig
  nocIdle := holds_getD nocIdleSection user.nocIdleConfig
  spt := holds_getD sptSection user.sptConfig
  wdt := holds_getD wdtSection user.wdtTimeout
  opp100M := holds_getD opp100MSection user.opp100MEnable
  reserved := holds_getD reservedSection none
  padding := holds_getD paddingField none
  sums := storedSumsCorrect_withSums rfl rfl

/-- The block behind the checks is the generated one. -/
theorem storeChecksum_of_fillConfig {user : UserConfig} {timestamp : UInt32} {g : Bytes}
    (h : fillConfig user timestamp = .ok (some g)) :
    storeChecksum g = .ok (layout.enc (generatedConfig user timestamp)) := by
  have hfill := fillConfig_eq (accepted_of_fillConfig h) timestamp
  have hg := Option.some.inj (Except.ok.inj (h.symm.trans hfill))
  rw [hg, storeChecksum_enc, generatedConfig]

theorem memcpy_buffer (g : PmExportConfigCrc) :
    C.memcpy (List.replicate pmConfigBinSize 0xFF) 0 (layout.enc g) layout.size =
      .ok (layout.enc g ++ List.replicate (pmConfigBinSize - layout.size) 0xFF) := by
  have hlen := layout.length_enc g
  rw [C.memcpy_all hlen.symm, Span.write, List.take_zero, List.nil_append, Nat.zero_add, hlen,
    List.drop_replicate]
  rw [List.length_replicate, layout_size]
  decide

theorem writeConfig_success (old : Option Bytes) (g : PmExportConfigCrc) :
    writeConfig .success old (layout.enc g) =
      .ok (0, some (layout.enc g ++ List.replicate (pmConfigBinSize - layout.size) 0xFF)) := by
  simp only [writeConfig, C.Stdio.success, C.Stdio.closed, Bool.not_true, Bool.false_eq_true,
    if_false, memcpy_buffer, C.ok_bind]
  rfl

/-- With accepted sections, the run comes down to the write. -/
theorem generateMode_eq {user : UserConfig} (haccept : Accepted user) (io : C.Stdio)
    (timestamp : UInt32) (old : Option Bytes) :
    generateMode io user timestamp old =
      writeConfig io old (layout.enc (generatedConfig user timestamp)) := by
  have haccesses : runAccesses (dumpConfig (generatedConfig user timestamp)) = .ok () :=
    runAccesses_of_inBounds (inBounds_generatedConfig haccept timestamp)
  unfold generateMode
  rw [fillConfig_eq haccept, C.ok_bind]
  show (storeChecksum _ >>= _) = _
  rw [storeChecksum_enc, C.ok_bind, ← generatedConfig, layout.dec_enc, haccesses, C.ok_bind]

theorem generateMode_success {user : UserConfig} (haccept : Accepted user) (timestamp : UInt32)
    (old : Option Bytes) :
    generateMode .success user timestamp old =
      .ok (0, some (layout.enc (generatedConfig user timestamp) ++
        List.replicate (pmConfigBinSize - layout.size) 0xFF)) := by
  rw [generateMode_eq haccept, writeConfig_success]

/-- **The image is a faithful container.** Whatever the validators accept, generate
    mode writes 4096 bytes: a block that parse mode reads back as the container of
    the user's objects, and erased flash behind it. -/
theorem generateMode_contains {user : UserConfig} (haccept : Accepted user) (timestamp : UInt32)
    (old : Option Bytes) :
    ∃ file, generateMode .success user timestamp old = .ok (0, some file) ∧
      file.length = pmConfigBinSize ∧ Contains user timestamp (loadConfig file) ∧
      file.drop layout.size = List.replicate (pmConfigBinSize - layout.size) 0xFF := by
  refine ⟨_, generateMode_success haccept timestamp old, ?_, ?_, ?_⟩
  · rw [List.length_append, layout.length_enc, List.length_replicate, layout_size]
    rfl
  · rw [loadConfig_append]
    exact contains_generatedConfig user timestamp
  · exact List.drop_left' (layout.length_enc _)

/-- The watchdog of `user_config.h`, and OPP tables for the CPU domains and the DSU
    only. -/
def sampleConfig : UserConfig where
  pmicConfig := none
  pvtConfig := none
  fanConfig := none
  gpioConfig := none
  domOpps := some ([none, none] ++ List.replicate 6 (some zeroDomain) ++ [none])
  logConfig := none
  vminConfig := none
  nocIdleConfig := none
  sptConfig := none
  wdtTimeout := some ⟨2 * 5000000⟩
  opp100MEnable := none

theorem accepted_sampleConfig : Accepted sampleConfig where
  pvt := nofun
  fan := nofun
  gpio := nofun
  opp := by
    rintro l ⟨⟩
    rfl
  domains := by
    rintro l ⟨⟩
    decide

theorem generateMode_contains_sample :
    ∃ file, generateMode .success sampleConfig 0 none = .ok (0, some file) ∧
      Contains sampleConfig 0 (loadConfig file) := by
  obtain ⟨file, hrun, -, hcontains, -⟩ := generateMode_contains accepted_sampleConfig 0 none
  exact ⟨file, hrun, hcontains⟩

end PmConfig
