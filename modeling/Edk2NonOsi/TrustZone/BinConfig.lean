-- SUMMARY: `trustzone_bin_config.c`: validation, generate mode and parse mode, and when the checksum verdict of parse mode is right.
import Edk2NonOsi.C.Stdio
import Edk2NonOsi.PackageTool.DoubleCheckSum
import Edk2NonOsi.TrustZone.ExportConfig

open PackageTool

namespace TrustZone

open TrustzoneExportConfigCrc (layout)

/-- `TRUSTZONE_CONFIG_BIN_SIZE`. -/
def trustzoneConfigBinSize : Nat := 4096

-- ---------------------------------------------------------------------------
-- Validation
-- ---------------------------------------------------------------------------

/-- `validate_config`, on the global configuration block. -/
def validateConfig (g : TrustzoneExportConfigCrc) : Int :=
  if g.signature ≠ trustzoneConfigSignature then -1
  else if g.versionMajor ≠ trustzoneConfigVersionMajor ∨
      g.versionMinor ≠ trustzoneConfigVersionMinor then -1
  else if g.config.header.versionId.toUInt16 ≠ trustzoneConfigVersionMajor then -1
  else if g.config.header.length.toNat ≠ TrustzoneExportConfig.layout.size then -1
  else if g.config.data.secureStorageType ≥ secStorageTypeInvalid then -1
  else 0

theorem validateConfig_set_crc (g : TrustzoneExportConfigCrc) (c₁ c₂ : UInt32) :
    validateConfig { g with crc1 := c₁, crc2 := c₂ } = validateConfig g := rfl

-- ---------------------------------------------------------------------------
-- Parse mode
-- ---------------------------------------------------------------------------

/-- The ways a run of parse mode ends; all but `checked` exit with -1. -/
inductive ParseOutcome where
  | openFailed
  | readFailed
  | validationFailed
  | checked (passed : Bool)
deriving DecidableEq

/-- The block parse mode reads from the start of a file. -/
def readConfig (file : Bytes) : TrustzoneExportConfigCrc :=
  layout.dec (file.take layout.size)

/-- Parse mode of `main`, on the named file or on none. -/
def parseMode (file : Option Bytes) : Except C.Fault ParseOutcome :=
  match file with
  | none => .ok .openFailed
  | some file =>
    if file.length < layout.size then .ok .readFailed
    else
      let g := readConfig file
      if validateConfig g ≠ 0 then .ok .validationFailed
      else do
        -- `checksum` still holds the zero it was initialised with.
        let (passed, _) ← doubleCheckSum (C.words (layout.enc g)) (UInt32.ofNat layout.size)
          (some 0) true
        return .checked passed

-- ---------------------------------------------------------------------------
-- Generate mode
-- ---------------------------------------------------------------------------

/-- The configuration used when `TRUSTZONE_CONFIG_ENABLE` is 0. -/
def minimalConfig : TrustzoneExportConfig where
  header := { versionId := 1, length := 12 }
  data :=
    { speFeatureEn := 0x00
      secureStorageType := secStorageTypeNofDisabled
      secureStorageAddr := 0x00000000
      secureStorageSize := 0x00000000 }

/-- The block before validation: the 0xFF background, the version fields and the
    configuration of `user_config.h`, or the minimal one without it. -/
def initConfig (user : Option TrustzoneExportConfig) (timestamp : UInt32) :
    TrustzoneExportConfigCrc :=
  { layout.filled 0xFF with
    versionMajor := trustzoneConfigVersionMajor
    versionMinor := trustzoneConfigVersionMinor
    timestamp := timestamp
    length := UInt32.ofNat layout.size
    signature := trustzoneConfigSignature
    crc1 := 0
    crc2 := 0
    config := user.getD minimalConfig }

/-- Generate mode up to the open of the output file: the block with its checksum
    pair, or `none` when validation fails. -/
def generateConfig (user : Option TrustzoneExportConfig) (timestamp : UInt32) :
    Except C.Fault (Option TrustzoneExportConfigCrc) := do
  let g := initConfig user timestamp
  if validateConfig g ≠ 0 then return none
  match ← doubleCheckSum (C.words (layout.enc g)) (UInt32.ofNat layout.size) (some 0) false with
  | (true, some checksum) =>
    return some { g with crc1 := (checksum >>> 32).toUInt32, crc2 := checksum.toUInt32 }
  | _ => return none

/-- The padding behind the block. -/
def padding : Bytes :=
  List.replicate (trustzoneConfigBinSize - layout.size) 0xFF

/-- The writes of generate mode: the exit status and the output file, which held
    `old` before the run. -/
def writeConfig (io : C.Stdio) (old : Option Bytes) (g : TrustzoneExportConfigCrc) :
    Int × Option Bytes :=
  if io.fopen then
    match io.fwrite 0 with
    | some k => (-1, some (io.closed ((layout.enc g).take k)))
    | none =>
      if io.malloc then
        match io.fwrite 1 with
        | some k => (-1, some (io.closed (layout.enc g ++ padding.take k)))
        | none => (0, some (io.closed (layout.enc g ++ padding)))
      else (-1, some (io.closed (layout.enc g)))
  else (-1, old)

/-- Generate mode of `main`. -/
def generateMode (io : C.Stdio) (user : Option TrustzoneExportConfig) (timestamp : UInt32)
    (old : Option Bytes) : Except C.Fault (Int × Option Bytes) := do
  match ← generateConfig user timestamp with
  | none => return (-1, old)
  | some g => return writeConfig io old g

-- ---------------------------------------------------------------------------
-- The sums of a block
-- ---------------------------------------------------------------------------

/-- The pair `double_check_sum` computes over a block with `crc1` and `crc2` zero. -/
def zeroedSums (g : TrustzoneExportConfigCrc) : UInt32 × UInt32 :=
  blockSums (C.words (layout.enc { g with crc1 := 0, crc2 := 0 }))

/-- The stored pair does not enter the sums it is compared with. -/
theorem zeroedSums_set_crc (g : TrustzoneExportConfigCrc) (c₁ c₂ : UInt32) :
    zeroedSums { g with crc1 := c₁, crc2 := c₂ } = zeroedSums g := by
  unfold zeroedSums
  rfl

theorem length_words_enc (g : TrustzoneExportConfigCrc) :
    (C.words (layout.enc g)).length = 9 := by
  rw [C.length_words, layout.length_enc]
  rfl

theorem byteLength_words_enc (g : TrustzoneExportConfigCrc) :
    UInt32.ofNat layout.size = byteLength (C.words (layout.enc g)) := by
  rw [byteLength, length_words_enc]
  rfl

/-- Compute mode over the zeroed block stores `zeroedSums`. -/
theorem doubleCheckSum_zeroed (g : TrustzoneExportConfigCrc) (init : UInt64) :
    doubleCheckSum (C.words (layout.enc { g with crc1 := 0, crc2 := 0 }))
        (UInt32.ofNat layout.size) (some init) false =
      .ok (true, some (packSums (zeroedSums g).1 (zeroedSums g).2)) := by
  rw [byteLength_words_enc]
  exact doubleCheckSum_compute (by rw [length_words_enc]; decide) init

section

open scoped UInt32.CommRing

/-- The sums of a block in terms of its stored pair. -/
theorem blockSums_words_enc (g : TrustzoneExportConfigCrc) :
    blockSums (C.words (layout.enc g)) =
      ((zeroedSums g).1 + (g.crc1 + g.crc2), (zeroedSums g).2 + (5 * g.crc1 + 4 * g.crc2)) := by
  obtain ⟨pre, post, -, hpost, hwords⟩ := g.words_enc
  have hself := hwords g.crc1 g.crc2
  have hzero := hwords 0 0
  have hpair := RunningSum.sums_insert_pair pre post g.crc1 g.crc2
  rw [hpost] at hpair
  rw [zeroedSums, hzero]
  calc
    blockSums (C.words (layout.enc g)) = blockSums (pre ++ g.crc1 :: g.crc2 :: post) := by
      rw [← hself]
    _ = _ := hpair

/-- The stored pairs for which the whole block sums to zero in both sums. -/
theorem blockSums_eq_zero_iff (g : TrustzoneExportConfigCrc) :
    blockSums (C.words (layout.enc g)) = (0, 0) ↔
      (g.crc1, g.crc2) =
        (4 * (zeroedSums g).1 - (zeroedSums g).2, (zeroedSums g).2 - 5 * (zeroedSums g).1) := by
  rw [blockSums_words_enc, Prod.mk.injEq, Prod.mk.injEq]
  constructor
  · rintro ⟨hplain, hweighted⟩
    constructor
    · linear_combination hweighted - 4 * hplain
    · linear_combination 5 * hplain - hweighted
  · rintro ⟨h₁, h₂⟩
    rw [h₁, h₂]
    constructor
    · ring
    · ring

/-- The pair the verifier accepts is the one the generator stores only when both
    sums are zero. -/
theorem accepted_eq_stored_iff (a b : UInt32) :
    (a, b) = (4 * a - b, b - 5 * a) ↔ a = 0 ∧ b = 0 := by
  rw [Prod.mk.injEq]
  constructor
  · rintro ⟨h₁, h₂⟩
    have hfive : 5 * a = 0 := by linear_combination h₂
    have ha : a = 0 := eq_zero_of_odd_mul (by decide) hfive
    refine ⟨ha, ?_⟩
    rw [ha] at h₁
    linear_combination h₁
  · rintro ⟨rfl, rfl⟩
    simp

end

-- ---------------------------------------------------------------------------
-- What both modes compute
-- ---------------------------------------------------------------------------

/-- The stored pair is the one `double_check_sum` computes over the zeroed block. -/
def StoredSumsCorrect (g : TrustzoneExportConfigCrc) : Prop :=
  doubleCheckSum (C.words (layout.enc { g with crc1 := 0, crc2 := 0 }))
    (UInt32.ofNat layout.size) (some 0) false = .ok (true, some (packSums g.crc1 g.crc2))

theorem storedSumsCorrect_iff (g : TrustzoneExportConfigCrc) :
    StoredSumsCorrect g ↔ (g.crc1, g.crc2) = zeroedSums g := by
  rw [StoredSumsCorrect, doubleCheckSum_zeroed]
  constructor
  · intro h
    have hpack : packSums (zeroedSums g).1 (zeroedSums g).2 = packSums g.crc1 g.crc2 := by
      simpa using h
    have hhigh := packSums_high g.crc1 g.crc2
    have hlow := packSums_low g.crc1 g.crc2
    rw [← hpack, packSums_high] at hhigh
    rw [← hpack, packSums_low] at hlow
    rw [← hhigh, ← hlow]
  · intro h
    rw [← h]

theorem readConfig_append (g : TrustzoneExportConfigCrc) (rest : Bytes) :
    readConfig (layout.enc g ++ rest) = g := by
  rw [readConfig, List.take_left' (layout.length_enc g), layout.dec_enc]

theorem parseMode_of_valid {file : Bytes} (hlen : layout.size ≤ file.length)
    (hvalid : validateConfig (readConfig file) = 0) :
    parseMode (some file) =
      .ok (.checked (decide (blockSums (C.words (layout.enc (readConfig file))) = (0, 0)))) := by
  have hwords : 4 * (C.words (layout.enc (readConfig file))).length < 2 ^ 32 := by
    rw [length_words_enc]
    decide
  simp only [parseMode, Nat.not_lt.mpr hlen, hvalid, if_false, ne_eq, not_true]
  rw [byteLength_words_enc (readConfig file), doubleCheckSum_check hwords]
  rfl

theorem parseMode_passed_iff {file : Bytes} (hlen : layout.size ≤ file.length)
    (hvalid : validateConfig (readConfig file) = 0) :
    parseMode (some file) = .ok (.checked true) ↔
      ((readConfig file).crc1, (readConfig file).crc2) =
        (4 * (zeroedSums (readConfig file)).1 - (zeroedSums (readConfig file)).2,
          (zeroedSums (readConfig file)).2 - 5 * (zeroedSums (readConfig file)).1) := by
  rw [← blockSums_eq_zero_iff, parseMode_of_valid hlen hvalid]
  simp

/-- The block generate mode stores, when validation accepts it. -/
def storedConfig (user : Option TrustzoneExportConfig) (timestamp : UInt32) :
    TrustzoneExportConfigCrc :=
  { initConfig user timestamp with
    crc1 := (zeroedSums (initConfig user timestamp)).1
    crc2 := (zeroedSums (initConfig user timestamp)).2 }

theorem validateConfig_storedConfig (user : Option TrustzoneExportConfig) (timestamp : UInt32) :
    validateConfig (storedConfig user timestamp) = validateConfig (initConfig user timestamp) :=
  validateConfig_set_crc _ _ _

theorem zeroedSums_storedConfig (user : Option TrustzoneExportConfig) (timestamp : UInt32) :
    zeroedSums (storedConfig user timestamp) = zeroedSums (initConfig user timestamp) :=
  zeroedSums_set_crc _ _ _

theorem generateConfig_eq (user : Option TrustzoneExportConfig) (timestamp : UInt32) :
    generateConfig user timestamp =
      .ok (if validateConfig (initConfig user timestamp) = 0 then some (storedConfig user timestamp)
        else none) := by
  have hsums := doubleCheckSum_zeroed (initConfig user timestamp) 0
  have hinit : { initConfig user timestamp with crc1 := 0, crc2 := 0 } =
    initConfig user timestamp := rfl
  rw [hinit] at hsums
  unfold generateConfig
  by_cases hvalid : validateConfig (initConfig user timestamp) = 0
  · simp only [hvalid, ne_eq, not_true, if_false, if_true, hsums]
    show Except.ok (some _) = _
    rw [packSums_high, packSums_low]
    rfl
  · simp only [hvalid, ne_eq, not_false_iff, if_true, if_false]
    rfl

theorem writeConfig_success (old : Option Bytes) (g : TrustzoneExportConfigCrc) :
    writeConfig .success old g = (0, some (layout.enc g ++ padding)) := by
  simp only [writeConfig, C.Stdio.success, C.Stdio.closed, if_true]

/-- Past validation, the run comes down to the write. -/
theorem generateMode_eq {user : Option TrustzoneExportConfig} {timestamp : UInt32}
    (hvalid : validateConfig (initConfig user timestamp) = 0) (io : C.Stdio)
    (old : Option Bytes) :
    generateMode io user timestamp old = .ok (writeConfig io old (storedConfig user timestamp)) := by
  unfold generateMode
  rw [generateConfig_eq, if_pos hvalid]
  rfl

theorem generateMode_invalid {user : Option TrustzoneExportConfig} {timestamp : UInt32}
    (hvalid : validateConfig (initConfig user timestamp) ≠ 0) (io : C.Stdio)
    (old : Option Bytes) : generateMode io user timestamp old = .ok (-1, old) := by
  unfold generateMode
  rw [generateConfig_eq, if_neg hvalid]
  rfl

theorem generateMode_success {user : Option TrustzoneExportConfig} {timestamp : UInt32}
    (old : Option Bytes) (hvalid : validateConfig (initConfig user timestamp) = 0) :
    generateMode .success user timestamp old =
      .ok (0, some (layout.enc (storedConfig user timestamp) ++ padding)) := by
  rw [generateMode_eq hvalid, writeConfig_success]

theorem generateMode_status {user : Option TrustzoneExportConfig} {timestamp : UInt32}
    {old file : Option Bytes} (h : generateMode .success user timestamp old = .ok (0, file)) :
    validateConfig (initConfig user timestamp) = 0 := by
  by_contra hvalid
  rw [generateMode_invalid hvalid] at h
  simp at h

/-- What parse mode says about a generated file. -/
theorem parseMode_generated {user : Option TrustzoneExportConfig} {timestamp : UInt32}
    (hvalid : validateConfig (initConfig user timestamp) = 0) :
    parseMode (some (layout.enc (storedConfig user timestamp) ++ padding)) =
      .ok (.checked (decide (zeroedSums (initConfig user timestamp) = (0, 0)))) := by
  have hread := readConfig_append (storedConfig user timestamp) padding
  have hlen : layout.size ≤ (layout.enc (storedConfig user timestamp) ++ padding).length := by
    rw [List.length_append, layout.length_enc]
    omega
  have hvalid' : validateConfig (readConfig
      (layout.enc (storedConfig user timestamp) ++ padding)) = 0 := by
    rw [hread, validateConfig_storedConfig, hvalid]
  rw [parseMode_of_valid hlen hvalid', hread, decide_eq_decide.mpr]
  rw [blockSums_eq_zero_iff, zeroedSums_storedConfig]
  exact (accepted_eq_stored_iff _ _).trans Prod.mk_eq_zero.symm

/-- Parse mode gives the right verdict on a file that validates. -/
def VerdictCorrect (file : Bytes) : Prop :=
  parseMode (some file) = .ok (.checked true) ↔ StoredSumsCorrect (readConfig file)

/-- **When the checksum verdict is right.** Parse mode sums the block with its
    pair inside and compares with zero, so it accepts one pair only, and that is
    the stored one only when both sums of the zeroed block vanish. The first part is
    about any file that validates, the second about a file generate mode wrote. -/
theorem verdictCorrect_iff (file : Bytes) (user : Option TrustzoneExportConfig)
    (timestamp : UInt32) (old : Option Bytes) (written : Bytes) :
    (layout.size ≤ file.length → validateConfig (readConfig file) = 0 →
      (VerdictCorrect file ↔
        ((readConfig file).crc1, (readConfig file).crc2) ≠ zeroedSums (readConfig file) ∧
          ((readConfig file).crc1, (readConfig file).crc2) ≠
            (4 * (zeroedSums (readConfig file)).1 - (zeroedSums (readConfig file)).2,
              (zeroedSums (readConfig file)).2 - 5 * (zeroedSums (readConfig file)).1) ∨
        zeroedSums (readConfig file) = (0, 0))) ∧
      (generateMode .success user timestamp old = .ok (0, some written) →
        (parseMode (some written) = .ok (.checked true) ↔
          zeroedSums (initConfig user timestamp) = (0, 0))) := by
  constructor
  · intro hlen hvalid
    rw [VerdictCorrect, parseMode_passed_iff hlen hvalid, storedSumsCorrect_iff]
    obtain ⟨a, b⟩ := zeroedSums (readConfig file)
    have haccept := accepted_eq_stored_iff a b
    simp only [ne_eq, Prod.mk.injEq] at haccept ⊢
    constructor
    · intro hiff
      by_cases hstored : (readConfig file).crc1 = a ∧ (readConfig file).crc2 = b
      · obtain ⟨h₁, h₂⟩ := hiff.mpr hstored
        exact Or.inr (haccept.mp ⟨hstored.1.symm.trans h₁, hstored.2.symm.trans h₂⟩)
      · exact Or.inl ⟨hstored, fun h => hstored (hiff.mp h)⟩
    · rintro (⟨hstored, haccepted⟩ | ⟨rfl, rfl⟩)
      · exact ⟨fun h => (haccepted h).elim, fun h => (hstored h).elim⟩
      · simp
  · intro hgen
    have hvalid := generateMode_status hgen
    rw [generateMode_success old hvalid] at hgen
    have hfile : layout.enc (storedConfig user timestamp) ++ padding = written := by
      simpa using hgen
    rw [← hfile, parseMode_generated hvalid]
    simp

/-- The configuration of `user_config.h`. -/
def trustzoneConfig : TrustzoneExportConfig where
  header := { versionId := 1, length := 12 }
  data :=
    { speFeatureEn := 0x01
      secureStorageType := secStorageTypeNofEnabled
      secureStorageAddr := 0x600000
      secureStorageSize := 0x200000 }

/-- The shipped configuration, generated at timestamp 0 and parsed again, is
    reported as failing although its stored pair is right. -/
theorem parseMode_rejects_generated :
    ∃ file, generateMode .success (some trustzoneConfig) 0 none = .ok (0, some file) ∧
      validateConfig (readConfig file) = 0 ∧ StoredSumsCorrect (readConfig file) ∧
      parseMode (some file) = .ok (.checked false) ∧ ¬ VerdictCorrect file := by
  have hvalid : validateConfig (initConfig (some trustzoneConfig) 0) = 0 := by decide
  have hread := readConfig_append (storedConfig (some trustzoneConfig) 0) padding
  have hparse := parseMode_generated hvalid
  have hsums : zeroedSums (initConfig (some trustzoneConfig) 0) ≠ (0, 0) := by decide +kernel
  rw [decide_eq_false hsums] at hparse
  have hstored : StoredSumsCorrect (storedConfig (some trustzoneConfig) 0) := by
    rw [storedSumsCorrect_iff, zeroedSums_storedConfig]
    rfl
  refine ⟨_, generateMode_success none hvalid, ?_, ?_, hparse, ?_⟩
  · rw [hread, validateConfig_storedConfig, hvalid]
  · rw [hread]
    exact hstored
  · intro hverdict
    rw [VerdictCorrect, hparse, hread] at hverdict
    have := hverdict.mpr hstored
    simp at this

/-- Both halves at the file that is written: the flag is not right about it, and it is not
    reported as correct. -/
theorem verdictCorrect_iff_shipped :
    ¬ VerdictCorrect (layout.enc (storedConfig (some trustzoneConfig) 0) ++ padding) ∧
      ¬ parseMode (some (layout.enc (storedConfig (some trustzoneConfig) 0) ++ padding)) =
        .ok (.checked true) := by
  have hvalid : validateConfig (initConfig (some trustzoneConfig) 0) = 0 := by decide
  have hsums : zeroedSums (initConfig (some trustzoneConfig) 0) ≠ (0, 0) := by decide +kernel
  have hread := readConfig_append (storedConfig (some trustzoneConfig) 0) padding
  obtain ⟨hfile, hreported⟩ := verdictCorrect_iff
    (layout.enc (storedConfig (some trustzoneConfig) 0) ++ padding) (some trustzoneConfig) 0 none _
  have hlen : layout.size ≤ (layout.enc (storedConfig (some trustzoneConfig) 0) ++ padding).length := by
    rw [List.length_append, layout.length_enc]
    omega
  rw [hread] at hfile
  constructor
  · -- The stored pair is the right one, and it is not zero.
    rw [hfile hlen (by rw [validateConfig_storedConfig, hvalid]), zeroedSums_storedConfig, not_or]
    exact ⟨fun h => h.1 rfl, hsums⟩
  · rw [hreported (generateMode_success none hvalid)]
    exact hsums

end TrustZone
