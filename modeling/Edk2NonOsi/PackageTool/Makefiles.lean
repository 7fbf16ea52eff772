-- SUMMARY: The makefiles of the three configurations, and when what a run packages was generated in that run.
import Edk2NonOsi.PackageTool.Completion
import Edk2NonOsi.PackageTool.OutputFile

open Shell

namespace PackageTool

/-! # Makefiles

The PM and the TrustZone makefile remove the file of an earlier run before
they compile anything. That of the memory configuration does not, and the
`main` of its tool returns nothing, so that its exit status may be anything.
What else `make` changes in its directory, and how it fails, is left open. -/

variable {Ptr : Type} [DecidableEq Ptr]

-- ---------------------------------------------------------------------------
-- Makefiles
-- ---------------------------------------------------------------------------

/-- A generator that the compiler made, and how its run goes. -/
structure Generator (Ptr : Type) where
  /-- The configuration that is compiled in. -/
  config : Config Ptr
  io : C.Stdio
  /-- The exit status of a `main` that returns nothing. -/
  voidStatus : UInt8

/-- A run of a generator: its exit status, and the file it leaves where `old` was. -/
def Generator.run (g : Generator Ptr) (old : Option Bytes) :
    Except C.Fault (UInt8 × Option Bytes) :=
  match g.config with
  | .memory quick heap entries => do
    if g.io.malloc then
      match ← MemConfig.main quick heap entries with
      | .invalidGuid => return (g.voidStatus, old)
      | .written image =>
        let file ← MemConfig.memConfigBinOutprint g.io image
        return (g.voidStatus, some file)
    else .error .nullPointer
  | .csuPm user timestamp => do
    let (status, file) ← PmConfig.generateMode g.io user timestamp old
    return (UInt8.ofInt status, file)
  | .trustzone user timestamp => do
    let (status, file) ← TrustZone.generateMode g.io user timestamp old
    return (UInt8.ofInt status, file)

/-- What `clean` leaves of the directory. `make` does not run it for the memory configuration. -/
def ConfigKind.clean : ConfigKind → Listing Bytes → Listing Bytes
  | .memory, l => l
  | .csuPm, l => (l.remove "csupm_bin_config").remove "csu_pm_config.bin"
  | .trustzone, l => (l.remove "trustzone_bin_config").remove "trustzone_config.bin"

/-- The generator that the compiler makes of a directory, if it makes one, in the run for a key
    type. -/
abbrev Compiler (Ptr : Type) : Type :=
  KeyType → ConfigKind → Listing Bytes → Option (Generator Ptr)

/-- `make` goes through only where the compiler made a generator and the run of that went
    through, and the file is then as the generator left it. -/
def Tools.Makefiles (tools : Tools) (compiler : Compiler Ptr) : Prop :=
  ∀ k kind l, (tools.make k kind l).1 = 0 →
    ∃ g file, compiler k kind l = some g ∧
      g.run ((kind.clean l).read kind.file) = .ok (0, file) ∧
      (tools.make k kind l).2.read kind.file = file

-- ---------------------------------------------------------------------------
-- Generators
-- ---------------------------------------------------------------------------

theorem ofInt_eq_zero_iff {status : Int} (h : status = 0 ∨ status = -1) :
    UInt8.ofInt status = 0 ↔ status = 0 := by
  rcases h with rfl | rfl
  · decide
  · decide

theorem pm_writeConfig_status {io : C.Stdio} {old file : Option Bytes} {block : Bytes}
    {status : Int} (h : PmConfig.writeConfig io old block = .ok (status, file)) :
    status = 0 ∨ status = -1 := by
  unfold PmConfig.writeConfig at h
  split at h
  next => exact Or.inr (Prod.mk.inj (Except.ok.inj h)).1.symm
  next =>
    split at h
    next => exact Or.inr (Prod.mk.inj (Except.ok.inj h)).1.symm
    next =>
      obtain ⟨buffer, -, h⟩ := C.bind_eq_ok_iff.mp h
      split at h
      next => exact Or.inr (Prod.mk.inj (Except.ok.inj h)).1.symm
      next => exact Or.inl (Prod.mk.inj (Except.ok.inj h)).1.symm

theorem trustZone_writeConfig_status (io : C.Stdio) (old : Option Bytes)
    (g : TrustZone.TrustzoneExportConfigCrc) :
    (TrustZone.writeConfig io old g).1 = 0 ∨ (TrustZone.writeConfig io old g).1 = -1 := by
  unfold TrustZone.writeConfig
  cases io.fopen with
  | false => exact Or.inr rfl
  | true =>
    cases io.fwrite 0 with
    | some k => exact Or.inr rfl
    | none =>
      cases io.malloc with
      | false => exact Or.inr rfl
      | true =>
        cases io.fwrite 1 with
        | some k => exact Or.inr rfl
        | none => exact Or.inl rfl

/-- The failures that a tool would not notice: of `fclose`, and in the memory tool of `fwrite`. -/
structure Generator.WritesThrough (g : Generator Ptr) : Prop where
  fclose : g.io.fclose = none
  fwrite : g.config.kind = .memory → g.io.fwrite 0 = none

variable {g : Generator Ptr} {old file : Option Bytes}

omit [DecidableEq Ptr] in
theorem Generator.WritesThrough.outprint (h : g.WritesThrough) (hkind : g.config.kind = .memory)
    {image file : Bytes} (hrun : MemConfig.memConfigBinOutprint g.io image = .ok file) :
    file = image := by
  unfold MemConfig.memConfigBinOutprint at hrun
  split at hrun
  next =>
    rw [h.fwrite hkind] at hrun
    rw [← Except.ok.inj hrun, C.Stdio.closed_eq h.fclose]
  next => cases hrun

section Status

variable {io : C.Stdio} {voidStatus : UInt8}

/-- A run of the memory tool with status 0. -/
theorem Generator.memory_eq_zero {quick : MemConfig.MemQuickConfig} {heap : Ptr → Bytes}
    {entries : List (MemConfig.CdcbBlockEntry Ptr)}
    (ha : (Config.memory quick heap entries).Admissible)
    (hthrough : (Generator.mk (.memory quick heap entries) io voidStatus).WritesThrough)
    (h : (Generator.mk (.memory quick heap entries) io voidStatus).run old = .ok (0, file)) :
    ((Config.memory quick heap entries).Valid ∧
        file = some (Config.memory quick heap entries).image) ∨
      (¬ (Config.memory quick heap entries).Valid ∧ voidStatus = 0 ∧ file = old) := by
  simp only [run] at h
  split at h
  next =>
    obtain ⟨outcome, hmain, h⟩ := C.bind_eq_ok_iff.mp h
    by_cases hv : (Config.memory quick heap entries).Valid
    · left
      rw [MemConfig.main_eq (Config.packable ha hv).fits quick] at hmain
      obtain rfl := Except.ok.inj hmain
      obtain ⟨written, hprint, h⟩ := C.bind_eq_ok_iff.mp h
      have himage := hthrough.outprint rfl hprint
      rw [← (Prod.mk.inj (Except.ok.inj h)).2, himage]
      exact ⟨hv, rfl⟩
    · right
      obtain ⟨hcount, hblocks, -⟩ := ha
      have hinvalid : ∃ e ∈ entries, e.guid = MemConfig.guidInvalid := by
        by_contra hnone
        exact hv fun e he hguid => hnone ⟨e, he, hguid⟩
      rw [MemConfig.main_invalidGuid hcount (fun e he => (hblocks e he).readable) hinvalid]
        at hmain
      obtain rfl := Except.ok.inj hmain
      obtain ⟨hstatus, hfile⟩ := Prod.mk.inj (Except.ok.inj h)
      exact ⟨hv, hstatus, hfile.symm⟩
  next => cases h

/-- A run of the PM tool with status 0. -/
theorem Generator.csuPm_eq_zero {user : PmConfig.UserConfig} {timestamp : UInt32}
    (ha : PmConfig.DomainsPresent user) (hfclose : io.fclose = none)
    (h : (Generator.mk (.csuPm user timestamp : Config Ptr) io voidStatus).run old =
      .ok (0, file)) :
    PmConfig.WellFormed user ∧ file = some (PmConfig.imageOf user timestamp) := by
  simp only [run] at h
  obtain ⟨⟨status, file'⟩, hrun, h⟩ := C.bind_eq_ok_iff.mp h
  obtain ⟨hstatus, rfl⟩ := Prod.mk.inj (Except.ok.inj h)
  by_cases hv : PmConfig.WellFormed user
  · have haccept := (PmConfig.accepted_iff ha).mpr hv
    rw [PmConfig.generateMode_eq haccept] at hrun
    obtain ⟨status', file', hwrite, hleaves⟩ :=
      pm_writeConfig_leavesFile io old (PmConfig.generatedConfig user timestamp)
    have hsame := Except.ok.inj (hwrite.symm.trans hrun)
    obtain ⟨rfl, rfl⟩ := Prod.mk.inj hsame
    have hzero := (ofInt_eq_zero_iff (pm_writeConfig_status hrun)).mp hstatus
    exact ⟨hv, hleaves.complete hzero hfclose⟩
  · rw [PmConfig.generateMode_rejects ha hv] at hrun
    obtain ⟨rfl, -⟩ := Prod.mk.inj (Except.ok.inj hrun)
    exact absurd (show UInt8.ofInt (-1) = 0 from hstatus) (by decide)

/-- A run of the TrustZone tool with status 0. -/
theorem Generator.trustzone_eq_zero {user : Option TrustZone.TrustzoneExportConfig}
    {timestamp : UInt32} (hfclose : io.fclose = none)
    (h : (Generator.mk (.trustzone user timestamp : Config Ptr) io voidStatus).run old =
      .ok (0, file)) :
    (Config.trustzone user timestamp : Config Ptr).Valid ∧
      file = some (Config.trustzone user timestamp : Config Ptr).image := by
  simp only [run] at h
  obtain ⟨⟨status, file'⟩, hrun, h⟩ := C.bind_eq_ok_iff.mp h
  obtain ⟨hstatus, rfl⟩ := Prod.mk.inj (Except.ok.inj h)
  by_cases hv : TrustZone.validateConfig (TrustZone.initConfig user timestamp) = 0
  · rw [TrustZone.generateMode_eq hv] at hrun
    obtain ⟨status', file', hwrite, hleaves⟩ :=
      trustZone_writeConfig_leavesFile io old (TrustZone.storedConfig user timestamp)
    have hends := trustZone_writeConfig_status io old (TrustZone.storedConfig user timestamp)
    rw [hwrite] at hrun hends
    obtain ⟨rfl, rfl⟩ := Prod.mk.inj (Except.ok.inj hrun)
    have hzero := (ofInt_eq_zero_iff hends).mp hstatus
    exact ⟨(TrustZone.validateConfig_initConfig_iff user timestamp).mp hv,
      hleaves.complete hzero hfclose⟩
  · rw [TrustZone.generateMode_invalid hv] at hrun
    obtain ⟨rfl, -⟩ := Prod.mk.inj (Except.ok.inj hrun)
    exact absurd (show UInt8.ofInt (-1) = 0 from hstatus) (by decide)

end Status

/-- A run with status 0 leaves the image of a valid configuration. The memory tool may end
    so on one that is not valid, and leaves its file alone then. -/
theorem Generator.run_eq_zero (ha : g.config.Admissible) (hthrough : g.WritesThrough)
    (h : g.run old = .ok (0, file)) :
    (g.config.Valid ∧ file = some g.config.image) ∨
      (g.config.kind = .memory ∧ ¬ g.config.Valid ∧ g.voidStatus = 0 ∧ file = old) := by
  obtain ⟨config, io, voidStatus⟩ := g
  cases config with
  | memory quick heap entries =>
    obtain hmade | hkept := memory_eq_zero ha hthrough h
    · exact Or.inl hmade
    · exact Or.inr ⟨rfl, hkept⟩
  | csuPm user timestamp => exact Or.inl (csuPm_eq_zero ha hthrough.fclose h)
  | trustzone user timestamp => exact Or.inl (trustzone_eq_zero hthrough.fclose h)

/-- When every library call succeeds, the run on a valid configuration leaves its image. -/
theorem Generator.run_valid (ha : g.config.Admissible) (hv : g.config.Valid)
    (hio : g.io = .success) (hvoid : g.voidStatus = 0) (old : Option Bytes) :
    g.run old = .ok (0, some g.config.image) := by
  unfold run
  cases hconfig : g.config with
  | memory quick heap entries =>
    rw [hconfig] at ha hv
    simp only [hio, hvoid, MemConfig.main_eq (Config.packable ha hv).fits quick, C.ok_bind]
    rfl
  | csuPm user timestamp =>
    rw [hconfig] at ha hv
    simp only [hio, PmConfig.generateMode_wellFormed ha hv, C.ok_bind]
    rfl
  | trustzone user timestamp =>
    rw [hconfig] at hv
    have hvalid := (TrustZone.validateConfig_initConfig_iff user timestamp).mpr hv
    simp only [hio, TrustZone.generateMode_success old hvalid, C.ok_bind]
    rfl

-- ---------------------------------------------------------------------------
-- Configurations of this run
-- ---------------------------------------------------------------------------

/-- What the compiler makes is a generator of the kind, on a configuration it can be run on. -/
structure Generator.Suits (kind : ConfigKind) (g : Generator Ptr) : Prop where
  kind : g.config.kind = kind
  admissible : g.config.Admissible
  writesThrough : g.WritesThrough

/-- The compiler makes such generators only. -/
def Compiler.Suits (compiler : Compiler Ptr) : Prop :=
  ∀ k kind l g, compiler k kind l = some g → g.Suits kind

/-- The memory tool does not end with status 0 on an invalid GUID. -/
def Compiler.RefusesGuid (compiler : Compiler Ptr) : Prop :=
  ∀ k l g, compiler k .memory l = some g → g.config.Valid ∨ g.voidStatus ≠ 0

/-- A `make` that goes through. -/
theorem Tools.Makefiles.made {tools : Tools} {compiler : Compiler Ptr}
    (hmake : tools.Makefiles compiler) (hsuits : compiler.Suits) {k : KeyType} {kind : ConfigKind}
    {l : Listing Bytes} (hstatus : (tools.make k kind l).1 = 0) :
    ∃ g, compiler k kind l = some g ∧
      ((g.config.Valid ∧ (tools.make k kind l).2.read kind.file = some g.config.image) ∨
        (kind = .memory ∧ ¬ g.config.Valid ∧ g.voidStatus = 0 ∧
          (tools.make k kind l).2.read kind.file = l.read kind.file)) := by
  obtain ⟨g, file, hg, hrun, hread⟩ := hmake k kind l hstatus
  obtain ⟨hkind, ha, hthrough⟩ := hsuits k kind l g hg
  refine ⟨g, hg, ?_⟩
  rw [hread]
  obtain ⟨hv, rfl⟩ | ⟨hmemory, hv, hvoid, rfl⟩ := Generator.run_eq_zero ha hthrough hrun
  · exact Or.inl ⟨hv, rfl⟩
  · right
    obtain rfl : kind = .memory := hkind.symm.trans hmemory
    exact ⟨rfl, hv, hvoid, rfl⟩

omit [DecidableEq Ptr] in
/-- Where the memory tool refuses an invalid GUID, what was made is all there is. -/
theorem Compiler.RefusesGuid.made {compiler : Compiler Ptr} (h : compiler.RefusesGuid)
    {k : KeyType} {kind : ConfigKind} {l : Listing Bytes} {g : Generator Ptr} {made kept : Prop}
    (hg : compiler k kind l = some g)
    (hor : (g.config.Valid ∧ made) ∨
      (kind = .memory ∧ ¬ g.config.Valid ∧ g.voidStatus = 0 ∧ kept)) :
    g.config.Valid ∧ made := by
  obtain hmade | ⟨rfl, hv, hvoid, -⟩ := hor
  · exact hmade
  · rcases h k l g hg with hvalid | hstatus
    · exact absurd hvalid hv
    · exact absurd hvoid hstatus

-- ---------------------------------------------------------------------------
-- A generator of each kind
-- ---------------------------------------------------------------------------

def sampleMemory : Config Bool :=
  .memory (MemConfig.MemQuickConfig.layout.filled 0) MemConfig.sampleBlocks MemConfig.sampleEntries

/-- The configurations that are compiled in. The PM generator is run a second later for the
    second key type. -/
def sampleConfigs (now : UInt32) : KeyType → ConfigKind → Config Bool
  | _, .memory => sampleMemory
  | .pr, .csuPm => .csuPm PmConfig.sampleConfig now
  | .pr2, .csuPm => .csuPm PmConfig.sampleConfig (now + 1)
  | _, .trustzone => .trustzone (some TrustZone.trustzoneConfig) now

def sampleGenerators (now : UInt32) (k : KeyType) (kind : ConfigKind) : Generator Bool where
  config := sampleConfigs now k kind
  io := .success
  voidStatus := 0

section Samples

variable (now : UInt32)

theorem sampleGenerators_suits (k : KeyType) (kind : ConfigKind) :
    (sampleGenerators now k kind).Suits kind where
  kind := by cases k <;> cases kind <;> rfl
  admissible := by
    cases kind with
    | memory =>
      have hpack := MemConfig.packable_sample
      have hsize : MemConfig.imageSize MemConfig.sampleBlocks MemConfig.sampleEntries ≤
          MemConfig.memoryConfigSlotSize := by decide +kernel
      cases k <;> exact ⟨hpack.count, hpack.headered, hsize⟩
    | csuPm => cases k <;> exact PmConfig.domainsPresent_sampleConfig
    | trustzone => cases k <;> exact trivial
  writesThrough := ⟨rfl, fun _ => rfl⟩

theorem sampleGenerators_valid (k : KeyType) (kind : ConfigKind) :
    (sampleGenerators now k kind).config.Valid := by
  cases kind with
  | memory => cases k <;> exact MemConfig.packable_sample.guid
  | csuPm =>
    have hok := (PmConfig.accepted_iff PmConfig.domainsPresent_sampleConfig).mp
      PmConfig.accepted_sampleConfig
    cases k <;> exact hok
  | trustzone =>
    have hok := (TrustZone.validateConfig_initConfig_iff (some TrustZone.trustzoneConfig) 0).mp
      (by decide)
    cases k <;> exact hok

def sampleCompiler : Compiler Bool := fun k kind l =>
  if hasSource kind l then some (sampleGenerators now k kind) else none

theorem sampleCompiler_eq {k : KeyType} {kind : ConfigKind} {l : Listing Bytes}
    {g : Generator Bool} (h : sampleCompiler now k kind l = some g) : g = sampleGenerators now k kind := by
  unfold sampleCompiler at h
  split at h
  next => exact (Option.some.inj h).symm
  next => cases h

theorem sampleCompiler_suits : (sampleCompiler now).Suits := by
  intro k kind l g hg
  rw [sampleCompiler_eq now hg]
  exact sampleGenerators_suits now k kind

theorem sampleCompiler_refusesGuid : (sampleCompiler now).RefusesGuid := by
  intro k l g hg
  rw [sampleCompiler_eq now hg]
  exact Or.inl (sampleGenerators_valid now k .memory)

/-- The program that `make` leaves. That of the memory configuration is removed. -/
def ConfigKind.program : ConfigKind → Listing Bytes
  | .memory => []
  | .csuPm => [("csupm_bin_config", [])]
  | .trustzone => [("trustzone_bin_config", [])]

/-- What is in the directory after a `make` that goes through. -/
def sampleListing (k : KeyType) (kind : ConfigKind) (l : Listing Bytes) : Listing Bytes :=
  (kind.program ++ kind.clean l).write kind.file (sampleGenerators now k kind).config.image

theorem hasSource_sampleListing (k : KeyType) (kind : ConfigKind) (l : Listing Bytes) :
    hasSource kind (sampleListing now k kind l) = hasSource kind l := by
  cases kind <;>
    simp [sampleListing, hasSource, ConfigKind.source, ConfigKind.file, ConfigKind.program,
      ConfigKind.clean, Listing.read_cons]

/-- The sample tools, with the makefiles. -/
def makefileTools : Tools :=
  { sampleTools with
    make := fun k kind l =>
      if hasSource kind l then (0, sampleListing now k kind l) else (2, kind.clean l) }

theorem makefileTools_make {k : KeyType} {kind : ConfigKind} {l : Listing Bytes}
    (h : hasSource kind l = true) :
    (makefileTools now).make k kind l = (0, sampleListing now k kind l) :=
  if_pos h

theorem makefileTools_makefiles : (makefileTools now).Makefiles (sampleCompiler now) := by
  intro k kind l hstatus
  by_cases h : hasSource kind l = true
  · rw [makefileTools_make now h, sampleCompiler, if_pos h]
    exact ⟨_, _, rfl, Generator.run_valid (sampleGenerators_suits now k kind).admissible
      (sampleGenerators_valid now k kind) rfl rfl _, by simp [sampleListing]⟩
  · have hmake : (makefileTools now).make k kind l = (2, kind.clean l) := if_neg h
    rw [hmake] at hstatus
    exact absurd (show (2 : UInt8) = 0 from hstatus) (by decide)

theorem makefileTools_confined : (makefileTools now).Confined :=
  { sampleTools_confined with }

theorem makefileTools_work {usable : String → Bytes → Prop}
    (hdummy : usable "dummy.bin" (List.replicate 8192 0xFF))
    (hshort : ∀ name file, file.length ≤ 1 → usable name file)
    (himage : ∀ k kind, usable (ConfigKind.file kind) (sampleGenerators now k kind).config.image) :
    (makefileTools now).Work usable (fun kind l => hasSource kind l = true) :=
  { sampleTools_work hdummy hshort with
    make := fun k kind l h => by
      rw [makefileTools_make now h]
      exact ⟨rfl, (hasSource_sampleListing now k kind l).trans h,
        (sampleGenerators now k kind).config.image, by simp [sampleListing], himage k kind⟩ }

theorem makefileTools_work_all :
    (makefileTools now).Work (fun _ _ => True) (fun kind l => hasSource kind l = true) :=
  makefileTools_work now trivial (fun _ _ _ => trivial) fun _ _ => trivial

theorem exists_ok_makefileTools :
    ∃ t', buildAndPackage (makefileTools now) .other "O6" sampleWorkspace = .ok () t' :=
  (exists_ok_buildAndPackage (makefileTools_confined now) (makefileTools_work_all now)
    (s := sampleSettings) rfl rfl (stocked_sampleWorkspace (fun _ _ _ => trivial) _)
    (fit_sampleWorkspace _)).mpr ⟨_, rfl⟩

end Samples

-- ---------------------------------------------------------------------------
-- What is packaged
-- ---------------------------------------------------------------------------

section Run

variable {tools : Tools} {machine : Machine} {t t' : Workspace} {arg : String}
  {compiler : Compiler Ptr}

/-- The configuration that a run stages, of a directory that is there and of a file that the
    project does not bring itself. -/
theorem Leaves.configures {p : PathProject} {k : KeyType} {kind : ConfigKind}
    {layout : FlashFile → Option Bytes} (hmake : tools.Makefiles compiler)
    (hsuits : compiler.Suits) (hleaves : Leaves tools k (stagedFiles tools p t k) layout t')
    (hmade : ∀ l, configDir tools p kind t k = some l →
      (tools.make k kind l).1 = 0 ∧ ((tools.make k kind l).2.read kind.file).isSome)
    (hdir : t.hasDir (.project p kind.dir)) (hoverride : ¬ t.has ⟨.project p .firmwares, kind.file⟩) :
    ∃ l g, configDir tools p kind t k = some l ∧ compiler k kind l = some g ∧
      ((g.config.Valid ∧ t'.read ⟨.tempFirmwares k, kind.file⟩ = some g.config.image) ∨
        (kind = .memory ∧ ¬ g.config.Valid ∧ g.voidStatus = 0 ∧
          t'.read ⟨.tempFirmwares k, kind.file⟩ = l.read kind.file)) := by
  obtain ⟨l₀, hl₀⟩ := exists_of_hasDir hdir
  have hconfig : ∃ l, configDir tools p kind t k = some l := by
    cases k with
    | pr => exact ⟨l₀, hl₀⟩
    | pr2 => exact ⟨_, congrArg (makeListing tools .pr kind) hl₀⟩
  obtain ⟨l, hl⟩ := hconfig
  obtain ⟨hstatus, hfile⟩ := hmade l hl
  obtain ⟨contents, hcontents⟩ := Option.isSome_iff_exists.mp hfile
  have hstaged : t'.read ⟨.tempFirmwares k, kind.file⟩ = (tools.make k kind l).2.read kind.file := by
    have hne : kind.file ≠ "bootloader3.img" := by cases kind <;> decide
    have hproject : projectLayer p t kind.file = none := by
      simpa [projectLayer, Layer.glob, Tree.has] using fun _ => hoverride
    have hread : configFile tools p t k kind = some contents := by
      rw [configFile, hl, Option.bind_some, hcontents]
    rw [hleaves.firmware _ hne, stagedFiles, hproject, hcontents]
    cases kind <;> simp [ConfigKind.file, hread]
  obtain ⟨g, hg, hor⟩ := hmake.made hsuits hstatus
  rw [← hstaged] at hor
  exact ⟨l, g, hl, hg, hor⟩

/-- **No configuration of an earlier run is packaged.** In a run that goes through, each
    configuration of the project is for each key type that of the generator which the compiler
    made of the directory in this run: it was valid, and what is packaged is its image. There
    is one way out of this: a memory configuration with an invalid GUID, where the tool
    happens to end with status 0. The file that lay in the directory is packaged then. -/
theorem buildAndPackage_configures (hc : tools.Confined) (hmake : tools.Makefiles compiler)
    (hsuits : compiler.Suits) (h : buildAndPackage tools machine arg t = .ok () t') :
    ∃ s, Settings.ofProject? (if arg = "" then "Merak" else arg) = some s ∧
      ∀ k kind, t.hasDir (.project s.pathProject (ConfigKind.dir kind)) →
        ¬ t.has ⟨.project s.pathProject .firmwares, kind.file⟩ →
          ∃ l g, configDir tools s.pathProject kind t k = some l ∧ compiler k kind l = some g ∧
            ((g.config.Valid ∧
                t'.read ⟨.tempFirmwares k, kind.file⟩ = some g.config.image) ∨
              (kind = .memory ∧ ¬ g.config.Valid ∧ g.voidStatus = 0 ∧
                t'.read ⟨.tempFirmwares k, kind.file⟩ = l.read kind.file)) := by
  obtain ⟨s, hs, hleaves⟩ := (wp_of_ok h).mp (wp_buildAndPackage hc machine arg t)
  refine ⟨s, hs, fun k kind hdir hoverride => ?_⟩
  exact (hleaves k).1.configures hmake hsuits ((hleaves k).2 kind) hdir hoverride

/-- The PM configuration is that of the run for the key type. -/
theorem buildAndPackage_configures_sample :
    ∃ t', buildAndPackage (makefileTools 0) .other "O6" sampleWorkspace = .ok () t' ∧
      t'.read ⟨.tempFirmwares .pr2, "csu_pm_config.bin"⟩ =
        some (PmConfig.imageOf PmConfig.sampleConfig 1) := by
  obtain ⟨t', hrun⟩ := exists_ok_makefileTools 0
  obtain ⟨s, hs, hpackaged⟩ := buildAndPackage_configures (makefileTools_confined 0)
    (makefileTools_makefiles 0) (sampleCompiler_suits 0) hrun
  obtain rfl : sampleSettings = s := Option.some.inj hs
  obtain ⟨l, g, -, hg, ⟨-, himage⟩ | ⟨hmemory, -⟩⟩ := hpackaged .pr2 .csuPm rfl (by decide)
  · obtain rfl := sampleCompiler_eq 0 hg
    exact ⟨t', hrun, himage⟩
  · cases hmemory

end Run

end PackageTool
