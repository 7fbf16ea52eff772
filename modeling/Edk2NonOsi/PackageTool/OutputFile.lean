-- SUMMARY: The output files of the PM and the TrustZone generator after a run, whichever library calls fail.
import Edk2NonOsi.PmConfig.Generate
import Edk2NonOsi.TrustZone.BinConfig

namespace PackageTool

/-- The write of the PM tool, whatever fails. -/
theorem pm_writeConfig_leavesFile (io : C.Stdio) (old : Option Bytes)
    (g : PmConfig.PmExportConfigCrc) :
    ∃ status file,
      PmConfig.writeConfig io old (PmConfig.PmExportConfigCrc.layout.enc g) = .ok (status, file) ∧
      io.LeavesFile (PmConfig.PmExportConfigCrc.layout.enc g ++
        List.replicate (PmConfig.pmConfigBinSize - PmConfig.PmExportConfigCrc.layout.size) 0xFF)
        old status file := by
  unfold PmConfig.writeConfig
  cases hopen : io.fopen with
  | false => exact ⟨_, _, rfl, .of_not_opened hopen _ old⟩
  | true =>
    cases io.malloc with
    | false => exact ⟨_, _, rfl, .of_failed hopen List.nil_prefix old⟩
    | true =>
      simp only [Bool.not_true, Bool.false_eq_true, if_false, PmConfig.memcpy_buffer, C.ok_bind]
      cases io.fwrite 0 with
      | some k => exact ⟨_, _, rfl, .of_failed hopen (List.take_prefix k _) old⟩
      | none => exact ⟨_, _, rfl, .of_written hopen _ old⟩

/-- The writes of the TrustZone tool, one for the block and one for the padding. -/
theorem trustZone_writeConfig_leavesFile (io : C.Stdio) (old : Option Bytes)
    (g : TrustZone.TrustzoneExportConfigCrc) :
    ∃ status file, TrustZone.writeConfig io old g = (status, file) ∧
      io.LeavesFile (TrustZone.TrustzoneExportConfigCrc.layout.enc g ++ TrustZone.padding) old
        status file := by
  unfold TrustZone.writeConfig
  cases hopen : io.fopen with
  | false => exact ⟨_, _, rfl, .of_not_opened hopen _ old⟩
  | true =>
    cases io.fwrite 0 with
    | some k =>
      have htake := List.take_prefix k (TrustZone.TrustzoneExportConfigCrc.layout.enc g)
      exact ⟨_, _, rfl, .of_failed hopen (htake.trans (List.prefix_append _ _)) old⟩
    | none =>
      cases io.malloc with
      | false => exact ⟨_, _, rfl, .of_failed hopen (List.prefix_append _ _) old⟩
      | true =>
        cases io.fwrite 1 with
        | some k =>
          have htake := List.take_prefix k TrustZone.padding
          exact ⟨_, _, rfl, .of_failed hopen ((List.prefix_append_right_inj _).mpr htake) old⟩
        | none => exact ⟨_, _, rfl, .of_written hopen _ old⟩

section Runs

variable {io : C.Stdio} {timestamp : UInt32} {old : Option Bytes} {status : Int}
  {file : Option Bytes}

theorem pm_generateMode_leavesFile {user : PmConfig.UserConfig}
    (h : PmConfig.generateMode io user timestamp old = .ok (status, file)) :
    (PmConfig.fillConfig user timestamp = .ok none ∧ status ≠ 0 ∧ file = old) ∨
      ∃ image, image.length = PmConfig.pmConfigBinSize ∧
        PmConfig.generateMode .success user timestamp old = .ok (0, some image) ∧
        io.LeavesFile image old status file := by
  obtain ⟨filled, hfill, hrun⟩ := C.bind_eq_ok_iff.mp h
  cases filled with
  | none =>
    left
    obtain ⟨rfl, rfl⟩ := Prod.mk.inj (Except.ok.inj hrun)
    exact ⟨hfill, by decide, rfl⟩
  | some g =>
    right
    have haccept := PmConfig.accepted_of_fillConfig hfill
    obtain ⟨status', file', hwrite, hleaves⟩ :=
      pm_writeConfig_leavesFile io old (PmConfig.generatedConfig user timestamp)
    rw [PmConfig.generateMode_eq haccept, hwrite] at h
    obtain ⟨rfl, rfl⟩ := Prod.mk.inj (Except.ok.inj h)
    refine ⟨_, ?_, PmConfig.generateMode_success haccept timestamp old, hleaves⟩
    rw [List.length_append, Layout.length_enc, List.length_replicate,
      PmConfig.PmExportConfigCrc.layout_size]
    rfl

theorem trustZone_generateMode_leavesFile {user : Option TrustZone.TrustzoneExportConfig}
    (h : TrustZone.generateMode io user timestamp old = .ok (status, file)) :
    (TrustZone.generateConfig user timestamp = .ok none ∧ status ≠ 0 ∧ file = old) ∨
      ∃ image, image.length = TrustZone.trustzoneConfigBinSize ∧
        TrustZone.generateMode .success user timestamp old = .ok (0, some image) ∧
        io.LeavesFile image old status file := by
  by_cases hvalid : TrustZone.validateConfig (TrustZone.initConfig user timestamp) = 0
  · right
    obtain ⟨status', file', hwrite, hleaves⟩ :=
      trustZone_writeConfig_leavesFile io old (TrustZone.storedConfig user timestamp)
    rw [TrustZone.generateMode_eq hvalid, hwrite] at h
    obtain ⟨rfl, rfl⟩ := Prod.mk.inj (Except.ok.inj h)
    refine ⟨_, ?_, TrustZone.generateMode_success old hvalid, hleaves⟩
    rw [List.length_append, Layout.length_enc, TrustZone.padding, List.length_replicate,
      TrustZone.TrustzoneExportConfigCrc.layout_size]
    rfl
  · left
    rw [TrustZone.generateMode_invalid hvalid] at h
    obtain ⟨rfl, rfl⟩ := Prod.mk.inj (Except.ok.inj h)
    refine ⟨?_, by decide, rfl⟩
    rw [TrustZone.generateConfig_eq, if_neg hvalid]

end Runs

/-- **What the generators leave behind.** When validation rejects the configuration, a
    run of either tool fails and keeps the old file. Otherwise there is one image of
    4096 bytes: the file holds all of it when the status is 0 and the close
    succeeds, the old contents when the open fails, and a front of the image
    whenever the open succeeds. -/
theorem generators_leave_file :
    (∀ io user timestamp old status file,
      PmConfig.generateMode io user timestamp old = .ok (status, file) →
      (PmConfig.fillConfig user timestamp = .ok none ∧ status ≠ 0 ∧ file = old) ∨
        ∃ image, image.length = PmConfig.pmConfigBinSize ∧
          PmConfig.generateMode .success user timestamp old = .ok (0, some image) ∧
          io.LeavesFile image old status file) ∧
      ∀ io user timestamp old status file,
        TrustZone.generateMode io user timestamp old = .ok (status, file) →
        (TrustZone.generateConfig user timestamp = .ok none ∧ status ≠ 0 ∧ file = old) ∨
          ∃ image, image.length = TrustZone.trustzoneConfigBinSize ∧
            TrustZone.generateMode .success user timestamp old = .ok (0, some image) ∧
            io.LeavesFile image old status file := by
  constructor
  · intro io user timestamp old status file h
    exact pm_generateMode_leavesFile h
  · intro io user timestamp old status file h
    exact trustZone_generateMode_leavesFile h

/-- Runs of both tools in which every library call succeeds. -/
theorem generators_leave_file_shipped :
    (∃ file, PmConfig.generateMode .success PmConfig.sampleConfig 0 none = .ok (0, some file) ∧
      file.length = PmConfig.pmConfigBinSize) ∧
    ∃ file, TrustZone.generateMode .success (some TrustZone.trustzoneConfig) 0 none =
        .ok (0, some file) ∧ file.length = TrustZone.trustzoneConfigBinSize := by
  constructor
  · have hrun := PmConfig.generateMode_success PmConfig.accepted_sampleConfig 0 none
    obtain ⟨-, hstatus, -⟩ | ⟨image, hlen, himage, -⟩ := generators_leave_file.1 _ _ _ _ _ _ hrun
    · exact absurd rfl hstatus
    · exact ⟨image, himage, hlen⟩
  · have hvalid : TrustZone.validateConfig
        (TrustZone.initConfig (some TrustZone.trustzoneConfig) 0) = 0 := by decide
    have hrun := TrustZone.generateMode_success none hvalid
    obtain ⟨-, hstatus, -⟩ | ⟨image, hlen, himage, -⟩ := generators_leave_file.2 _ _ _ _ _ _ hrun
    · exact absurd rfl hstatus
    · exact ⟨image, himage, hlen⟩

/-- The allocation fails, and nothing else. -/
def mallocFails : C.Stdio :=
  { C.Stdio.success with malloc := false }

/-- Both tools exit with an error then, and have lost the file of one byte that was
    there. -/
theorem generators_lose_old_file :
    (∃ file, PmConfig.generateMode mallocFails PmConfig.sampleConfig 0 (some [1]) =
      .ok (-1, file) ∧ file ≠ some [1]) ∧
    ∃ file, TrustZone.generateMode mallocFails (some TrustZone.trustzoneConfig) 0 (some [1]) =
      .ok (-1, file) ∧ file ≠ some [1] := by
  constructor
  · refine ⟨some [], ?_, by decide⟩
    rw [PmConfig.generateMode_eq PmConfig.accepted_sampleConfig]
    rfl
  · have hvalid : TrustZone.validateConfig
        (TrustZone.initConfig (some TrustZone.trustzoneConfig) 0) = 0 := by decide
    refine ⟨_, TrustZone.generateMode_eq hvalid mallocFails _, ?_⟩
    decide +kernel

end PackageTool
