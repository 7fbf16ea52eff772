import Edk2NonOsi.PackageTool.DoubleCheckSum
import Edk2NonOsi.TrustZone.BinConfig
import Edk2NonOsi.FlashImage.ReplaceImage
import Edk2NonOsi.FlashImage.Frame
import Edk2NonOsi.FlashImage.Reparse
import Edk2NonOsi.PmConfig.ExportConfig
import Edk2NonOsi.PmConfig.Validate
import Edk2NonOsi.PmConfig.AbsentDomains
import Edk2NonOsi.PmConfig.Dump
import Edk2NonOsi.PmConfig.Generate
import Edk2NonOsi.Bytes.Packing
import Edk2NonOsi.MemConfig.BinTool
import Edk2NonOsi.MemConfig.Passes
import Edk2NonOsi.MemConfig.Image
import Edk2NonOsi.MemConfig.RoundTrip
import Edk2NonOsi.MemConfig.Narrowing
import Edk2NonOsi.MemConfig.BlockTypes
import Edk2NonOsi.FlashImage.Commute
import Edk2NonOsi.FlashImage.Refusal
import Edk2NonOsi.MemConfig.Checksums
import Edk2NonOsi.MemConfig.FeatHash
import Edk2NonOsi.PmConfig.OppTable
import Edk2NonOsi.PmConfig.FanTable
import Edk2NonOsi.PmConfig.Acceptance
import Edk2NonOsi.TrustZone.Format
import Edk2NonOsi.MemConfig.TableCapacity
import Edk2NonOsi.PackageTool.OutputFile
import Edk2NonOsi.Bits.Field
import Edk2NonOsi.Bits.MaskedWrite
import Edk2NonOsi.Styx.WtfReg
import Edk2NonOsi.Styx.FieldsApart
import Edk2NonOsi.Checksum.Horner
import Edk2NonOsi.MemConfig.IncrementalHash
import Edk2NonOsi.Bytes.BigEndian
import Edk2NonOsi.PackageTool.PublicHash
import Edk2NonOsi.Bytes.Overlay
import Edk2NonOsi.FlashImage.Store
import Edk2NonOsi.FlashImage.Session
import Edk2NonOsi.FlashImage.FlashConfig
import Edk2NonOsi.FlashImage.PackageTarget
import Edk2NonOsi.FlashImage.Areas
import Edk2NonOsi.PmConfig.WellFormed
import Edk2NonOsi.MemConfig.Slot
import Edk2NonOsi.Runs.Simulation
import Edk2NonOsi.PackageTool.Configs
import Edk2NonOsi.PackageTool.Workbench
import Edk2NonOsi.PackageTool.Interleaving
import Edk2NonOsi.MemConfig.Canonical
import Edk2NonOsi.Shell.Script
import Edk2NonOsi.PackageTool.BuildAndPackage
import Edk2NonOsi.PackageTool.Staging
import Edk2NonOsi.PackageTool.PackageRun
import Edk2NonOsi.Shell.Completion
import Edk2NonOsi.PackageTool.Packaging
import Edk2NonOsi.PackageTool.Completion
import Edk2NonOsi.PackageTool.Makefiles
import Edk2NonOsi.PackageTool.Rebuild
import Edk2NonOsi.PackageTool.Release
import Edk2NonOsi.LogoDxe.Logo
