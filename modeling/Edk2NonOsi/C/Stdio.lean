-- SUMMARY: The standard library calls of a tool that writes one file: each call may fail, and a failing write or close leaves a prefix behind.
import Edk2NonOsi.C.Memory

namespace C

/-- How the library calls of one run end. A failing `fwrite` or `fclose` says
    how many bytes still reached the file. -/
structure Stdio where
  fopen : Bool
  malloc : Bool
  /-- The `n`-th `fwrite` of the run: `none` when it writes everything. -/
  fwrite : Nat → Option Nat
  /-- `none` when everything written so far is in the file. -/
  fclose : Option Nat

namespace Stdio

/-- Every call succeeds. -/
def success : Stdio where
  fopen := true
  malloc := true
  fwrite _ := none
  fclose := none

/-- The file after `fclose`, when `data` was written since it was truncated. -/
def closed (io : Stdio) (data : Bytes) : Bytes :=
  match io.fclose with
  | none => data
  | some k => data.take k

theorem closed_isPrefix (io : Stdio) (data : Bytes) : io.closed data <+: data := by
  unfold closed
  cases io.fclose with
  | none => exact List.prefix_rfl
  | some k => exact List.take_prefix k data

theorem closed_eq {io : Stdio} (h : io.fclose = none) (data : Bytes) : io.closed data = data := by
  rw [closed, h]

/-- How a run may leave a file that held `old`, when it sets out to write `image`: it
    is complete on status 0, as long as the close succeeds; it is untouched if it
    could not be opened; and it holds some front of the image otherwise, also when the
    status is 0 and the close fails. -/
structure LeavesFile (io : Stdio) (image : Bytes) (old : Option Bytes) (status : Int)
    (file : Option Bytes) : Prop where
  complete : status = 0 → io.fclose = none → file = some image
  kept : io.fopen = false → status ≠ 0 ∧ file = old
  torn : io.fopen = true → ∃ written, written <+: image ∧ file = some written

/-- A run that does not get to open the file. -/
theorem LeavesFile.of_not_opened {io : Stdio} (h : io.fopen = false) (image : Bytes)
    (old : Option Bytes) : io.LeavesFile image old (-1) old where
  complete hstatus := absurd hstatus (by decide)
  kept _ := ⟨by decide, rfl⟩
  torn hopen := absurd (h.symm.trans hopen) (by decide)

/-- A run that gives up after it wrote `data`. -/
theorem LeavesFile.of_failed {io : Stdio} (h : io.fopen = true) {image data : Bytes}
    (hdata : data <+: image) (old : Option Bytes) :
    io.LeavesFile image old (-1) (some (io.closed data)) where
  complete hstatus := absurd hstatus (by decide)
  kept hopen := absurd (h.symm.trans hopen) (by decide)
  torn _ := ⟨_, (io.closed_isPrefix data).trans hdata, rfl⟩

/-- A run that wrote everything. -/
theorem LeavesFile.of_written {io : Stdio} (h : io.fopen = true) (image : Bytes)
    (old : Option Bytes) : io.LeavesFile image old 0 (some (io.closed image)) where
  complete _ hclose := congrArg some (closed_eq hclose image)
  kept hopen := absurd (h.symm.trans hopen) (by decide)
  torn _ := ⟨_, io.closed_isPrefix image, rfl⟩

end Stdio

end C
