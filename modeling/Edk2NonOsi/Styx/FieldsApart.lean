-- SUMMARY: What a run of SET macros leaves in the fields of the WTF status register, and when the fields stay apart.
import Edk2NonOsi.Styx.WtfReg

namespace Styx

-- ---------------------------------------------------------------------------
-- The fields a run is to leave
-- ---------------------------------------------------------------------------

/-- The low `size` bits. -/
def lowBits (size : Nat) (value : BitVec 32) : BitVec 32 :=
  (value.setWidth size).setWidth 32

/-- What a macro is to leave in the ERROR field. -/
def WtfSet.errorValue : WtfSet → Option (BitVec 32)
  | .error value => some (lowBits wtfStatusErrorSize value)
  | _ => none

/-- What a macro is to leave in the POST field. -/
def WtfSet.postValue : WtfSet → Option (BitVec 32)
  | .post value => some (lowBits wtfStatusPostSize value)
  | _ => none

/-- What a macro is to leave in the FW_INDICATOR field. -/
def WtfSet.fwIndicatorValue : WtfSet → Option (BitVec 32)
  | .error _ | .post _ => some wtfStatusFwIndicatorUefi
  | .fwIndicator value => some (lowBits wtfStatusFwIndicatorSize value)
  | .btChksumfail _ => none

/-- What a macro is to leave in the BT_CHKSUMFAIL field. -/
def WtfSet.btChksumfailValue : WtfSet → Option (BitVec 32)
  | .btChksumfail value => some (lowBits wtfStatusBtChksumfailSize value)
  | _ => none

/-- The value of the last macro that has one, else the initial one. -/
def lastOf (value : WtfSet → Option (BitVec 32)) (sets : List WtfSet) (initial : BitVec 32) :
    BitVec 32 :=
  (sets.filterMap value).getLastD initial

/-- Every field holds what the last macro about it was given, and the reserved bits are
    the initial ones. -/
structure FieldsApart (init : BitVec 32) (sets : List WtfSet) (reg : BitVec 32) : Prop where
  error : wtfStatusGetError reg = lastOf WtfSet.errorValue sets (wtfStatusGetError init)
  post : wtfStatusGetPost reg = lastOf WtfSet.postValue sets (wtfStatusGetPost init)
  fwindicator : wtfStatusGetFwIndicator reg =
    lastOf WtfSet.fwIndicatorValue sets (wtfStatusGetFwIndicator init)
  btchksmfail : wtfStatusGetBtChksumfail reg =
    lastOf WtfSet.btChksumfailValue sets (wtfStatusGetBtChksumfail init)
  reserved : reg &&& 0x7F000000 = init &&& 0x7F000000

/-- The bits that some macro of a list clears. -/
def ownedBy : List WtfSet → BitVec 32
  | [] => 0
  | op :: sets => op.owned ||| ownedBy sets

/-- Every bit an argument has outside the fields of its macro is cleared by a later macro,
    or set in the register as the assignments before leave it. -/
def StraysCovered : WtfStatus → List WtfSet → Prop
  | _, [] => True
  | f, op :: sets => op.stray.Within (ownedBy sets ||| f.val) ∧ StraysCovered (f.assign op) sets

/-- The argument fits the field of its macro. -/
def WtfSet.Fits : WtfSet → Prop
  | .error value => value.toNat < 2 ^ wtfStatusErrorSize
  | .post value => value.toNat < 2 ^ wtfStatusPostSize
  | .fwIndicator value => value.toNat < 2 ^ wtfStatusFwIndicatorSize
  | .btChksumfail value => value.toNat < 2 ^ wtfStatusBtChksumfailSize

instance : DecidablePred WtfSet.Fits
  | .error value => inferInstanceAs (Decidable (value.toNat < 2 ^ wtfStatusErrorSize))
  | .post value => inferInstanceAs (Decidable (value.toNat < 2 ^ wtfStatusPostSize))
  | .fwIndicator value => inferInstanceAs (Decidable (value.toNat < 2 ^ wtfStatusFwIndicatorSize))
  | .btChksumfail value =>
    inferInstanceAs (Decidable (value.toNat < 2 ^ wtfStatusBtChksumfailSize))

/-- The assignments of a list of SET macros. -/
def WtfStatus.assigns (f : WtfStatus) (sets : List WtfSet) : WtfStatus :=
  sets.foldl WtfStatus.assign f

/-! ## Macros as masked writes -/

theorem WtfSet.spill_write (op : WtfSet) : op.write.spill = op.stray := by
  cases op with
  | error value => exact MaskedWrite.spill_andThen spill_uefi ..
  | post value => exact MaskedWrite.spill_andThen spill_uefi ..
  | fwIndicator value => rfl
  | btChksumfail value => rfl

theorem WtfSet.mask_write (op : WtfSet) : op.write.mask = op.owned := by
  cases op <;> rfl

theorem masks_write (sets : List WtfSet) :
    MaskedWrite.masks (sets.map WtfSet.write) = ownedBy sets := by
  induction sets with
  | nil => rfl
  | cons op sets ih => rw [List.map_cons, MaskedWrite.masks, ih, op.mask_write, ownedBy]

theorem runSets_eq_run (init : BitVec 32) (sets : List WtfSet) :
    runSets init sets = MaskedWrite.run (sets.map WtfSet.write) init := by
  rw [runSets, MaskedWrite.run, List.foldl_map]
  congr 1
  funext reg op
  exact op.step_eq_apply reg

theorem val_assigns (f : WtfStatus) (sets : List WtfSet) :
    (f.assigns sets).val = MaskedWrite.confinedRun (sets.map WtfSet.write) f.val := by
  induction sets generalizing f with
  | nil => rfl
  | cons op sets ih =>
    have hstep := ih (f.assign op)
    rw [WtfStatus.val_assign] at hstep
    exact hstep

theorem covered_write_iff (f : WtfStatus) (sets : List WtfSet) :
    MaskedWrite.Covered f.val (sets.map WtfSet.write) ↔ StraysCovered f sets := by
  induction sets generalizing f with
  | nil => exact Iff.rfl
  | cons op sets ih =>
    rw [List.map_cons, MaskedWrite.Covered, StraysCovered, op.spill_write, masks_write,
      ← WtfStatus.val_assign, ih]

/-- The register follows the bit-fields exactly when the stray bits are covered. -/
theorem runSets_eq_val_iff (init : BitVec 32) (sets : List WtfSet) :
    runSets init sets = ((WtfStatus.ofVal init).assigns sets).val ↔
      StraysCovered (WtfStatus.ofVal init) sets := by
  rw [runSets_eq_run, val_assigns, WtfStatus.val_ofVal, MaskedWrite.run_eq_confinedRun_iff,
    ← covered_write_iff, WtfStatus.val_ofVal]

/-! ## What assignments leave -/

theorem lastOf_cons (value : WtfSet → Option (BitVec 32)) (op : WtfSet) (sets : List WtfSet)
    (initial : BitVec 32) :
    lastOf value (op :: sets) initial = lastOf value sets ((value op).getD initial) := by
  rw [lastOf, lastOf]
  cases hop : value op with
  | none => rw [List.filterMap_cons_none hop, Option.getD_none]
  | some v => rw [List.filterMap_cons_some hop, List.getLastD_cons, Option.getD_some]

/-- What every assignment leaves in a field is what the last one leaves. -/
theorem read_assigns (read : WtfStatus → BitVec 32) (value : WtfSet → Option (BitVec 32))
    (h : ∀ f op, read (f.assign op) = (value op).getD (read f)) (f : WtfStatus)
    (sets : List WtfSet) : read (f.assigns sets) = lastOf value sets (read f) := by
  induction sets generalizing f with
  | nil => rfl
  | cons op sets ih =>
    rw [lastOf_cons, ← h]
    exact ih (f.assign op)

theorem reserved_assigns (f : WtfStatus) (sets : List WtfSet) :
    (f.assigns sets).reserved = f.reserved := by
  induction sets generalizing f with
  | nil => rfl
  | cons op sets ih =>
    have hstep : (f.assign op).reserved = f.reserved := by
      cases op <;> rfl
    rw [← hstep]
    exact ih (f.assign op)

theorem getError_eq (reg : BitVec 32) :
    wtfStatusGetError reg = (WtfStatus.ofVal reg).error.setWidth 32 := by
  rw [wtfStatusGetError, errorMask_eq]
  exact errorField.and_mask_ushiftRight reg

theorem getPost_eq (reg : BitVec 32) :
    wtfStatusGetPost reg = (WtfStatus.ofVal reg).post.setWidth 32 := by
  rw [wtfStatusGetPost, postMask_eq]
  exact postField.and_mask_ushiftRight reg

theorem getFwIndicator_eq (reg : BitVec 32) :
    wtfStatusGetFwIndicator reg = (WtfStatus.ofVal reg).fwindicator.setWidth 32 := by
  rw [wtfStatusGetFwIndicator, fwIndicatorMask_eq]
  exact fwIndicatorField.and_mask_ushiftRight reg

theorem getBtChksumfail_eq (reg : BitVec 32) :
    wtfStatusGetBtChksumfail reg = (WtfStatus.ofVal reg).btchksmfail.setWidth 32 := by
  rw [wtfStatusGetBtChksumfail, btChksumfailMask_eq]
  exact btChksumfailField.and_mask_ushiftRight reg

/-- The assignments leave every field as it is to be. -/
theorem fieldsApart_assigns (init : BitVec 32) (sets : List WtfSet) :
    FieldsApart init sets ((WtfStatus.ofVal init).assigns sets).val := by
  have hmask : (0x7F000000 : BitVec 32) = reservedField.mask := by decide
  constructor
  · rw [getError_eq, getError_eq, WtfStatus.ofVal_val]
    exact read_assigns (fun f => f.error.setWidth 32) _ (fun _ op => by cases op <;> rfl) _ sets
  · rw [getPost_eq, getPost_eq, WtfStatus.ofVal_val]
    exact read_assigns (fun f => f.post.setWidth 32) _ (fun _ op => by cases op <;> rfl) _ sets
  · rw [getFwIndicator_eq, getFwIndicator_eq, WtfStatus.ofVal_val]
    exact read_assigns (fun f => f.fwindicator.setWidth 32) _
      (fun _ op => by cases op <;> rfl) _ sets
  · rw [getBtChksumfail_eq, getBtChksumfail_eq, WtfStatus.ofVal_val]
    exact read_assigns (fun f => f.btchksmfail.setWidth 32) _
      (fun _ op => by cases op <;> rfl) _ sets
  · have hreserved := congrArg WtfStatus.reserved
      (WtfStatus.ofVal_val ((WtfStatus.ofVal init).assigns sets))
    rw [hmask, reservedField.and_mask_eq_iff]
    exact hreserved.trans (reserved_assigns _ sets)

/-- The fields are the whole register. -/
theorem FieldsApart.unique {init reg reg' : BitVec 32} {sets : List WtfSet}
    (h : FieldsApart init sets reg) (h' : FieldsApart init sets reg') : reg = reg' := by
  have hmask : (0x7F000000 : BitVec 32) = reservedField.mask := by decide
  have hfields : WtfStatus.ofVal reg = WtfStatus.ofVal reg' := by
    apply WtfStatus.ext
    · rw [← errorField.setWidth_inj, ← getError_eq, ← getError_eq, h.error, h'.error]
    · rw [← postField.setWidth_inj, ← getPost_eq, ← getPost_eq, h.post, h'.post]
    · rw [← fwIndicatorField.setWidth_inj, ← getFwIndicator_eq, ← getFwIndicator_eq,
        h.fwindicator, h'.fwindicator]
    · have hreserved := h.reserved.trans h'.reserved.symm
      rw [hmask] at hreserved
      exact reservedField.and_mask_eq_iff.mp hreserved
    · rw [← btChksumfailField.setWidth_inj, ← getBtChksumfail_eq, ← getBtChksumfail_eq,
        h.btchksmfail, h'.btchksmfail]
  rw [← WtfStatus.val_ofVal reg, hfields, WtfStatus.val_ofVal]

/-- The fields are apart in exactly the register that the assignments give. -/
theorem fieldsApart_iff_eq_val (init : BitVec 32) (sets : List WtfSet) (reg : BitVec 32) :
    FieldsApart init sets reg ↔ reg = ((WtfStatus.ofVal init).assigns sets).val := by
  constructor
  · intro h
    exact h.unique (fieldsApart_assigns init sets)
  · rintro rfl
    exact fieldsApart_assigns init sets

/-! ## Arguments that fit -/

theorem WtfSet.Fits.stray_eq_zero {op : WtfSet} (h : op.Fits) : op.stray = 0 := by
  cases op with
  | error value =>
    have hin := errorField.shiftLeft_and_not_mask_or h wtfStatusFwIndicatorMask
    rwa [← errorMask_eq] at hin
  | post value =>
    have hin := postField.shiftLeft_and_not_mask_or h wtfStatusFwIndicatorMask
    rwa [← postMask_eq] at hin
  | fwIndicator value =>
    have hin := fwIndicatorField.shiftLeft_and_not_mask h
    rwa [← fwIndicatorMask_eq] at hin
  | btChksumfail value =>
    have hin := btChksumfailField.shiftLeft_and_not_mask h
    rwa [← btChksumfailMask_eq] at hin

/-- Arguments that fit their fields leave nothing to cover. -/
theorem straysCovered_of_fits {sets : List WtfSet} (h : ∀ op ∈ sets, op.Fits) (f : WtfStatus) :
    StraysCovered f sets := by
  rw [← covered_write_iff]
  apply MaskedWrite.covered_of_spill_eq_zero
  intro u hu
  obtain ⟨op, hop, rfl⟩ := List.mem_map.mp hu
  rw [op.spill_write, (h op hop).stray_eq_zero]

/-- A run whose arguments fit leaves every field as it is to be. -/
theorem fieldsApart_of_fits {sets : List WtfSet} (h : ∀ op ∈ sets, op.Fits) (init : BitVec 32) :
    FieldsApart init sets (runSets init sets) := by
  rw [(runSets_eq_val_iff init sets).mpr (straysCovered_of_fits h _)]
  exact fieldsApart_assigns init sets

/-- Two runs end with the same value for every field. -/
structure SameLast (init : BitVec 32) (sets sets' : List WtfSet) : Prop where
  error : lastOf WtfSet.errorValue sets (wtfStatusGetError init) =
    lastOf WtfSet.errorValue sets' (wtfStatusGetError init)
  post : lastOf WtfSet.postValue sets (wtfStatusGetPost init) =
    lastOf WtfSet.postValue sets' (wtfStatusGetPost init)
  fwindicator : lastOf WtfSet.fwIndicatorValue sets (wtfStatusGetFwIndicator init) =
    lastOf WtfSet.fwIndicatorValue sets' (wtfStatusGetFwIndicator init)
  btchksmfail : lastOf WtfSet.btChksumfailValue sets (wtfStatusGetBtChksumfail init) =
    lastOf WtfSet.btChksumfailValue sets' (wtfStatusGetBtChksumfail init)

/-- **The last value of each field decides.** Two runs from one register, with arguments that
    fit, leave the same register exactly when they end with the same value for every
    field, however many macros they have and in whatever order. -/
theorem runSets_eq_iff_sameLast {init : BitVec 32} {sets sets' : List WtfSet}
    (h : ∀ op ∈ sets, op.Fits) (h' : ∀ op ∈ sets', op.Fits) :
    runSets init sets = runSets init sets' ↔ SameLast init sets sets' := by
  have hapart := fieldsApart_of_fits h init
  have hapart' := fieldsApart_of_fits h' init
  constructor
  · intro heq
    rw [← heq] at hapart'
    exact {
      error := hapart.error.symm.trans hapart'.error
      post := hapart.post.symm.trans hapart'.post
      fwindicator := hapart.fwindicator.symm.trans hapart'.fwindicator
      btchksmfail := hapart.btchksmfail.symm.trans hapart'.btchksmfail }
  · intro hlast
    have hsame : FieldsApart init sets' (runSets init sets) := {
      error := hapart.error.trans hlast.error
      post := hapart.post.trans hlast.post
      fwindicator := hapart.fwindicator.trans hlast.fwindicator
      btchksmfail := hapart.btchksmfail.trans hlast.btchksmfail
      reserved := hapart.reserved }
    exact hsame.unique hapart'

/-- An error that is replaced before the end does not show. -/
theorem runSets_eq_iff_sameLast_sample :
    runSets 0x80000000 [.error 0x123, .post 0x3FF, .error 7] =
      runSets 0x80000000 [.error 7, .btChksumfail 1, .post 0x3FF] := by
  exact (runSets_eq_iff_sameLast (by decide) (by decide)).mpr
    ⟨by decide, by decide, by decide, by decide⟩

/-! ## The runs that keep the fields apart -/

/-- **Exactly when the fields stay apart.** After any run of SET macros, with any
    arguments, from any register, every field holds what it is to hold if and only if
    the stray bits of the arguments are covered. -/
theorem runSets_fieldsApart_iff (init : BitVec 32) (sets : List WtfSet) :
    FieldsApart init sets (runSets init sets) ↔ StraysCovered (WtfStatus.ofVal init) sets := by
  rw [fieldsApart_iff_eq_val, runSets_eq_val_iff]

/-- An error of 13 bits runs over into the POST field. -/
theorem setError_overflows_into_post :
    ¬ FieldsApart 0 [.error 0x1000] (runSets 0 [.error 0x1000]) :=
  fun h => absurd h.post (by decide)

-- A SET_POST that follows clears the bit again.
example : StraysCovered (WtfStatus.ofVal 0) [.error 0x1000, .post 5] :=
  ⟨by decide, by decide, trivial⟩

end Styx
