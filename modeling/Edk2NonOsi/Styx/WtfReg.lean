-- SUMMARY: `Wtf_Reg.h`: the fields of the WTF status register, its GET and SET macros, and runs of SET macros.
import Edk2NonOsi.Bits.Field
import Edk2NonOsi.Bits.MaskedWrite

namespace Styx

-- ---------------------------------------------------------------------------
-- Fields
-- ---------------------------------------------------------------------------

def wtfStatusErrorSize : Nat := 12
def wtfStatusPostSize : Nat := 10
def wtfStatusFwIndicatorSize : Nat := 2
def wtfStatusBtChksumfailSize : Nat := 1

def wtfStatusErrorShift : Nat := 0
def wtfStatusPostShift : Nat := 12
def wtfStatusFwIndicatorShift : Nat := 22
def wtfStatusBtChksumfailShift : Nat := 31

def wtfStatusErrorMask : BitVec 32 := 0x00000FFF
def wtfStatusPostMask : BitVec 32 := 0x003FF000
def wtfStatusFwIndicatorMask : BitVec 32 := 0x00C00000
def wtfStatusBtChksumfailMask : BitVec 32 := 0x80000000

/-- `WTF_STATUS_FW_INDICATOR_UEFI`. -/
def wtfStatusFwIndicatorUefi : BitVec 32 := 0x2

-- ---------------------------------------------------------------------------
-- Macros
-- ---------------------------------------------------------------------------

/-- `WTF_STATUS_GET_ERROR (wtf_status)`. -/
def wtfStatusGetError (wtfStatus : BitVec 32) : BitVec 32 :=
  (wtfStatus &&& wtfStatusErrorMask) >>> wtfStatusErrorShift

/-- `WTF_STATUS_GET_POST (wtf_status)`. -/
def wtfStatusGetPost (wtfStatus : BitVec 32) : BitVec 32 :=
  (wtfStatus &&& wtfStatusPostMask) >>> wtfStatusPostShift

/-- `WTF_STATUS_GET_FW_INDICATOR (wtf_status)`. -/
def wtfStatusGetFwIndicator (wtfStatus : BitVec 32) : BitVec 32 :=
  (wtfStatus &&& wtfStatusFwIndicatorMask) >>> wtfStatusFwIndicatorShift

/-- `WTF_STATUS_GET_BT_CHKSUMFAIL (wtf_status)`, with the mask and the shift of the field:
    the macro misspells both names. -/
def wtfStatusGetBtChksumfail (wtfStatus : BitVec 32) : BitVec 32 :=
  (wtfStatus &&& wtfStatusBtChksumfailMask) >>> wtfStatusBtChksumfailShift

/-- What `WTF_STATUS_SET_ERROR (error)` writes when it reads `reg`. -/
def wtfStatusSetError (error reg : BitVec 32) : BitVec 32 :=
  let reg := (reg &&& ~~~ wtfStatusErrorMask) ||| (error <<< wtfStatusErrorShift)
  (reg &&& ~~~ wtfStatusFwIndicatorMask) |||
    (wtfStatusFwIndicatorUefi <<< wtfStatusFwIndicatorShift)

/-- What `WTF_STATUS_SET_POST (post)` writes when it reads `reg`. -/
def wtfStatusSetPost (post reg : BitVec 32) : BitVec 32 :=
  let reg := (reg &&& ~~~ wtfStatusPostMask) ||| (post <<< wtfStatusPostShift)
  (reg &&& ~~~ wtfStatusFwIndicatorMask) |||
    (wtfStatusFwIndicatorUefi <<< wtfStatusFwIndicatorShift)

/-- What `WTF_STATUS_SET_FW_INDICATOR (fwindicator)` writes when it reads `reg`. -/
def wtfStatusSetFwIndicator (fwindicator reg : BitVec 32) : BitVec 32 :=
  (reg &&& ~~~ wtfStatusFwIndicatorMask) ||| (fwindicator <<< wtfStatusFwIndicatorShift)

/-- What `WTF_STATUS_SET_BT_CHKSUMFAIL (btchksmfail)` writes when it reads `reg`. -/
def wtfStatusSetBtChksumfail (btchksmfail reg : BitVec 32) : BitVec 32 :=
  (reg &&& ~~~ wtfStatusBtChksumfailMask) ||| (btchksmfail <<< wtfStatusBtChksumfailShift)

/-- A use of one of the SET macros. -/
inductive WtfSet where
  | error (error : BitVec 32)
  | post (post : BitVec 32)
  | fwIndicator (fwindicator : BitVec 32)
  | btChksumfail (btchksmfail : BitVec 32)

/-- The register after a SET macro. -/
def WtfSet.step (reg : BitVec 32) : WtfSet → BitVec 32
  | .error value => wtfStatusSetError value reg
  | .post value => wtfStatusSetPost value reg
  | .fwIndicator value => wtfStatusSetFwIndicator value reg
  | .btChksumfail value => wtfStatusSetBtChksumfail value reg

/-- The register after one SET macro after another. -/
def runSets (init : BitVec 32) (sets : List WtfSet) : BitVec 32 :=
  sets.foldl WtfSet.step init

-- ---------------------------------------------------------------------------
-- The fields as bit-fields
-- ---------------------------------------------------------------------------

def errorField : BitField 32 := ⟨wtfStatusErrorShift, wtfStatusErrorSize, by decide⟩
def postField : BitField 32 := ⟨wtfStatusPostShift, wtfStatusPostSize, by decide⟩
def fwIndicatorField : BitField 32 :=
  ⟨wtfStatusFwIndicatorShift, wtfStatusFwIndicatorSize, by decide⟩
def reservedField : BitField 32 := ⟨24, 7, by decide⟩
def btChksumfailField : BitField 32 :=
  ⟨wtfStatusBtChksumfailShift, wtfStatusBtChksumfailSize, by decide⟩

/-- `WTF_STATUS_T`. -/
@[ext]
structure WtfStatus where
  error : BitVec errorField.size
  post : BitVec postField.size
  fwindicator : BitVec fwIndicatorField.size
  reserved : BitVec reservedField.size
  btchksmfail : BitVec btChksumfailField.size

/-- `WTF_STATUS_U`, from `val` to `f`. -/
def WtfStatus.ofVal (val : BitVec 32) : WtfStatus where
  error := errorField.get val
  post := postField.get val
  fwindicator := fwIndicatorField.get val
  reserved := reservedField.get val
  btchksmfail := btChksumfailField.get val

/-- `WTF_STATUS_U`, from `f` to `val`. -/
def WtfStatus.val (f : WtfStatus) : BitVec 32 :=
  errorField.put f.error ||| postField.put f.post ||| fwIndicatorField.put f.fwindicator |||
    reservedField.put f.reserved ||| btChksumfailField.put f.btchksmfail

/-- A SET macro as an assignment to the bit-fields it is about. -/
def WtfStatus.assign (f : WtfStatus) : WtfSet → WtfStatus
  | .error error =>
    { f with error := error.setWidth _, fwindicator := wtfStatusFwIndicatorUefi.setWidth _ }
  | .post post =>
    { f with post := post.setWidth _, fwindicator := wtfStatusFwIndicatorUefi.setWidth _ }
  | .fwIndicator fwindicator => { f with fwindicator := fwindicator.setWidth _ }
  | .btChksumfail btchksmfail => { f with btchksmfail := btchksmfail.setWidth _ }

-- ---------------------------------------------------------------------------
-- What a macro does to the bits
-- ---------------------------------------------------------------------------

/-- The bits that a SET macro clears before it sets its value. -/
def WtfSet.owned : WtfSet → BitVec 32
  | .error _ => wtfStatusErrorMask ||| wtfStatusFwIndicatorMask
  | .post _ => wtfStatusPostMask ||| wtfStatusFwIndicatorMask
  | .fwIndicator _ => wtfStatusFwIndicatorMask
  | .btChksumfail _ => wtfStatusBtChksumfailMask

/-- The argument where the macro puts it. -/
def WtfSet.shifted : WtfSet → BitVec 32
  | .error value => value <<< wtfStatusErrorShift
  | .post value => value <<< wtfStatusPostShift
  | .fwIndicator value => value <<< wtfStatusFwIndicatorShift
  | .btChksumfail value => value <<< wtfStatusBtChksumfailShift

/-- The bits of the argument that fall into fields the macro is not about. -/
def WtfSet.stray (op : WtfSet) : BitVec 32 :=
  op.shifted &&& ~~~ op.owned

/-- A SET macro as a masked write. -/
def WtfSet.write : WtfSet → MaskedWrite 32
  | .error value =>
    (MaskedWrite.ofValue wtfStatusErrorMask (value <<< wtfStatusErrorShift)).andThen
      (MaskedWrite.ofValue wtfStatusFwIndicatorMask
        (wtfStatusFwIndicatorUefi <<< wtfStatusFwIndicatorShift))
  | .post value =>
    (MaskedWrite.ofValue wtfStatusPostMask (value <<< wtfStatusPostShift)).andThen
      (MaskedWrite.ofValue wtfStatusFwIndicatorMask
        (wtfStatusFwIndicatorUefi <<< wtfStatusFwIndicatorShift))
  | .fwIndicator value =>
    MaskedWrite.ofValue wtfStatusFwIndicatorMask (value <<< wtfStatusFwIndicatorShift)
  | .btChksumfail value =>
    MaskedWrite.ofValue wtfStatusBtChksumfailMask (value <<< wtfStatusBtChksumfailShift)

/-! ## The masks are the fields -/

theorem errorMask_eq : wtfStatusErrorMask = errorField.mask := by decide
theorem postMask_eq : wtfStatusPostMask = postField.mask := by decide
theorem fwIndicatorMask_eq : wtfStatusFwIndicatorMask = fwIndicatorField.mask := by decide
theorem btChksumfailMask_eq : wtfStatusBtChksumfailMask = btChksumfailField.mask := by decide

/-- The indicator of UEFI fits its field. -/
theorem spill_uefi :
    (MaskedWrite.ofValue fwIndicatorField.mask
      (wtfStatusFwIndicatorUefi <<< wtfStatusFwIndicatorShift)).spill = 0 := by
  decide

namespace WtfStatus

theorem ofVal_val (f : WtfStatus) : ofVal f.val = f := by
  cases f with
  | mk e p fw r b =>
    simp (disch := decide) only [ofVal, val, BitField.get_or, BitField.get_put,
      BitField.Apart.get_put, BitVec.ofNat_eq_ofNat, BitVec.or_zero, BitVec.zero_or]

theorem val_ofVal (reg : BitVec 32) : (ofVal reg).val = reg := by
  have hall : errorField.mask ||| postField.mask ||| fwIndicatorField.mask |||
      reservedField.mask ||| btChksumfailField.mask = BitVec.allOnes 32 := by
    decide
  calc (ofVal reg).val
      = reg &&& (errorField.mask ||| postField.mask ||| fwIndicatorField.mask |||
          reservedField.mask ||| btChksumfailField.mask) := by
        simp only [ofVal, val, BitField.put_get, BitVec.and_or_distrib_left]
    _ = reg := by
        rw [hall, BitVec.and_allOnes]

/-- Without its spill a macro's write is an assignment to the bit-fields. -/
theorem ofVal_confined (reg : BitVec 32) (op : WtfSet) :
    ofVal (op.write.confined reg) = (ofVal reg).assign op := by
  have herror (v : BitVec 32) : errorField.get (v <<< wtfStatusErrorShift) = v.setWidth _ :=
    errorField.get_shiftLeft v
  have hpost (v : BitVec 32) : postField.get (v <<< wtfStatusPostShift) = v.setWidth _ :=
    postField.get_shiftLeft v
  have hfw (v : BitVec 32) :
      fwIndicatorField.get (v <<< wtfStatusFwIndicatorShift) = v.setWidth _ :=
    fwIndicatorField.get_shiftLeft v
  have hbt (v : BitVec 32) :
      btChksumfailField.get (v <<< wtfStatusBtChksumfailShift) = v.setWidth _ :=
    btChksumfailField.get_shiftLeft v
  cases op with
  | error value =>
    simp (disch := decide) only [assign, ofVal, WtfSet.write, errorMask_eq, fwIndicatorMask_eq,
      MaskedWrite.confined_andThen spill_uefi, MaskedWrite.get_confined_ofValue,
      MaskedWrite.get_confined_ofValue_of_apart, herror, hfw]
  | post value =>
    simp (disch := decide) only [assign, ofVal, WtfSet.write, postMask_eq, fwIndicatorMask_eq,
      MaskedWrite.confined_andThen spill_uefi, MaskedWrite.get_confined_ofValue,
      MaskedWrite.get_confined_ofValue_of_apart, hpost, hfw]
  | fwIndicator value =>
    simp (disch := decide) only [assign, ofVal, WtfSet.write, fwIndicatorMask_eq,
      MaskedWrite.get_confined_ofValue, MaskedWrite.get_confined_ofValue_of_apart, hfw]
  | btChksumfail value =>
    simp (disch := decide) only [assign, ofVal, WtfSet.write, btChksumfailMask_eq,
      MaskedWrite.get_confined_ofValue, MaskedWrite.get_confined_ofValue_of_apart, hbt]

theorem val_assign (f : WtfStatus) (op : WtfSet) : (f.assign op).val = op.write.confined f.val := by
  rw [← val_ofVal (op.write.confined f.val), ofVal_confined, ofVal_val]

end WtfStatus

/-- A SET macro does its masked write. -/
theorem WtfSet.step_eq_apply (op : WtfSet) (reg : BitVec 32) :
    WtfSet.step reg op = op.write.apply reg := by
  cases op with
  | error value =>
    rw [write, MaskedWrite.apply_andThen, MaskedWrite.apply_ofValue, MaskedWrite.apply_ofValue]
    rfl
  | post value =>
    rw [write, MaskedWrite.apply_andThen, MaskedWrite.apply_ofValue, MaskedWrite.apply_ofValue]
    rfl
  | fwIndicator value =>
    rw [write, MaskedWrite.apply_ofValue]
    rfl
  | btChksumfail value =>
    rw [write, MaskedWrite.apply_ofValue]
    rfl

end Styx
