-- SUMMARY: `check_fan_table` as a decision: the fans it accepts have curves that increase over all their entries.
import Edk2NonOsi.PmConfig.Validate

namespace PmConfig

/-- Strictly below in all three columns; the temperatures are signed. -/
structure RpmEntry.Below (a b : RpmEntry) : Prop where
  rpm : a.rpm < b.rpm
  upTemp : a.upTemp < b.upTemp
  downTemp : a.downTemp < b.downTemp

/-- The first `n` entries of a table increase. -/
def Increasing (rpmTable : Fin maxFanTableEntries → RpmEntry) (n : Nat) : Prop :=
  ∀ a b : Fin maxFanTableEntries, a < b → b < n → (rpmTable a).Below (rpmTable b)

/-- A table of a fan that is declared valid: its item count, and its curve. -/
structure CurveOk (fan : PmConfigFan) (m : Fin fanModeMax) : Prop where
  atLeast : 2 ≤ (fan.rpmTableItems m).toNat
  atMost : (fan.rpmTableItems m).toNat ≤ maxFanTableEntries
  increasing : Increasing (fan.rpmTable m) (fan.rpmTableItems m).toNat

/-- A well-ordered fan. -/
structure FanOk (fan : PmConfigFan) : Prop where
  id : fan.fanId.valid = pmConfigInvalid.toUInt32 ∨ fan.fanId.rawData.toNat < maxFanNum
  curves : ∀ m, fan.rpmTableValid m ≠ pmConfigInvalid → CurveOk fan m

/-- The tables a fan declares valid hold at most `MAX_FAN_TABLE_ENTRIES` items. -/
def ItemsOk (fan : PmConfigFan) : Prop :=
  ∀ m, fan.rpmTableValid m ≠ pmConfigInvalid →
    (fan.rpmTableItems m).toNat ≤ maxFanTableEntries

theorem FanOk.items {fan : PmConfigFan} (h : FanOk fan) : ItemsOk fan :=
  fun m hvalid => (h.curves m hvalid).atMost

/-! ## One table -/

theorem RpmEntry.Below.trans {a b c : RpmEntry} (h : a.Below b) (h' : b.Below c) : a.Below c where
  rpm := UInt16.lt_trans h.rpm h'.rpm
  upTemp := Int8.lt_trans h.upTemp h'.upTemp
  downTemp := Int8.lt_trans h.downTemp h'.downTemp

theorem RpmEntry.below_iff {a b : RpmEntry} :
    a.Below b ↔ ¬ (b.rpm ≤ a.rpm ∨ b.upTemp ≤ a.upTemp ∨ b.downTemp ≤ a.downTemp) := by
  rw [not_or, not_or, UInt16.not_le, Int8.not_le, Int8.not_le]
  constructor
  · intro h
    exact ⟨h.rpm, h.upTemp, h.downTemp⟩
  · rintro ⟨hrpm, hup, hdown⟩
    exact ⟨hrpm, hup, hdown⟩

/-- Neighbours in order put all entries in order. -/
theorem increasing_iff {rpmTable : Fin maxFanTableEntries → RpmEntry} {n : Nat} :
    Increasing rpmTable n ↔ ∀ i (hi : i + 1 < maxFanTableEntries), i + 1 < n →
      (rpmTable ⟨i, Nat.lt_of_succ_lt hi⟩).Below (rpmTable ⟨i + 1, hi⟩) := by
  constructor
  · intro h i hi hn
    exact h _ _ (Nat.lt_succ_self i) hn
  · rintro h ⟨a, ha⟩ ⟨b, hb⟩ hab hbn
    have hab' : a < b := hab
    have hbn' : b < n := hbn
    -- Induction on the upper entry, one neighbour at a time.
    clear hab hbn
    induction b with
    | zero => omega
    | succ b ih =>
      have hstep := h b hb hbn'
      by_cases heq : a = b
      · subst heq
        exact hstep
      · exact (ih (by omega) (by omega) (by omega)).trans hstep

/-- A check that returns -1 decides against what does not hold. -/
theorem decides_of_not {P : Prop} (h : ¬ P) :
    ∃ status : Int, (.ok (-1) : Except C.Fault Int) = .ok status ∧ (status = 0 ↔ P) :=
  ⟨-1, rfl, iff_of_false (by decide) h⟩

theorem checkRpmEntries_decides (rpmTable : Fin maxFanTableEntries → RpmEntry) (k a : Nat)
    (hk : a + 1 + k ≤ maxFanTableEntries) :
    ∃ status, checkRpmEntries rpmTable (List.range' (a + 1) k) = .ok status ∧
      (status = 0 ↔ ∀ i (hi : i + 1 < maxFanTableEntries), a ≤ i → i < a + k →
        (rpmTable ⟨i, Nat.lt_of_succ_lt hi⟩).Below (rpmTable ⟨i + 1, hi⟩)) := by
  induction k generalizing a with
  | zero =>
    refine ⟨0, rfl, ?_⟩
    simp only [true_iff]
    intro i hi hai hlt
    omega
  | succ k ih =>
    have hnext : a + 1 < maxFanTableEntries := by omega
    have hprevious := C.arrayAt_of_lt rpmTable (Nat.lt_of_succ_lt hnext)
    rw [List.range'_succ, checkRpmEntries, C.arrayAt_of_lt rpmTable hnext, C.ok_bind,
      Nat.add_sub_cancel, hprevious, C.ok_bind]
    split
    next hbad =>
      apply decides_of_not
      intro hall
      exact RpmEntry.below_iff.mp (hall a hnext (Nat.le_refl a) (by omega)) hbad
    next hgood =>
      obtain ⟨status, hrest, hiff⟩ := ih (a + 1) (by omega)
      refine ⟨status, hrest, hiff.trans ⟨?_, ?_⟩⟩
      · intro hall i hi hai hlt
        by_cases heq : i = a
        · subst heq
          exact RpmEntry.below_iff.mpr hgood
        · exact hall i hi (by omega) (by omega)
      · intro hall i hi hai hlt
        exact hall i hi (by omega) (by omega)

/-- The scan over neighbours decides the order of the whole table. -/
theorem checkRpmTable_decides (rpmTable : Fin maxFanTableEntries → RpmEntry) {num : Nat}
    (hnum : num ≤ maxFanTableEntries) :
    ∃ status, checkRpmTable rpmTable num = .ok status ∧
      (status = 0 ↔ Increasing rpmTable num) := by
  have hmax : 1 ≤ maxFanTableEntries := by decide
  obtain ⟨status, hrun, hiff⟩ := checkRpmEntries_decides rpmTable (num - 1) 0 (by omega)
  refine ⟨status, hrun, ?_⟩
  rw [hiff, increasing_iff]
  constructor
  · intro hall i hi hn
    exact hall i hi (Nat.zero_le i) (by omega)
  · intro hall i hi _ hlt
    exact hall i hi (by omega)

/-! ## All fans -/

theorem checkFanModes_decides (fan : PmConfigFan) (modes : List (Fin fanModeMax)) :
    ∃ passed, checkFanModes fan modes = .ok passed ∧
      (passed = true ↔ ∀ m ∈ modes, fan.rpmTableValid m ≠ pmConfigInvalid → CurveOk fan m) := by
  induction modes with
  | nil => exact ⟨true, rfl, by simp⟩
  | cons m rest ih =>
    obtain ⟨passed, hrest, hiff⟩ := ih
    rw [checkFanModes, List.forall_mem_cons]
    split
    next hskip =>
      refine ⟨passed, hrest, ?_⟩
      rw [hiff]
      simp [hskip]
    next hvalid =>
      split
      next hitems =>
        refine ⟨false, rfl, ?_⟩
        simp only [Bool.false_eq_true, false_iff]
        rintro ⟨hm, -⟩
        have hcurve := hm hvalid
        have htwo : ¬ fan.rpmTableItems m < 2 := UInt8.not_lt.mpr hcurve.atLeast
        exact hitems.elim htwo (Nat.not_lt.mpr hcurve.atMost)
      next hitems =>
        rw [not_or] at hitems
        have hmost := Nat.not_lt.mp hitems.2
        have hleast : 2 ≤ (fan.rpmTableItems m).toNat := UInt8.not_lt.mp hitems.1
        obtain ⟨status, hrun, hstatus⟩ := checkRpmTable_decides (fan.rpmTable m) hmost
        rw [hrun, C.ok_bind]
        split
        next hbad =>
          refine ⟨false, rfl, ?_⟩
          simp only [Bool.false_eq_true, false_iff]
          rintro ⟨hm, -⟩
          exact hbad (hstatus.mpr (hm hvalid).increasing)
        next hgood =>
          refine ⟨passed, hrest, ?_⟩
          have hcurve : CurveOk fan m := ⟨hleast, hmost, hstatus.mp (not_not.mp hgood)⟩
          rw [hiff]
          simp [hcurve]

/-- The flag is a single bit. -/
theorem ConfigData.valid_eq (c : ConfigData) :
    c.valid = pmConfigValid.toUInt32 ∨ c.valid = pmConfigInvalid.toUInt32 := by
  have hmod : c.valid.toNat = c.data.toNat % 2 := by
    have hand : c.valid.toNat = c.data.toNat &&& 1 := UInt32.toNat_and _ _
    rw [hand, Nat.and_one_is_mod]
  have hvalid : pmConfigValid.toUInt32.toNat = 0 := rfl
  have hinvalid : pmConfigInvalid.toUInt32.toNat = 1 := rfl
  rw [← UInt32.toNat_inj, ← UInt32.toNat_inj, hmod, hvalid, hinvalid]
  exact Nat.mod_two_eq_zero_or_one _

/-- The test of the id, the other way round. -/
theorem not_idTooLarge_iff (c : ConfigData) :
    ¬ (c.valid = pmConfigValid.toUInt32 ∧ c.rawData.toNat ≥ maxFanNum) ↔
      c.valid = pmConfigInvalid.toUInt32 ∨ c.rawData.toNat < maxFanNum := by
  have hbit : pmConfigValid.toUInt32 ≠ pmConfigInvalid.toUInt32 := by decide
  rw [not_and, not_le]
  cases c.valid_eq with
  | inl hvalid => simp [hvalid, hbit]
  | inr hinvalid => simp [hinvalid, hbit.symm]

theorem checkFans_decides {config : List PmConfigFan} {indices : List Nat}
    (hindices : ∀ i ∈ indices, i < config.length) :
    ∃ status, checkFans config indices = .ok status ∧
      (status = 0 ↔ ∀ i ∈ indices, ∀ fan, config[i]? = some fan →
        fan.fanValid.valid ≠ pmConfigInvalid.toUInt32 → FanOk fan) := by
  induction indices with
  | nil => exact ⟨0, rfl, by simp⟩
  | cons i rest ih =>
    obtain ⟨status, hrest, hiff⟩ := ih fun k hk => hindices k (List.mem_cons_of_mem i hk)
    obtain ⟨fan, hfan⟩ : ∃ fan, config[i]? = some fan :=
      ⟨_, List.getElem?_eq_getElem (hindices i List.mem_cons_self)⟩
    have hhead : (∀ ptr, config[i]? = some ptr →
        ptr.fanValid.valid ≠ pmConfigInvalid.toUInt32 → FanOk ptr) ↔
          (fan.fanValid.valid ≠ pmConfigInvalid.toUInt32 → FanOk fan) := by
      rw [hfan]
      simp
    rw [List.forall_mem_cons, hhead, ← hiff, checkFans, C.listAt_eq_ok_iff.mpr hfan, C.ok_bind]
    split
    next hskip =>
      refine ⟨status, hrest, ?_⟩
      simp [hskip]
    next hvalid =>
      split
      next hid =>
        apply decides_of_not
        rintro ⟨hok, -⟩
        exact (not_idTooLarge_iff fan.fanId).mpr (hok hvalid).id hid
      next hid =>
        rw [not_idTooLarge_iff] at hid
        obtain ⟨passed, hmodes, hpassed⟩ := checkFanModes_decides fan (List.finRange fanModeMax)
        rw [hmodes, C.ok_bind]
        cases passed with
        | true =>
          have hok : FanOk fan := ⟨hid, fun m => hpassed.mp rfl m (List.mem_finRange m)⟩
          refine ⟨status, hrest, ?_⟩
          simp [hok]
        | false =>
          apply decides_of_not
          rintro ⟨hok, -⟩
          exact Bool.false_ne_true (hpassed.mpr fun m _ => (hok hvalid).curves m)

/-- The check reads in bounds, and passes when each of the first `num` fans is
    switched off or well ordered. -/
theorem checkFanTable_decides {config : List PmConfigFan} {num : Nat}
    (hnum : num ≤ config.length) :
    ∃ status, checkFanTable config num = .ok status ∧
      (status = 0 ↔ ∀ fan ∈ config.take num,
        fan.fanValid.valid ≠ pmConfigInvalid.toUInt32 → FanOk fan) := by
  have hindices (i : Nat) (hi : i ∈ List.range num) : i < config.length :=
    Nat.lt_of_lt_of_le (List.mem_range.mp hi) hnum
  obtain ⟨status, hrun, hiff⟩ := checkFans_decides hindices
  refine ⟨status, hrun, hiff.trans ⟨?_, ?_⟩⟩
  · intro hall fan hfan
    obtain ⟨i, hi⟩ := List.mem_iff_getElem?.mp hfan
    rw [List.getElem?_take] at hi
    split at hi
    next hlt => exact hall i (List.mem_range.mpr hlt) fan hi
    next => cases hi
  · intro hall i hi fan hfan
    refine hall fan (List.mem_iff_getElem?.mpr ⟨i, ?_⟩)
    rw [List.getElem?_take, if_pos (List.mem_range.mp hi), hfan]

/-- What an accepted array says about each of its fans. -/
theorem fanOk_of_checkFanTable {fans : Fin maxFanNum → PmConfigFan}
    (h : checkFanTable (List.ofFn fans) maxFanNum = .ok 0) (i : Fin maxFanNum)
    (hvalid : (fans i).fanValid.valid ≠ pmConfigInvalid.toUInt32) : FanOk (fans i) := by
  have hnum : maxFanNum ≤ (List.ofFn fans).length := Nat.le_of_eq List.length_ofFn.symm
  obtain ⟨status, hrun, hiff⟩ := checkFanTable_decides hnum
  rw [h] at hrun
  refine hiff.mp (Except.ok.inj hrun).symm (fans i) ?_ hvalid
  rw [List.take_of_length_le (Nat.le_of_eq List.length_ofFn), List.mem_ofFn]
  exact ⟨i, rfl⟩

end PmConfig
