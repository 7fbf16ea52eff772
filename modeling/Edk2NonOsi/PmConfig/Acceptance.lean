-- SUMMARY: What the OPP and fan validators accept, exactly, and that generate mode dumps it in bounds.
import Edk2NonOsi.PmConfig.Generate
import Edk2NonOsi.PmConfig.OppTable

namespace PmConfig

open PmExportConfigCrc (layout)

/-- **`check_opp_table` accepts the consistent sets.** On every array that covers
    the DSU and has all CPU domains, the check reads in bounds and returns true on
    the consistent sets only; and in the block generated for an accepted one, the
    OPP tables have sizes that their dump respects. -/
theorem checkOppTable_accepts_iff (domOpps : List (Option DomainOppConfig))
    (hlen : dvfsElementIdxDsu < domOpps.length)
    (hcpus : ∀ i, dvfsElementIdxLittle ≤ i → i ≤ dvfsElementIdxMidG1 → domOpps[i]? ≠ some none) :
    ∃ accepted, checkOppTable domOpps = .ok accepted ∧
      (accepted = true ↔ ConsistentSet domOpps) ∧
      ∀ user timestamp g, user.domOpps = some domOpps → fillConfig user timestamp = .ok (some g) →
        accepted = true ∧ ∃ block, storeChecksum g = .ok block ∧
          (∀ i, ((layout.dec block).config.oppConfig.opps i).size = 0xFFFF ∨
            ((layout.dec block).config.oppConfig.opps i).size.toNat ≤ domainMaxOppEntries) ∧
          ∀ a ∈ dumpOppConfig (layout.dec block).config.oppConfig, a.InBounds := by
  obtain ⟨accepted, hrun, hiff⟩ := checkOppTable_decides hlen hcpus
  refine ⟨accepted, hrun, hiff, ?_⟩
  intro user timestamp g huser hfill
  have haccept := accepted_of_fillConfig hfill
  have hfits := domainFits_generatedConfig haccept timestamp
  refine ⟨?_, _, storeChecksum_of_fillConfig hfill, ?_, ?_⟩
  · rw [haccept.opp domOpps huser] at hrun
    exact (Except.ok.inj hrun).symm
  · rw [layout.dec_enc]
    exact hfits
  · rw [layout.dec_enc, inBounds_dumpOppConfig_iff]
    exact hfits

/-- The set of zero tables, with nothing in front of the CPU domains. -/
theorem checkOppTable_accepts_iff_sample :
    ∃ accepted, checkOppTable ([none, none] ++ List.replicate 6 (some zeroDomain)) =
        .ok accepted ∧
      (accepted = true ↔ ConsistentSet ([none, none] ++ List.replicate 6 (some zeroDomain))) := by
  have hcpus : ∀ i, dvfsElementIdxLittle ≤ i → i ≤ dvfsElementIdxMidG1 →
      ([none, none] ++ List.replicate 6 (some zeroDomain))[i]? ≠ some none := by
    intro i hi hle
    rw [List.getElem?_append_right hi, List.getElem?_replicate_of_lt]
    · simp
    · have hmid : dvfsElementIdxMidG1 < 8 := by decide
      simp only [List.length_cons, List.length_nil]
      omega
  obtain ⟨accepted, hrun, hiff, -⟩ := checkOppTable_accepts_iff
    ([none, none] ++ List.replicate 6 (some zeroDomain)) (by decide) hcpus
  exact ⟨accepted, hrun, hiff⟩

/-- **`check_fan_table` accepts the well-ordered curves.** On every array and every
    count within it, the check reads in bounds and returns zero only when each fan
    is switched off or well ordered, over all its entries; and an accepted fan, as
    well as all fans of a generated block, are dumped in bounds. -/
theorem checkFanTable_accepts_iff (config : List PmConfigFan) (num : Nat)
    (hnum : num ≤ config.length) :
    ∃ status, checkFanTable config num = .ok status ∧
      (status = 0 ↔ ∀ fan ∈ config.take num,
        fan.fanValid.valid ≠ pmConfigInvalid.toUInt32 → FanOk fan) ∧
      (status = 0 → ∀ fan ∈ config.take num, ∀ a ∈ dumpFan fan, a.InBounds) ∧
      ∀ user timestamp g, fillConfig user timestamp = .ok (some g) →
        ∃ block, storeChecksum g = .ok block ∧
          ∀ a ∈ dumpFanConfig (layout.dec block).config.fanConfig, a.InBounds := by
  obtain ⟨status, hrun, hiff⟩ := checkFanTable_decides hnum
  refine ⟨status, hrun, hiff, ?_, ?_⟩
  · intro hstatus fan hfan
    rw [inBounds_dumpFan_iff]
    exact FanOk.fits (hiff.mp hstatus fan hfan)
  · intro user timestamp g hfill
    refine ⟨_, storeChecksum_of_fillConfig hfill, ?_⟩
    rw [layout.dec_enc, inBounds_dumpFanConfig_iff]
    exact fanFits_generatedConfig (accepted_of_fillConfig hfill) timestamp

/-- A curve of nine entries. -/
def sampleCurve (i : Fin maxFanTableEntries) : RpmEntry where
  rpm := 500 * UInt16.ofNat i
  upTemp := 40 + 5 * Int8.ofNat i
  downTemp := 35 + 5 * Int8.ofNat i

theorem increasing_sampleCurve : Increasing sampleCurve maxFanTableEntries := by
  have hall : ∀ a b : Fin maxFanTableEntries, a < b → (sampleCurve a).rpm < (sampleCurve b).rpm ∧
      (sampleCurve a).upTemp < (sampleCurve b).upTemp ∧
      (sampleCurve a).downTemp < (sampleCurve b).downTemp := by decide
  intro a b hab _
  obtain ⟨hrpm, hup, hdown⟩ := hall a b hab
  exact ⟨hrpm, hup, hdown⟩

/-- A fan with that curve for its first mode and no other, whose id is not given. -/
def curveFan : PmConfigFan :=
  { PmConfigFan.layout.filled 0xFF with
    fanValid := ⟨0⟩
    rpmTableValid := fun m => if m = 0 then 0 else pmConfigInvalid
    rpmTableItems := fun _ => 9
    rpmTable := fun _ => sampleCurve }

theorem fanOk_curveFan : FanOk curveFan where
  id := Or.inl (by decide)
  curves _ _ := by
    have hitems : 2 ≤ (9 : UInt8).toNat ∧ (9 : UInt8).toNat ≤ maxFanTableEntries := by decide
    exact ⟨hitems.1, hitems.2, increasing_sampleCurve⟩

/-- The fan is accepted, and dumped in bounds. -/
theorem checkFanTable_accepts_iff_curve :
    checkFanTable [curveFan] 1 = .ok 0 ∧ ∀ a ∈ dumpFan curveFan, a.InBounds := by
  obtain ⟨status, hrun, hiff, hdump, -⟩ := checkFanTable_accepts_iff [curveFan] 1 (Nat.le_refl 1)
  have hzero : status = 0 := by
    rw [hiff]
    intro fan hfan _
    obtain rfl : fan = curveFan := by simpa using hfan
    exact fanOk_curveFan
  exact ⟨by rw [hrun, hzero], hdump hzero curveFan (by simp)⟩

end PmConfig
