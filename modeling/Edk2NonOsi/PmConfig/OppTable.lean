-- SUMMARY: `check_opp_table` as a decision: the sets of OPP tables it accepts are the consistent ones.
import Edk2NonOsi.PmConfig.AbsentDomains

namespace PmConfig

/-- Two sustained entries go together, with their values as numbers: the voltages
    are at most 200 apart, and half the frequency is at most that of the DSU. -/
structure InReach (opp dsu : DvfsOpp) : Prop where
  notAbove : opp.voltage.toNat ≤ dsu.voltage.toNat + 200
  notBelow : dsu.voltage.toNat ≤ opp.voltage.toNat + 200
  frequency : opp.frequency.toNat / 2 ≤ dsu.frequency.toNat

/-- A consistent set: every table holds its sustained entry, and those of the CPU
    domains are in reach of that of the DSU. -/
structure ConsistentSet (domOpps : List (Option DomainOppConfig)) : Prop where
  sizes : ∀ config, some config ∈ domOpps → SizeOk config
  cpus : ∃ config dsu, domOpps[dvfsElementIdxDsu]? = some (some config) ∧ Sustained config dsu ∧
    ∀ i, dvfsElementIdxLittle ≤ i → i ≤ dvfsElementIdxMidG1 →
      ∃ cpu opp, domOpps[i]? = some (some cpu) ∧ Sustained cpu opp ∧ InReach opp dsu

/-! ## The comparisons as numbers -/

/-- The difference of two voltages does not wrap. -/
theorem toNat_voltAbs (a b : UInt32) :
    (voltAbs a b).toNat = (a.toNat - b.toNat) + (b.toNat - a.toNat) := by
  unfold voltAbs
  split
  next h =>
    have hle : b.toNat ≤ a.toNat := UInt32.le_iff_toNat_le.mp h
    rw [UInt32.toNat_sub_of_le a b h]
    omega
  next h =>
    have hlt : a < b := UInt32.not_le.mp h
    have hle : a.toNat < b.toNat := UInt32.lt_iff_toNat_lt.mp hlt
    rw [UInt32.toNat_sub_of_le b a (UInt32.le_of_lt hlt)]
    omega

theorem consistent_iff_inReach {opp dsu : DvfsOpp} : Consistent opp dsu ↔ InReach opp dsu := by
  have h200 : (200 : UInt32).toNat = 200 := rfl
  have hhalf : (opp.frequency / 2).toNat = opp.frequency.toNat / 2 := UInt32.toNat_div _ _
  unfold Consistent
  rw [UInt32.le_iff_toNat_le, UInt32.le_iff_toNat_le, toNat_voltAbs, h200, hhalf]
  constructor
  · rintro ⟨hvolt, hfreq⟩
    exact ⟨by omega, by omega, hfreq⟩
  · rintro ⟨habove, hbelow, hfreq⟩
    exact ⟨by omega, hfreq⟩

/-! ## The decision -/

variable {domOpps : List (Option DomainOppConfig)}

/-- A set whose sizes are good and whose DSU is present is consistent when all CPU
    domains pass. -/
theorem consistentSet_iff {config : DomainOppConfig} {dsu : DvfsOpp}
    (hsizes : ∀ config, some config ∈ domOpps → SizeOk config)
    (hdsu : domOpps[dvfsElementIdxDsu]? = some (some config)) (hsustained : Sustained config dsu) :
    ConsistentSet domOpps ↔ ∀ k, dvfsElementIdxLittle ≤ k → k < dvfsElementIdxMidG1 + 1 →
      Passes domOpps dsu k := by
  constructor
  · rintro ⟨-, config', dsu', hdsu', hsustained', hcpus⟩ k hk hlt
    obtain ⟨cpu, opp, hcpu, hopp, hreach⟩ := hcpus k hk (by omega)
    rw [← sustained_dsu_unique hdsu hsustained hdsu' hsustained'] at hreach
    exact ⟨cpu, opp, hcpu, hopp, consistent_iff_inReach.mpr hreach⟩
  · intro hall
    refine ⟨hsizes, config, dsu, hdsu, hsustained, ?_⟩
    intro i hi hle
    obtain ⟨cpu, opp, hcpu, hopp, hconsistent⟩ := hall i hi (by omega)
    exact ⟨cpu, opp, hcpu, hopp, consistent_iff_inReach.mp hconsistent⟩

theorem checkOppTable_decides (hlen : dvfsElementIdxDsu < domOpps.length)
    (hcpus : ∀ i, dvfsElementIdxLittle ≤ i → i ≤ dvfsElementIdxMidG1 → domOpps[i]? ≠ some none) :
    ∃ accepted, checkOppTable domOpps = .ok accepted ∧
      (accepted = true ↔ ConsistentSet domOpps) := by
  obtain ⟨hrun, hdsu⟩ | ⟨hsizes, config, dsu, hconfig, hsustained, hrun⟩ := checkOppTable_cases hlen
  · refine ⟨false, hrun, ?_⟩
    simp only [Bool.false_eq_true, false_iff]
    rintro ⟨hsizes, config, dsu, hconfig, -⟩
    rw [hdsu hsizes] at hconfig
    simp at hconfig
  · rw [hrun, consistentSet_iff hsizes hconfig hsustained]
    obtain ⟨⟨i, hi, hlt, habsent, -⟩, -⟩ | ⟨-, hdecides⟩ := checkCpuDomains_cases hsizes
      (Nat.lt_of_succ_lt hlen) dsu 5 dvfsElementIdxLittle (Nat.le_refl _) (Nat.le_refl _)
    · exact (hcpus i hi (Nat.le_of_lt_succ hlt) habsent).elim
    · exact hdecides

end PmConfig
