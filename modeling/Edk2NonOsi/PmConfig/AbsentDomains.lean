-- SUMMARY: `check_opp_table` on arrays with absent domains: exactly when it reads through a null entry.
import Edk2NonOsi.PmConfig.Validate

namespace PmConfig

variable {domOpps : List (Option DomainOppConfig)}

/-- The sustained entry of a domain, where its index lies in the table. -/
def Sustained (config : DomainOppConfig) (opp : DvfsOpp) : Prop :=
  ∃ h : config.sustainedIdx.toNat < domainMaxOppEntries, config.oppTable ⟨_, h⟩ = opp

/-- The two comparisons of a CPU domain's sustained entry with that of the DSU. -/
def Consistent (opp dsu : DvfsOpp) : Prop :=
  voltAbs opp.voltage dsu.voltage ≤ 200 ∧ opp.frequency / 2 ≤ dsu.frequency

/-- Domain `k` is present and passes the comparisons. -/
def Passes (domOpps : List (Option DomainOppConfig)) (dsu : DvfsOpp) (k : Nat) : Prop :=
  ∃ config opp, domOpps[k]? = some (some config) ∧ Sustained config opp ∧ Consistent opp dsu

/-- Some index from `a` to below `b` is absent, and the loop gets there: all
    indices in front of it pass. -/
def ReachesAbsent (domOpps : List (Option DomainOppConfig)) (dsu : DvfsOpp) (a b : Nat) : Prop :=
  ∃ i, a ≤ i ∧ i < b ∧ domOpps[i]? = some none ∧ ∀ k, a ≤ k → k < i → Passes domOpps dsu k

theorem sustainedOpp_eq_ok_iff {config : DomainOppConfig} {opp : DvfsOpp} :
    sustainedOpp config = .ok opp ↔ Sustained config opp := by
  unfold sustainedOpp C.arrayAt
  split
  next h => simp [Sustained, h]
  next h => simp [Sustained, h]

theorem Sustained.unique {config : DomainOppConfig} {opp opp' : DvfsOpp}
    (h : Sustained config opp) (h' : Sustained config opp') : opp = opp' := by
  obtain ⟨hlt, rfl⟩ := h
  obtain ⟨hlt', rfl⟩ := h'
  rfl

theorem SizeOk.sustained {config : DomainOppConfig} (h : SizeOk config) :
    ∃ opp, sustainedOpp config = .ok opp := by
  have hlt : config.sustainedIdx.toNat < config.size.toNat := UInt16.lt_iff_toNat_lt.mp h.1
  have hsize := h.2
  exact ⟨_, C.arrayAt_of_lt _ (by omega)⟩

/-- The loop skips every index outside the CPU domains. -/
theorem checkCpuDomains_filter (dsu : DvfsOpp) (indices : List Nat) :
    checkCpuDomains domOpps dsu indices = checkCpuDomains domOpps dsu
      (indices.filter fun i => dvfsElementIdxLittle ≤ i ∧ i ≤ dvfsElementIdxMidG1) := by
  induction indices with
  | nil => rfl
  | cons i rest ih =>
    by_cases hcpu : dvfsElementIdxLittle ≤ i ∧ i ≤ dvfsElementIdxMidG1
    · rw [List.filter_cons_of_pos (by simpa using hcpu), checkCpuDomains, checkCpuDomains, ih]
    · rw [List.filter_cons_of_neg (by simpa using hcpu), ← ih, checkCpuDomains, if_pos (by omega)]

theorem filter_range_cpu {n : Nat} (h : dvfsElementIdxDsu ≤ n) :
    (List.range n).filter (fun i => dvfsElementIdxLittle ≤ i ∧ i ≤ dvfsElementIdxMidG1) =
      List.range' dvfsElementIdxLittle 5 := by
  obtain ⟨m, rfl⟩ := Nat.exists_eq_add_of_le h
  have hrest : ((List.range m).map (dvfsElementIdxDsu + ·)).filter
      (fun i => dvfsElementIdxLittle ≤ i ∧ i ≤ dvfsElementIdxMidG1) = [] := by
    rw [List.filter_eq_nil_iff]
    intro i hi
    obtain ⟨k, -, rfl⟩ := List.mem_map.mp hi
    have hdsu : dvfsElementIdxMidG1 < dvfsElementIdxDsu := by decide
    simp only [decide_eq_true_eq, not_and, not_le]
    omega
  rw [List.range_add, List.filter_append, hrest, List.append_nil]
  decide

/-- What the loop does at a CPU domain that is present. -/
theorem checkCpuDomains_present (dsu : DvfsOpp) {i : Nat} (rest : List Nat)
    {config : DomainOppConfig} {opp : DvfsOpp}
    (hcpu : dvfsElementIdxLittle ≤ i ∧ i ≤ dvfsElementIdxMidG1)
    (hconfig : domOpps[i]? = some (some config)) (hopp : Sustained config opp) :
    (Consistent opp dsu ∧
        checkCpuDomains domOpps dsu (i :: rest) = checkCpuDomains domOpps dsu rest) ∨
      (¬ Consistent opp dsu ∧ checkCpuDomains domOpps dsu (i :: rest) = .ok false) := by
  have hstep : checkCpuDomains domOpps dsu (i :: rest) =
      if voltAbs opp.voltage dsu.voltage > 200 then .ok false
      else if opp.frequency / 2 > dsu.frequency then .ok false
      else checkCpuDomains domOpps dsu rest := by
    rw [checkCpuDomains, if_neg (by omega), C.listAt_eq_ok_iff.mpr hconfig]
    show (sustainedOpp config >>= _) = _
    rw [sustainedOpp_eq_ok_iff.mpr hopp]
    rfl
  rw [hstep]
  by_cases hvolt : voltAbs opp.voltage dsu.voltage > 200
  · right
    exact ⟨fun h => UInt32.not_le.mpr hvolt h.1, if_pos hvolt⟩
  · by_cases hfreq : opp.frequency / 2 > dsu.frequency
    · right
      refine ⟨fun h => UInt32.not_le.mpr hfreq h.2, ?_⟩
      rw [if_neg hvolt, if_pos hfreq]
    · left
      refine ⟨⟨UInt32.not_lt.mp hvolt, UInt32.not_lt.mp hfreq⟩, ?_⟩
      rw [if_neg hvolt, if_neg hfreq]

theorem checkCpuDomains_absent {dsu : DvfsOpp} {i : Nat} {rest : List Nat}
    (hcpu : dvfsElementIdxLittle ≤ i ∧ i ≤ dvfsElementIdxMidG1)
    (habsent : domOpps[i]? = some none) :
    checkCpuDomains domOpps dsu (i :: rest) = .error .nullPointer := by
  rw [checkCpuDomains, if_neg (by omega), C.listAt_eq_ok_iff.mpr habsent]
  rfl

theorem Passes.of_present {dsu opp : DvfsOpp} {k : Nat} {config : DomainOppConfig}
    (h : Passes domOpps dsu k) (hconfig : domOpps[k]? = some (some config))
    (hopp : Sustained config opp) : Consistent opp dsu := by
  obtain ⟨config', opp', hconfig', hopp', hconsistent⟩ := h
  rw [hconfig] at hconfig'
  obtain rfl := Option.some.inj (Option.some.inj hconfig')
  rw [hopp.unique hopp']
  exact hconsistent

/-- At a domain that passes, nothing in front of the rest is absent. -/
theorem reachesAbsent_succ_iff {dsu : DvfsOpp} {a b : Nat} (hpass : Passes domOpps dsu a) :
    ReachesAbsent domOpps dsu a b ↔ ReachesAbsent domOpps dsu (a + 1) b := by
  have hpresent : domOpps[a]? ≠ some none := by
    obtain ⟨config, -, hconfig, -⟩ := hpass
    rw [hconfig]
    simp
  constructor
  · rintro ⟨i, hai, hib, habsent, hbefore⟩
    have hne : a ≠ i := by
      rintro rfl
      exact hpresent habsent
    exact ⟨i, by omega, hib, habsent, fun k hk hki => hbefore k (by omega) hki⟩
  · rintro ⟨i, hai, hib, habsent, hbefore⟩
    refine ⟨i, by omega, hib, habsent, ?_⟩
    intro k hk hki
    by_cases hka : k = a
    · rw [hka]
      exact hpass
    · exact hbefore k (by omega) hki

/-- At a present domain that fails the comparisons, the loop gets no further. -/
theorem not_reachesAbsent_of_fails {dsu opp : DvfsOpp} {a b : Nat} {config : DomainOppConfig}
    (hconfig : domOpps[a]? = some (some config)) (hopp : Sustained config opp)
    (hfail : ¬ Consistent opp dsu) : ¬ ReachesAbsent domOpps dsu a b := by
  rintro ⟨i, hai, -, habsent, hbefore⟩
  have hne : a ≠ i := by
    rintro rfl
    rw [hconfig] at habsent
    simp at habsent
  exact hfail ((hbefore a (Nat.le_refl a) (by omega)).of_present hconfig hopp)

/-- At a domain that is present, all pass when it does and the later ones do. -/
theorem forall_passes_succ_iff {dsu opp : DvfsOpp} {a n : Nat} {config : DomainOppConfig}
    (hconfig : domOpps[a]? = some (some config)) (hopp : Sustained config opp) :
    (∀ k, a ≤ k → k < a + (n + 1) → Passes domOpps dsu k) ↔
      Consistent opp dsu ∧ ∀ k, a + 1 ≤ k → k < a + 1 + n → Passes domOpps dsu k := by
  have hhead : Passes domOpps dsu a ↔ Consistent opp dsu := by
    constructor
    · intro h
      exact h.of_present hconfig hopp
    · intro h
      exact ⟨config, opp, hconfig, hopp, h⟩
  rw [← hhead]
  constructor
  · intro hall
    exact ⟨hall a (Nat.le_refl a) (by omega), fun k hk hlt => hall k (by omega) (by omega)⟩
  · rintro ⟨hpass, hrest⟩ k hk hlt
    by_cases hka : k = a
    · rw [hka]
      exact hpass
    · exact hrest k (by omega) (by omega)

/-- How the loop over the CPU domains ends: it faults at an absent domain when it
    reaches one, and otherwise decides whether all domains pass. -/
theorem checkCpuDomains_cases (hsizes : ∀ config, some config ∈ domOpps → SizeOk config)
    (hlen : dvfsElementIdxMidG1 < domOpps.length) (dsu : DvfsOpp) (n a : Nat)
    (ha : dvfsElementIdxLittle ≤ a) (hn : a + n ≤ dvfsElementIdxMidG1 + 1) :
    (ReachesAbsent domOpps dsu a (a + n) ∧
        checkCpuDomains domOpps dsu (List.range' a n) = .error .nullPointer) ∨
      (¬ ReachesAbsent domOpps dsu a (a + n) ∧
        ∃ b, checkCpuDomains domOpps dsu (List.range' a n) = .ok b ∧
          (b = true ↔ ∀ k, a ≤ k → k < a + n → Passes domOpps dsu k)) := by
  induction n generalizing a with
  | zero =>
    right
    refine ⟨?_, true, rfl, ?_⟩
    · rintro ⟨i, hai, hib, -⟩
      omega
    · simp only [true_iff]
      intro k hk hlt
      omega
  | succ n ih =>
    have hcpu : dvfsElementIdxLittle ≤ a ∧ a ≤ dvfsElementIdxMidG1 := by omega
    have hnext : a + 1 + n = a + (n + 1) := by omega
    rw [List.range'_succ]
    cases hdomain : domOpps[a]? with
    | none =>
      rw [List.getElem?_eq_none_iff] at hdomain
      omega
    | some domain =>
      cases domain with
      | none =>
        left
        refine ⟨⟨a, Nat.le_refl a, by omega, hdomain, ?_⟩, checkCpuDomains_absent hcpu hdomain⟩
        intro k hk hka
        omega
      | some config =>
        obtain ⟨opp, hopp⟩ := (hsizes config (List.mem_of_getElem? hdomain)).sustained
        rw [sustainedOpp_eq_ok_iff] at hopp
        rw [forall_passes_succ_iff hdomain hopp]
        obtain ⟨hpass, hstep⟩ | ⟨hfail, hstep⟩ :=
          checkCpuDomains_present dsu (List.range' (a + 1) n) hcpu hdomain hopp
        · have hrest := ih (a + 1) (by omega) (by omega)
          rw [← reachesAbsent_succ_iff ⟨config, opp, hdomain, hopp, hpass⟩, hnext] at hrest
          simp only [hstep, hpass, true_and, hnext]
          exact hrest
        · right
          exact ⟨not_reachesAbsent_of_fails hdomain hopp hfail, false, hstep, by simp [hfail]⟩

/-- With good sizes and a DSU, the second loop decides. -/
theorem checkOppTable_eq {config : DomainOppConfig} {dsu : DvfsOpp}
    (hsizes : ∀ config, some config ∈ domOpps → SizeOk config)
    (hdsu : domOpps[dvfsElementIdxDsu]? = some (some config)) (hsustained : Sustained config dsu) :
    checkOppTable domOpps =
      checkCpuDomains domOpps dsu (List.range' dvfsElementIdxLittle 5) := by
  have hlen : dvfsElementIdxDsu < domOpps.length := (List.getElem?_eq_some_iff.mp hdsu).1
  rw [checkOppTable, if_pos ((checkSizes_iff domOpps).mpr hsizes), C.listAt_eq_ok_iff.mpr hdsu]
  show (sustainedOpp config >>= _) = _
  rw [sustainedOpp_eq_ok_iff.mpr hsustained, ← filter_range_cpu (Nat.le_of_lt hlen),
    ← checkCpuDomains_filter]
  rfl

/-- What decides on an array that covers the DSU: a size or the DSU itself, and
    otherwise the loop over the CPU domains. -/
theorem checkOppTable_cases (hlen : dvfsElementIdxDsu < domOpps.length) :
    (checkOppTable domOpps = .ok false ∧
        ((∀ config, some config ∈ domOpps → SizeOk config) →
          domOpps[dvfsElementIdxDsu]? = some none)) ∨
      ((∀ config, some config ∈ domOpps → SizeOk config) ∧
        ∃ config dsu, domOpps[dvfsElementIdxDsu]? = some (some config) ∧ Sustained config dsu ∧
          checkOppTable domOpps =
            checkCpuDomains domOpps dsu (List.range' dvfsElementIdxLittle 5)) := by
  by_cases hsizes : ∀ config, some config ∈ domOpps → SizeOk config
  · have hdsu := List.getElem?_eq_getElem hlen
    cases hentry : domOpps[dvfsElementIdxDsu] with
    | none =>
      rw [hentry] at hdsu
      refine Or.inl ⟨?_, fun _ => hdsu⟩
      rw [checkOppTable, if_pos ((checkSizes_iff domOpps).mpr hsizes), C.listAt_eq_ok_iff.mpr hdsu]
      rfl
    | some config =>
      rw [hentry] at hdsu
      obtain ⟨dsu, hsustained⟩ := (hsizes config (List.mem_of_getElem? hdsu)).sustained
      rw [sustainedOpp_eq_ok_iff] at hsustained
      exact Or.inr ⟨hsizes, config, dsu, hdsu, hsustained, checkOppTable_eq hsizes hdsu hsustained⟩
  · refine Or.inl ⟨?_, fun h => absurd h hsizes⟩
    rw [checkOppTable, if_neg (mt (checkSizes_iff domOpps).mp hsizes)]
    rfl

/-- Two accounts of the DSU are about the same entry. -/
theorem sustained_dsu_unique {config config' : DomainOppConfig} {dsu dsu' : DvfsOpp}
    (hconfig : domOpps[dvfsElementIdxDsu]? = some (some config)) (hdsu : Sustained config dsu)
    (hconfig' : domOpps[dvfsElementIdxDsu]? = some (some config')) (hdsu' : Sustained config' dsu') :
    dsu = dsu' := by
  rw [hconfig] at hconfig'
  obtain rfl := Option.some.inj (Option.some.inj hconfig')
  exact hdsu.unique hdsu'

/-- **When absent domains are tolerated.** On every array that covers the DSU,
    the check returns, and so reads through no null entry, unless all tables have
    a good size, the DSU is present, and the loop over the CPU domains gets to an
    absent one. -/
theorem checkOppTable_returns_iff (domOpps : List (Option DomainOppConfig))
    (hlen : dvfsElementIdxDsu < domOpps.length) :
    (∃ b, checkOppTable domOpps = .ok b) ↔
      ¬ ((∀ config, some config ∈ domOpps → SizeOk config) ∧
        ∃ config dsu, domOpps[dvfsElementIdxDsu]? = some (some config) ∧ Sustained config dsu ∧
          ReachesAbsent domOpps dsu dvfsElementIdxLittle (dvfsElementIdxMidG1 + 1)) := by
  obtain ⟨hrun, hdsu⟩ | ⟨hsizes, config, dsu, hconfig, hsustained, hrun⟩ := checkOppTable_cases hlen
  · refine iff_of_true ⟨false, hrun⟩ ?_
    rintro ⟨hsizes, config, dsu, hconfig, -⟩
    rw [hdsu hsizes] at hconfig
    simp at hconfig
  · have hreaches : ((∀ config, some config ∈ domOpps → SizeOk config) ∧
        ∃ config dsu, domOpps[dvfsElementIdxDsu]? = some (some config) ∧ Sustained config dsu ∧
          ReachesAbsent domOpps dsu dvfsElementIdxLittle (dvfsElementIdxMidG1 + 1)) ↔
        ReachesAbsent domOpps dsu dvfsElementIdxLittle (dvfsElementIdxMidG1 + 1) := by
      constructor
      · rintro ⟨-, config', dsu', hconfig', hsustained', hreach⟩
        rw [sustained_dsu_unique hconfig hsustained hconfig' hsustained']
        exact hreach
      · intro hreach
        exact ⟨hsizes, config, dsu, hconfig, hsustained, hreach⟩
    rw [hreaches, hrun]
    obtain ⟨hreach, hfault⟩ | ⟨hreach, b, hok, -⟩ := checkCpuDomains_cases hsizes
      (Nat.lt_of_succ_lt hlen) dsu 5 dvfsElementIdxLittle (Nat.le_refl _) (Nat.le_refl _)
    · refine iff_of_false ?_ fun h => h hreach
      rintro ⟨b, hok⟩
      rw [hfault] at hok
      cases hok
    · exact iff_of_true ⟨b, hok⟩ hreach

/-- One entry at index 0, all of it zero. -/
def zeroDomain : DomainOppConfig where
  size := 1
  sustainedIdx := 0
  oppTable _ := ⟨0, 0, 0, 0⟩

theorem sizeOk_zeroDomain : SizeOk zeroDomain := by
  unfold SizeOk
  decide

/-- The DSU alone: the check reads through the null entry of the first CPU domain. -/
def dsuOnly : List (Option DomainOppConfig) :=
  List.replicate dvfsElementIdxDsu none ++ [some zeroDomain]

theorem checkOppTable_reads_absent :
    dvfsElementIdxDsu < dsuOnly.length ∧ checkOppTable dsuOnly = .error .nullPointer := by
  refine ⟨by decide, ?_⟩
  have hok : ∀ config, some config ∈ dsuOnly → SizeOk config := by
    intro config hconfig
    have hzero : config = zeroDomain := by
      simpa [dsuOnly] using hconfig
    rw [hzero]
    exact sizeOk_zeroDomain
  have hsustained : Sustained zeroDomain ⟨0, 0, 0, 0⟩ := ⟨by decide, rfl⟩
  rw [checkOppTable_eq hok rfl hsustained]
  exact checkCpuDomains_absent (by decide) rfl

/-- One entry, with a voltage that is too far from zero. -/
def distantDomain : DomainOppConfig :=
  { zeroDomain with oppTable := fun _ => ⟨0, 1000, 0, 0⟩ }

/-- A DSU and one CPU domain, the first. -/
def oneCpu : List (Option DomainOppConfig) :=
  [none, none, some distantDomain, none, none, none, none, some zeroDomain]

/-- The check ends at the first CPU domain, in front of the absent ones. -/
theorem checkOppTable_returns_iff_one_cpu : ∃ b, checkOppTable oneCpu = .ok b := by
  rw [checkOppTable_returns_iff oneCpu (by decide)]
  rintro ⟨-, config, dsu, hconfig, hsustained, hreach⟩
  have hlittle : Sustained distantDomain ⟨0, 1000, 0, 0⟩ := ⟨by decide, rfl⟩
  have hdsu : dsu = ⟨0, 0, 0, 0⟩ := by
    have hzero : Sustained zeroDomain ⟨0, 0, 0, 0⟩ := ⟨by decide, rfl⟩
    exact sustained_dsu_unique hconfig hsustained rfl hzero
  have hfail : ¬ Consistent ⟨0, 1000, 0, 0⟩ dsu := by
    rw [hdsu]
    unfold Consistent
    decide
  exact not_reachesAbsent_of_fails rfl hlittle hfail hreach

end PmConfig
