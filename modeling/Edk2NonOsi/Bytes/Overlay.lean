-- SUMMARY: A list under keyed groups of patches: what it holds when a map says which value each key was last given, and what one more value does.
import Edk2NonOsi.Bytes.Patch

/-! # Overlays

A *group* is the list of patches that give a key its value: wherever the value of a
key is stored, in one place or in several. When the positions of a group depend on
the key alone and the groups of different keys do not meet, a list that was given
values in any order is determined by the last value of each key. -/

namespace Patch

variable {α : Type*}

/-- The positions a list of patches writes. -/
def covered (ps : List (Patch α)) : Set Nat :=
  {q | ∃ p ∈ ps, q ∈ p.range}

@[simp] theorem covered_nil : covered ([] : List (Patch α)) = ∅ := by
  ext q
  simp [covered]

@[simp] theorem covered_cons (p : Patch α) (ps : List (Patch α)) :
    covered (p :: ps) = p.range ∪ covered ps := by
  ext q
  simp [covered]

/-- The list holds the elements of the patch at its position. -/
def Holds (p : Patch α) (xs : List α) : Prop :=
  Span.read xs p.pos p.elems.length = p.elems

theorem Inside.holds_apply {p : Patch α} {xs : List α} (h : p.Inside xs.length) :
    p.Holds (p.apply xs) := by
  obtain hnil | hle := h
  · rw [Holds, hnil]
    rfl
  · exact Span.read_write_self (by omega)

theorem Inside.apply_agreeOff {p : Patch α} {xs : List α} (h : p.Inside xs.length) :
    Span.AgreeOff p.range (p.apply xs) xs := by
  intro k hk
  rw [h.getElem?_apply, if_neg fun hin => hk (Set.mem_Ico.mpr hin)]

/-- A patch still holds in a list that agrees off positions it does not write. -/
theorem Holds.of_agreeOff {p : Patch α} {xs ys : List α} {s : Set Nat} (h : p.Holds xs)
    (hagree : Span.AgreeOff s ys xs) (hd : Disjoint p.range s) : p.Holds ys :=
  (hagree.read_eq hd).trans h

/-- At the positions of a patch that holds, the list is the patch. -/
theorem Holds.getElem?_eq {p : Patch α} {xs : List α} (h : p.Holds xs) {k : Nat}
    (hk : k ∈ p.range) : xs[k]? = p.elems[k - p.pos]? := by
  have hk' := Set.mem_Ico.mp hk
  have hidx : p.pos + (k - p.pos) = k := by omega
  have hread := Span.getElem?_read xs p.pos p.elems.length (k - p.pos)
  rw [if_pos (by omega), hidx, show Span.read xs p.pos p.elems.length = p.elems from h] at hread
  exact hread.symm

/-- Patches inside the list keep its length, and what they do not write. -/
theorem applyAll_agreeOff {ps : List (Patch α)} {xs : List α}
    (hps : ∀ p ∈ ps, p.Inside xs.length) :
    Span.AgreeOff (covered ps) (applyAll ps xs) xs ∧ (applyAll ps xs).length = xs.length := by
  induction ps generalizing xs with
  | nil => exact ⟨Span.AgreeOff.refl _ _, rfl⟩
  | cons p ps ih =>
    have hp := hps p List.mem_cons_self
    have hlen := hp.length_apply
    have hinside : ∀ q ∈ ps, q.Inside (p.apply xs).length := fun q hq => by
      rw [hlen]
      exact hps q (List.mem_cons_of_mem p hq)
    obtain ⟨hagree, hlen'⟩ := ih hinside
    rw [applyAll_cons, covered_cons, Set.union_comm]
    exact ⟨hagree.trans hp.apply_agreeOff, hlen'.trans hlen⟩

/-- Patches that do not meet all hold once they are applied. -/
theorem applyAll_holds {ps : List (Patch α)} {xs : List α}
    (hps : ∀ p ∈ ps, p.Inside xs.length)
    (hd : ps.Pairwise fun p q => Disjoint p.range q.range) :
    ∀ p ∈ ps, p.Holds (applyAll ps xs) := by
  induction ps generalizing xs with
  | nil => exact fun p hp => absurd hp List.not_mem_nil
  | cons p ps ih =>
    obtain ⟨hfirst, hrest⟩ := List.pairwise_cons.mp hd
    have hp := hps p List.mem_cons_self
    have hinside : ∀ q ∈ ps, q.Inside (p.apply xs).length := fun q hq => by
      rw [hp.length_apply]
      exact hps q (List.mem_cons_of_mem p hq)
    intro q hq
    rw [applyAll_cons]
    obtain rfl | hq := List.mem_cons.mp hq
    · refine hp.holds_apply.of_agreeOff (applyAll_agreeOff hinside).1 ?_
      rw [Set.disjoint_right]
      rintro k ⟨q', hq', hk⟩
      exact Set.disjoint_right.mp (hfirst q' hq') hk
    · exact ih hinside hrest q hq

end Patch

-- ---------------------------------------------------------------------------
-- Overlays
-- ---------------------------------------------------------------------------

/-- The groups of a store in a list of length `n`: each group stays inside, writes
    the same positions for every value of its key, and meets no other patch. -/
structure Groups (K V α : Type*) (n : Nat) where
  patches : K → V → List (Patch α)
  inside : ∀ k v, ∀ p ∈ patches k v, p.Inside n
  shape : ∀ k v w, Patch.covered (patches k v) = Patch.covered (patches k w)
  within : ∀ k v, (patches k v).Pairwise fun p q => Disjoint p.range q.range
  between : ∀ k l, k ≠ l → ∀ v w,
    Disjoint (Patch.covered (patches k v)) (Patch.covered (patches l w))

namespace Groups

variable {K V α : Type*} {n : Nat}

/-- The positions of the keys that have a value. -/
def written (g : Groups K V α n) (m : K → Option V) : Set Nat :=
  {q | ∃ k v, m k = some v ∧ q ∈ Patch.covered (g.patches k v)}

/-- `xs` is `base` with the values of `m` put in their places. -/
structure Overlay (g : Groups K V α n) (base : List α) (m : K → Option V) (xs : List α) :
    Prop where
  length_eq : xs.length = n
  holds : ∀ k v, m k = some v → ∀ p ∈ g.patches k v, p.Holds xs
  rest : Span.AgreeOff (g.written m) xs base

namespace Overlay

variable {g : Groups K V α n} {base xs ys : List α} {m m' : K → Option V}

/-- The list itself, under any values that it holds already. -/
theorem of_holds (hlen : base.length = n)
    (h : ∀ k v, m k = some v → ∀ p ∈ g.patches k v, p.Holds base) : g.Overlay base m base :=
  ⟨hlen, h, Span.AgreeOff.refl _ _⟩

/-- Two overlays of one list differ in the places of keys with different values only. -/
theorem agreeOff (hx : g.Overlay base m xs) (hy : g.Overlay base m' ys) :
    Span.AgreeOff {q | ∃ k v, m k ≠ m' k ∧ q ∈ Patch.covered (g.patches k v)} xs ys := by
  intro q hq
  have hsame {k : K} {v : V} (hqk : q ∈ Patch.covered (g.patches k v)) : m k = m' k := by
    by_contra hne
    exact hq ⟨k, v, hne, hqk⟩
  have hboth {k : K} {v : V} (hqk : q ∈ Patch.covered (g.patches k v)) (hv : m k = some v) :
      xs[q]? = ys[q]? := by
    obtain ⟨p, hp, hqp⟩ := hqk
    have hv' := (hsame ⟨p, hp, hqp⟩).symm.trans hv
    rw [(hx.holds k v hv p hp).getElem?_eq hqp, (hy.holds k v hv' p hp).getElem?_eq hqp]
  by_cases hqx : q ∈ g.written m
  · obtain ⟨k, v, hv, hqk⟩ := hqx
    exact hboth hqk hv
  · by_cases hqy : q ∈ g.written m'
    · obtain ⟨k, v, hv, hqk⟩ := hqy
      exact hboth hqk ((hsame hqk).trans hv)
    · rw [hx.rest q hqx, hy.rest q hqy]

/-- The values determine the list. -/
theorem unique (hx : g.Overlay base m xs) (hy : g.Overlay base m ys) : xs = ys := by
  apply List.ext_getElem?
  intro q
  apply hx.agreeOff hy
  rintro ⟨k, v, hne, -⟩
  exact hne rfl

/-- Keys without a place do not matter. -/
theorem congr (hx : g.Overlay base m xs)
    (h : ∀ k v, g.patches k v ≠ [] → m k = m' k) : g.Overlay base m' xs := by
  have hplace (k : K) (v : V) {p : Patch α} (hp : p ∈ g.patches k v) : m k = m' k :=
    h k v (List.ne_nil_of_mem hp)
  refine ⟨hx.length_eq, ?_, hx.rest.mono ?_⟩
  · intro k v hv p hp
    rw [← hplace k v hp] at hv
    exact hx.holds k v hv p hp
  · rintro q ⟨k, v, hv, p, hp, hq⟩
    rw [hplace k v hp] at hv
    exact ⟨k, v, hv, p, hp, hq⟩

/-- Giving a key a value, whether it had one or not. -/
theorem put [DecidableEq K] (hx : g.Overlay base m xs) (k : K) (v : V) :
    g.Overlay base (Function.update m k (some v)) (Patch.applyAll (g.patches k v) xs) := by
  have hinside : ∀ p ∈ g.patches k v, p.Inside xs.length := by
    rw [hx.length_eq]
    exact g.inside k v
  obtain ⟨hagree, hlen⟩ := Patch.applyAll_agreeOff hinside
  refine ⟨hlen.trans hx.length_eq, ?_, ?_⟩
  · intro l w hw p hp
    by_cases hl : l = k
    · subst hl
      rw [Function.update_self] at hw
      cases hw
      exact Patch.applyAll_holds hinside (g.within l v) p hp
    · rw [Function.update_of_ne hl] at hw
      refine (hx.holds l w hw p hp).of_agreeOff hagree ((g.between l k hl w v).mono_left ?_)
      exact fun q hq => ⟨p, hp, hq⟩
  · refine (hagree.trans hx.rest).mono ?_
    rintro q (hq | ⟨l, w, hw, hq⟩)
    · exact ⟨k, v, Function.update_self .., hq⟩
    · by_cases hl : l = k
      · -- The key had a value before, in the same places.
        subst hl
        rw [g.shape l w v] at hq
        exact ⟨l, v, Function.update_self .., hq⟩
      · refine ⟨l, w, ?_, hq⟩
        rw [Function.update_of_ne hl, hw]

end Overlay

end Groups
