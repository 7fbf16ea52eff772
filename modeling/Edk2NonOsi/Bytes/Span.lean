-- SUMMARY: Reading and overwriting a span of a list, and the frame relation between lists that differ on a set of positions only.
import Mathlib.Data.List.Basic
import Mathlib.Data.Set.Lattice
import Mathlib.Order.Interval.Set.Basic
import Mathlib.Tactic
import Mathlib.Order.CompletePartialOrder

/-! # Spans of a list

Buffers, files and packed structures are all lists here. A *span* is a run of
positions `[pos, pos + n)`. `read` and `write` are what `memcpy`, `fread` and a
positioned file write do to the list, and `AgreeOff` says what such a write
leaves alone. -/

namespace Span

variable {α : Type*}

/-- The `n` elements of `xs` from `pos` on; fewer where the list ends first. -/
def read (xs : List α) (pos n : Nat) : List α :=
  (xs.drop pos).take n

/-- `xs` with the elements from `pos` on replaced by `ys`. -/
def write (xs : List α) (pos : Nat) (ys : List α) : List α :=
  xs.take pos ++ ys ++ xs.drop (pos + ys.length)

/-- A write that may start past the end: the gap is filled, and writing nothing
    changes nothing. -/
def writeFill (fill : α) (xs : List α) (pos : Nat) (ys : List α) : List α :=
  if ys = [] then xs else write (xs ++ List.replicate (pos - xs.length) fill) pos ys

/-! ## Reading -/

@[simp] theorem length_read (xs : List α) (pos n : Nat) :
    (read xs pos n).length = min n (xs.length - pos) := by
  simp [read]

theorem length_read_of_le {xs : List α} {pos n : Nat} (h : pos + n ≤ xs.length) :
    (read xs pos n).length = n := by
  rw [length_read]
  omega

theorem getElem?_read (xs : List α) (pos n k : Nat) :
    (read xs pos n)[k]? = if k < n then xs[pos + k]? else none := by
  simp only [read, List.getElem?_take, List.getElem?_drop]

theorem read_zero (xs : List α) (n : Nat) : read xs 0 n = xs.take n := by
  simp [read]

theorem read_all (xs : List α) : read xs 0 xs.length = xs := by
  simp [read]

/-- Reading inside a read. -/
theorem read_read {xs : List α} {pos n p m : Nat} (h : p + m ≤ n) :
    read (read xs pos n) p m = read xs (pos + p) m := by
  apply List.ext_getElem?
  intro k
  simp only [getElem?_read]
  by_cases hk : k < m
  · have hkn : p + k < n := by omega
    simp [hk, hkn, Nat.add_assoc]
  · simp [hk]

theorem read_drop (xs : List α) (a pos n : Nat) : read (xs.drop a) pos n = read xs (a + pos) n := by
  rw [read, read, List.drop_drop]

/-- What is read behind the first elements of a span. -/
theorem drop_read (xs : List α) (pos n m : Nat) :
    (read xs pos n).drop m = read xs (pos + m) (n - m) := by
  rw [read, read, List.drop_take, List.drop_drop]

/-- A read of adjacent spans is the two reads in a row. -/
theorem read_add (xs : List α) (pos n m : Nat) :
    read xs pos (n + m) = read xs pos n ++ read xs (pos + n) m := by
  simp only [read, List.take_add, List.drop_drop]

/-- Setting an element of a span sets it in what is read. -/
theorem read_set_of_le {xs : List α} {pos k : Nat} (h : pos ≤ k) (n : Nat) (x : α) :
    read (xs.set k x) pos n = (read xs pos n).set (k - pos) x := by
  rw [read, List.drop_set, if_neg (Nat.not_lt.mpr h), List.take_set, read]

theorem read_append_left {xs ys : List α} {pos n : Nat} (h : pos + n ≤ xs.length) :
    read (xs ++ ys) pos n = read xs pos n := by
  simp only [read]
  rw [List.drop_append_of_le_length (by omega), List.take_append_of_le_length (by simp; omega)]

theorem read_append_right (xs ys : List α) (pos n : Nat) :
    read (xs ++ ys) (xs.length + pos) n = read ys pos n := by
  rw [read, ← List.drop_drop, List.drop_left', read]
  rfl

theorem read_append_self (xs ys zs : List α) :
    read (xs ++ ys ++ zs) xs.length ys.length = ys := by
  simp [read, List.append_assoc]

/-! ## Writing -/

theorem length_write (xs : List α) (pos : Nat) (ys : List α) (h : pos ≤ xs.length) :
    (write xs pos ys).length = max xs.length (pos + ys.length) := by
  simp only [write, List.length_append, List.length_take, List.length_drop]
  omega

theorem length_write_of_le {xs ys : List α} {pos : Nat} (h : pos + ys.length ≤ xs.length) :
    (write xs pos ys).length = xs.length := by
  rw [length_write xs pos ys (by omega)]
  omega

theorem getElem?_write (xs : List α) (pos : Nat) (ys : List α) (h : pos ≤ xs.length) (k : Nat) :
    (write xs pos ys)[k]? =
      if pos ≤ k ∧ k < pos + ys.length then ys[k - pos]? else xs[k]? := by
  have htake : (xs.take pos).length = pos := by simp [h]
  simp only [write, List.append_assoc, List.getElem?_append, htake]
  by_cases hlt : k < pos
  · have : ¬ pos ≤ k := by omega
    simp [hlt, this]
  · by_cases hin : k - pos < ys.length
    · have : pos ≤ k ∧ k < pos + ys.length := by omega
      simp [hlt, hin, this]
    · have hout : ¬ (pos ≤ k ∧ k < pos + ys.length) := by omega
      have hidx : pos + ys.length + (k - pos - ys.length) = k := by omega
      simp only [hlt, hin, hout, if_false, List.getElem?_drop, hidx]

@[simp] theorem write_nil (xs : List α) (pos : Nat) : write xs pos [] = xs := by
  simp [write]

/-- Writing at the join of two lists replaces the head of the second. -/
theorem write_append (xs ys zs : List α) :
    write (xs ++ ys) xs.length zs = xs ++ zs ++ ys.drop zs.length := by
  simp [write, List.drop_append]

theorem write_append_left {xs ys zs : List α} {pos : Nat} (h : pos + zs.length ≤ xs.length) :
    write (xs ++ ys) pos zs = write xs pos zs ++ ys := by
  simp only [write, List.append_assoc]
  rw [List.take_append_of_le_length (by omega), List.drop_append_of_le_length (by omega)]

theorem write_append_right (xs ys zs : List α) (pos : Nat) :
    write (xs ++ ys) (xs.length + pos) zs = xs ++ write ys pos zs := by
  have hdrop : (xs ++ ys).drop (xs.length + pos + zs.length) = ys.drop (pos + zs.length) := by
    rw [Nat.add_assoc, ← List.drop_drop, List.drop_left' rfl]
  have htake : (xs ++ ys).take (xs.length + pos) = xs ++ ys.take pos := by
    rw [List.take_append, List.take_of_length_le (by omega), Nat.add_sub_cancel_left]
  simp only [write, hdrop, htake, List.append_assoc]

theorem read_write_self {xs ys : List α} {pos : Nat} (h : pos ≤ xs.length) :
    read (write xs pos ys) pos ys.length = ys := by
  have htake : (xs.take pos).length = pos := by simp [h]
  have := read_append_self (xs.take pos) ys (xs.drop (pos + ys.length))
  rwa [htake] at this

/-- Writing back what a span holds changes nothing. -/
theorem write_read_self (xs : List α) (pos n : Nat) (h : pos + n ≤ xs.length) :
    write xs pos (read xs pos n) = xs := by
  apply List.ext_getElem?
  intro k
  rw [getElem?_write _ _ _ (by omega), length_read_of_le h]
  by_cases hk : pos ≤ k ∧ k < pos + n
  · have hin : k - pos < n := by omega
    have hidx : pos + (k - pos) = k := by omega
    simp [hk, getElem?_read, hin, hidx]
  · simp [hk]

theorem write_singleton {xs : List α} {pos : Nat} (h : pos < xs.length) (x : α) :
    write xs pos [x] = xs.set pos x := by
  rw [write, List.set_eq_take_append_cons_drop, if_pos h]
  simp

/-- Writing inside a span that is then written back is writing in place. -/
theorem write_within {xs ys : List α} {pos n p : Nat} (h : pos + n ≤ xs.length)
    (hp : p + ys.length ≤ n) :
    write xs pos (write (read xs pos n) p ys) = write xs (pos + p) ys := by
  have hread : (read xs pos n).length = n := length_read_of_le h
  have hlen : (write (read xs pos n) p ys).length = n := by
    rw [length_write_of_le (by omega), hread]
  apply List.ext_getElem?
  intro k
  rw [getElem?_write xs pos _ (by omega), getElem?_write xs (pos + p) ys (by omega),
    getElem?_write (read xs pos n) p ys (by omega), hlen]
  by_cases hin : pos + p ≤ k ∧ k < pos + p + ys.length
  · have houter : pos ≤ k ∧ k < pos + n := by omega
    have hinner : p ≤ k - pos ∧ k - pos < p + ys.length := by omega
    rw [if_pos houter, if_pos hin, if_pos hinner, Nat.sub_sub]
  · rw [if_neg hin]
    split
    next houter =>
      have hinner : ¬ (p ≤ k - pos ∧ k - pos < p + ys.length) := by omega
      have hk : k - pos < n := by omega
      have hidx : pos + (k - pos) = k := by omega
      rw [if_neg hinner, getElem?_read, if_pos hk, hidx]
    next => rfl

theorem writeFill_eq_write {fill : α} {xs ys : List α} {pos : Nat} (h : pos ≤ xs.length) :
    writeFill fill xs pos ys = write xs pos ys := by
  unfold writeFill
  split
  next hnil => simp [hnil]
  next => simp [Nat.sub_eq_zero_of_le h]

@[simp] theorem writeFill_nil (fill : α) (xs : List α) (pos : Nat) :
    writeFill fill xs pos [] = xs := by
  simp [writeFill]

theorem length_le_writeFill (fill : α) (xs : List α) (pos : Nat) (ys : List α) :
    xs.length ≤ (writeFill fill xs pos ys).length := by
  unfold writeFill
  split
  next => exact Nat.le_refl _
  next =>
    rw [length_write _ _ _ (by simp; omega)]
    simp

/-- The written span holds what was written, wherever it starts. -/
theorem getElem?_writeFill_of_lt (fill : α) (xs : List α) (pos : Nat) {ys : List α} {k : Nat}
    (hk : k < ys.length) : (writeFill fill xs pos ys)[pos + k]? = ys[k]? := by
  have hne : ys ≠ [] := by
    rintro rfl
    simp at hk
  rw [writeFill, if_neg hne, getElem?_write _ _ _ (by simp; omega), if_pos (by omega),
    Nat.add_sub_cancel_left]

/-! ## Lists that agree off a set of positions -/

/-- `xs` and `ys` hold the same element, or both none, at every position outside `s`. -/
def AgreeOff (s : Set Nat) (xs ys : List α) : Prop :=
  ∀ k, k ∉ s → xs[k]? = ys[k]?

/-- Spans that read the same hold the same elements. -/
theorem getElem?_eq_of_read_eq {xs ys : List α} {pos n k : Nat}
    (h : read xs pos n = read ys pos n) (hk : k ∈ Set.Ico pos (pos + n)) : xs[k]? = ys[k]? := by
  have hk' := Set.mem_Ico.mp hk
  have hidx : pos + (k - pos) = k := by omega
  have hread := congrArg (fun zs => zs[k - pos]?) h
  simp only [getElem?_read, if_pos (show k - pos < n by omega), hidx] at hread
  exact hread

namespace AgreeOff

variable {s t : Set Nat} {xs ys zs : List α}

protected theorem refl (s : Set Nat) (xs : List α) : AgreeOff s xs xs :=
  fun _ _ => rfl

protected theorem symm (h : AgreeOff s xs ys) : AgreeOff s ys xs :=
  fun k hk => (h k hk).symm

theorem trans (h₁ : AgreeOff s xs ys) (h₂ : AgreeOff t ys zs) : AgreeOff (s ∪ t) xs zs := by
  intro k hk
  have hs : k ∉ s := fun h => hk (Or.inl h)
  have ht : k ∉ t := fun h => hk (Or.inr h)
  exact (h₁ k hs).trans (h₂ k ht)

theorem mono (h : AgreeOff s xs ys) (hst : s ⊆ t) : AgreeOff t xs ys :=
  fun k hk => h k fun hs => hk (hst hs)

/-- A span disjoint from the changed positions reads the same. -/
theorem read_eq (h : AgreeOff s xs ys) {pos n : Nat} (hd : Disjoint (Set.Ico pos (pos + n)) s) :
    read xs pos n = read ys pos n := by
  apply List.ext_getElem?
  intro k
  simp only [getElem?_read]
  split
  next hk =>
    apply h
    intro hs
    exact Set.disjoint_left.mp hd (Set.mem_Ico.mpr (by omega)) hs
  next => rfl

/-- Setting the one position where two lists may differ makes them equal. -/
theorem set_eq_set {i : Nat} (h : AgreeOff {i} xs ys) (hlen : xs.length = ys.length) (x : α) :
    xs.set i x = ys.set i x := by
  apply List.ext_getElem?
  intro k
  rw [List.getElem?_set, List.getElem?_set, hlen]
  split
  next => rfl
  next hk => exact h k (Ne.symm hk)

/-- Lists of one length that agree off one position differ by setting it. -/
theorem eq_set {i : Nat} (h : AgreeOff {i} ys xs) (hlen : ys.length = xs.length)
    (hi : i < ys.length) : ys = xs.set i ys[i] := by
  apply List.ext_getElem?
  intro k
  rw [List.getElem?_set]
  by_cases hk : i = k
  · subst hk
    simp [← hlen, hi]
  · rw [if_neg hk]
    exact h k (Ne.symm hk)

/-- Lists of one length that agree off two positions differ by setting both. -/
theorem eq_set_set {i j : Nat} (h : AgreeOff {i, j} ys xs) (hlen : ys.length = xs.length)
    (hi : i < ys.length) (hj : j < ys.length) : ys = (xs.set i ys[i]).set j ys[j] := by
  apply List.ext_getElem?
  intro k
  rw [List.getElem?_set]
  by_cases hkj : j = k
  · subst hkj
    simp [← hlen, hj]
  · rw [if_neg hkj, List.getElem?_set]
    by_cases hki : i = k
    · subst hki
      simp [← hlen, hi]
    · rw [if_neg hki]
      exact h k fun hk => hk.elim (Ne.symm hki) (Ne.symm hkj)

end AgreeOff

theorem set_agreeOff (xs : List α) (k : Nat) (x : α) : AgreeOff {k} (xs.set k x) xs :=
  fun _ hj => List.getElem?_set_ne fun h => hj h.symm

theorem write_agreeOff {xs : List α} {pos : Nat} (ys : List α) (h : pos ≤ xs.length) :
    AgreeOff (Set.Ico pos (pos + ys.length)) (write xs pos ys) xs := by
  intro k hk
  rw [getElem?_write xs pos ys h]
  exact if_neg fun hin => hk (Set.mem_Ico.mpr hin)

/-- The frame of a write: spans it does not touch read as before. -/
theorem read_write_of_disjoint {xs ys : List α} {pos p n : Nat} (h : pos ≤ xs.length)
    (hd : p + n ≤ pos ∨ pos + ys.length ≤ p) :
    read (write xs pos ys) p n = read xs p n := by
  apply (write_agreeOff ys h).read_eq
  rw [Set.disjoint_left]
  intro k hk hk'
  rw [Set.mem_Ico] at hk hk'
  omega

/-- A span that starts where a shorter write did: what was written, then what
    was there. -/
theorem read_write_prefix {xs ys : List α} {pos n : Nat} (h : pos ≤ xs.length)
    (hn : ys.length ≤ n) :
    read (write xs pos ys) pos n = ys ++ read xs (pos + ys.length) (n - ys.length) := by
  conv_lhs => rw [← Nat.add_sub_cancel' hn, read_add, read_write_self h]
  rw [read_write_of_disjoint h (Or.inr (Nat.le_refl _))]

/-! ## Overwriting a write -/

/-- A write over the front of an earlier one is one write of both. -/
theorem write_write_prefix {xs ys zs : List α} {pos : Nat} (h : pos ≤ xs.length)
    (hz : zs.length ≤ ys.length) :
    write (write xs pos ys) pos zs = write xs pos (zs ++ ys.drop zs.length) := by
  have hlen : (zs ++ ys.drop zs.length).length = ys.length := by
    rw [List.length_append, List.length_drop]
    omega
  have hout := length_write xs pos ys h
  apply List.ext_getElem?
  intro k
  rw [getElem?_write _ _ _ (by omega), getElem?_write xs pos ys h, getElem?_write xs pos _ h, hlen]
  by_cases hz' : pos ≤ k ∧ k < pos + zs.length
  · rw [if_pos hz', if_pos (by omega), List.getElem?_append_left (by omega)]
  · rw [if_neg hz']
    by_cases hy : pos ≤ k ∧ k < pos + ys.length
    · have hidx : zs.length + (k - pos - zs.length) = k - pos := by omega
      rw [if_pos hy, if_pos hy, List.getElem?_append_right (by omega), List.getElem?_drop, hidx]
    · rw [if_neg hy, if_neg hy]

/-- What two writes at the start of a span leave in it. -/
theorem read_write_write {xs ys zs : List α} {pos n : Nat} (h : pos ≤ xs.length)
    (hy : ys.length ≤ n) (hz : zs.length ≤ n) :
    read (write (write xs pos ys) pos zs) pos n =
      zs ++ (ys ++ (read xs pos n).drop ys.length).drop zs.length := by
  have hlen := length_write xs pos ys h
  rw [ read_write_prefix (by omega) hz, ← drop_read, read_write_prefix h hy, ← drop_read]

theorem read_replicate {a : α} {m pos n : Nat} (h : pos + n ≤ m) :
    read (List.replicate m a) pos n = List.replicate n a := by
  rw [read, List.drop_replicate, List.take_replicate, Nat.min_eq_left (by omega)]

/-! ## Parts written one after another -/

/-- The frame of a write that may start past the end. -/
theorem read_writeFill_of_disjoint {fill : α} {xs ys : List α} {pos p n : Nat}
    (hin : p + n ≤ xs.length) (hd : p + n ≤ pos ∨ pos + ys.length ≤ p) :
    read (writeFill fill xs pos ys) p n = read xs p n := by
  rw [writeFill]
  split
  next => rfl
  next =>
    rw [read_write_of_disjoint (by simp; omega) hd, read_append_left hin]

theorem read_writeFill_self (fill : α) (xs : List α) (pos : Nat) (ys : List α) :
    read (writeFill fill xs pos ys) pos ys.length = ys := by
  rw [writeFill]
  split
  next hnil => rw [hnil, read, List.length_nil, List.take_zero]
  next => exact read_write_self (by simp; omega)

theorem le_length_writeFill (fill : α) (xs : List α) (pos : Nat) {ys : List α} (hne : ys ≠ []) :
    pos + ys.length ≤ (writeFill fill xs pos ys).length := by
  rw [writeFill, if_neg hne, length_write _ _ _ (by simp; omega)]
  exact Nat.le_max_right _ _

/-- Each part written to its position. -/
def writeParts (fill : α) (xs : List α) (parts : List (Nat × List α)) : List α :=
  parts.foldl (fun xs part => writeFill fill xs part.1 part.2) xs

section Parts

variable {fill : α} {xs : List α} {parts : List (Nat × List α)} {part : Nat × List α}

theorem writeParts_cons (fill : α) (xs : List α) (part : Nat × List α)
    (parts : List (Nat × List α)) : writeParts fill xs (part :: parts) =
      writeParts fill (writeFill fill xs part.1 part.2) parts :=
  List.foldl_cons ..

theorem writeParts_append (fill : α) (xs : List α) (parts parts' : List (Nat × List α)) :
    writeParts fill xs (parts ++ parts') = writeParts fill (writeParts fill xs parts) parts' :=
  List.foldl_append

theorem length_le_writeParts (fill : α) (xs : List α) (parts : List (Nat × List α)) :
    xs.length ≤ (writeParts fill xs parts).length := by
  induction parts generalizing xs with
  | nil => exact Nat.le_refl _
  | cons part rest ih =>
    rw [writeParts_cons]
    exact (length_le_writeFill fill xs part.1 part.2).trans (ih _)

theorem le_length_writeParts (fill : α) (xs : List α) (hmem : part ∈ parts) (hne : part.2 ≠ []) :
    part.1 + part.2.length ≤ (writeParts fill xs parts).length := by
  induction parts generalizing xs with
  | nil => exact absurd hmem List.not_mem_nil
  | cons first rest ih =>
    rw [writeParts_cons]
    obtain rfl | hrest := List.mem_cons.mp hmem
    · exact (le_length_writeFill fill _ _ hne).trans (length_le_writeParts fill _ rest)
    · exact ih _ hrest

/-- The frame of the parts. -/
theorem read_writeParts_of_disjoint {p n : Nat} (hin : p + n ≤ xs.length)
    (hd : ∀ part ∈ parts, p + n ≤ part.1 ∨ part.1 + part.2.length ≤ p) :
    read (writeParts fill xs parts) p n = read xs p n := by
  induction parts generalizing xs with
  | nil => rfl
  | cons part rest ih =>
    have hlen := length_le_writeFill fill xs part.1 part.2
    rw [writeParts_cons, ih (by omega) fun part' h => hd part' (List.mem_cons_of_mem _ h),
      read_writeFill_of_disjoint hin (hd part List.mem_cons_self)]

/-- Parts that do not overlap can all be read back. -/
theorem read_writeParts_of_mem (fill : α) (xs : List α)
    (hpairs : parts.Pairwise fun a b => a.1 + a.2.length ≤ b.1 ∨ b.1 + b.2.length ≤ a.1)
    (hmem : part ∈ parts) :
    read (writeParts fill xs parts) part.1 part.2.length = part.2 := by
  induction parts generalizing xs with
  | nil => exact absurd hmem List.not_mem_nil
  | cons first rest ih =>
    obtain ⟨hfirst, hrest⟩ := List.pairwise_cons.mp hpairs
    rw [writeParts_cons]
    obtain rfl | hmem := List.mem_cons.mp hmem
    · by_cases hne : part.2 = []
      · rw [hne, read, List.length_nil, List.take_zero]
      · rw [read_writeParts_of_disjoint (le_length_writeFill fill _ _ hne) hfirst, read_writeFill_self]
    · exact ih _ hrest hmem

end Parts

/-! ## Rows of one length -/

/-- Row `i` of rows that are all `n` long. -/
theorem read_flatMap {β : Type*} {f : β → List α} {n : Nat} (hf : ∀ b, (f b).length = n)
    {bs : List β} {i : Nat} {b : β} (h : bs[i]? = some b) :
    read (bs.flatMap f) (n * i) n = f b := by
  induction bs generalizing i with
  | nil => simp at h
  | cons first rest ih =>
    cases i with
    | zero =>
      obtain rfl := Option.some.inj h
      rw [List.flatMap_cons, Nat.mul_zero, read, List.drop_zero, ← hf first, List.take_left]
    | succ i =>
      have hpos : n * (i + 1) = (f first).length + n * i := by
        rw [hf, Nat.mul_succ, Nat.add_comm]
      rw [List.flatMap_cons, hpos, read_append_right]
      exact ih h

theorem length_flatMap {β : Type*} {f : β → List α} {n : Nat} (hf : ∀ b, (f b).length = n)
    (bs : List β) : (bs.flatMap f).length = n * bs.length := by
  simp [List.length_flatMap, hf, Nat.mul_comm]

end Span
