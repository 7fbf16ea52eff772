-- SUMMARY: Packing blocks one after another at a fixed alignment: where each block starts, what the gaps hold, and packing a buffer in place.
import Edk2NonOsi.Bytes.Span

/-! # Packing

Blocks of any sizes are laid out in a row, each padded to a multiple of an
alignment `a`. `start` says where a block begins, as a function of the sizes
alone, and `pack` is the result. -/

namespace Packing

variable {α : Type*}

/-- `n` rounded up to a multiple of `a`. -/
def alignUp (a n : Nat) : Nat :=
  (n + (a - 1)) / a * a

/-- The length of blocks of the given sizes, once packed. -/
def extent (a : Nat) (sizes : List Nat) : Nat :=
  (sizes.map (alignUp a)).sum

/-- Where block `i` starts. -/
def start (a : Nat) (sizes : List Nat) (i : Nat) : Nat :=
  extent a (sizes.take i)

/-- A block and the fill behind it. -/
def padded (a : Nat) (fill : α) (block : List α) : List α :=
  block ++ List.replicate (alignUp a block.length - block.length) fill

def pack (a : Nat) (fill : α) (blocks : List (List α)) : List α :=
  (blocks.map (padded a fill)).flatten

/-! ## Alignment -/

theorem dvd_alignUp (a n : Nat) : a ∣ alignUp a n :=
  Nat.dvd_mul_left a _

theorem le_alignUp {a : Nat} (ha : 0 < a) (n : Nat) : n ≤ alignUp a n := by
  have hdiv := Nat.div_add_mod (n + (a - 1)) a
  have hmod := Nat.mod_lt (n + (a - 1)) ha
  rw [Nat.mul_comm] at hdiv
  rw [alignUp]
  omega

/-! ## Starts -/

variable {a : Nat} {sizes : List Nat}

@[simp] theorem start_zero (a : Nat) (sizes : List Nat) : start a sizes 0 = 0 := rfl

theorem start_length (a : Nat) (sizes : List Nat) :
    start a sizes sizes.length = extent a sizes := by
  rw [start, List.take_length]

theorem start_cons_succ (a n : Nat) (sizes : List Nat) (i : Nat) :
    start a (n :: sizes) (i + 1) = alignUp a n + start a sizes i := by
  simp [start, extent]

theorem start_take {i k : Nat} (a : Nat) (sizes : List Nat) (h : k ≤ i) :
    start a (sizes.take i) k = start a sizes k := by
  rw [start, List.take_take, Nat.min_eq_left h, start]

theorem start_succ (a : Nat) {i : Nat} (hi : i < sizes.length) :
    start a sizes (i + 1) = start a sizes i + alignUp a sizes[i] := by
  rw [start, List.take_succ_eq_append_getElem hi, extent, List.map_append, List.sum_append]
  simp [start, extent]

theorem start_mono (a : Nat) (sizes : List Nat) {i j : Nat} (h : i ≤ j) :
    start a sizes i ≤ start a sizes j := by
  induction j, h using Nat.le_induction with
  | base => exact Nat.le_refl _
  | succ j _ ih =>
    refine ih.trans ?_
    by_cases hj : j < sizes.length
    · rw [start_succ a hj]
      exact Nat.le_add_right _ _
    · rw [start, start, List.take_of_length_le (by omega), List.take_of_length_le (by omega)]

theorem start_le_extent (a : Nat) (sizes : List Nat) (i : Nat) :
    start a sizes i ≤ extent a sizes := by
  by_cases hi : i ≤ sizes.length
  · rw [← start_length]
    exact start_mono a sizes hi
  · rw [start, List.take_of_length_le (by omega)]

theorem dvd_start (a : Nat) (sizes : List Nat) (i : Nat) : a ∣ start a sizes i := by
  apply List.dvd_sum
  intro n hn
  obtain ⟨m, -, rfl⟩ := List.mem_map.mp hn
  exact dvd_alignUp a m

/-! ## The packed blocks -/

variable {blocks : List (List α)} {fill : α}

theorem length_padded (ha : 0 < a) (fill : α) (block : List α) :
    (padded a fill block).length = alignUp a block.length := by
  have := le_alignUp ha block.length
  rw [padded, List.length_append, List.length_replicate]
  omega

theorem length_pack (ha : 0 < a) (fill : α) (blocks : List (List α)) :
    (pack a fill blocks).length = extent a (blocks.map List.length) := by
  rw [pack, List.length_flatten, extent, List.map_map, List.map_map]
  congr 1
  apply List.map_congr_left
  intro block _
  exact length_padded ha fill block

theorem length_pack_take (ha : 0 < a) (fill : α) (blocks : List (List α)) (i : Nat) :
    (pack a fill (blocks.take i)).length = start a (blocks.map List.length) i := by
  rw [length_pack ha, start, List.map_take]

theorem pack_take_succ (a : Nat) (fill : α) {i : Nat} (hi : i < blocks.length) :
    pack a fill (blocks.take (i + 1)) =
      pack a fill (blocks.take i) ++ padded a fill blocks[i] := by
  rw [List.take_succ_eq_append_getElem hi, pack, List.map_append, List.flatten_append,
    List.map_singleton, List.flatten_singleton, pack]

theorem pack_split (a : Nat) (fill : α) {i : Nat} (hi : i < blocks.length) :
    pack a fill blocks = pack a fill (blocks.take i) ++ padded a fill blocks[i] ++
      pack a fill (blocks.drop (i + 1)) := by
  rw [← pack_take_succ a fill hi, pack, pack, pack, ← List.flatten_append, ← List.map_append,
    List.take_append_drop]

/-- Block `i` reads back at its start. -/
theorem read_pack (ha : 0 < a) (fill : α) {i : Nat} (hi : i < blocks.length) :
    Span.read (pack a fill blocks) (start a (blocks.map List.length) i) blocks[i].length =
      blocks[i] := by
  have hread := Span.read_append_self (pack a fill (blocks.take i)) blocks[i]
    (List.replicate (alignUp a blocks[i].length - blocks[i].length) fill ++
      pack a fill (blocks.drop (i + 1)))
  rw [length_pack_take ha] at hread
  rw [pack_split a fill hi, padded]
  simpa only [List.append_assoc] using hread

/-- Every position that belongs to no block holds the fill. -/
theorem getElem?_pack_gap (ha : 0 < a) {k : Nat} (hk : k < (pack a fill blocks).length)
    (hgap : ∀ i (hi : i < blocks.length), ¬ (start a (blocks.map List.length) i ≤ k ∧
      k < start a (blocks.map List.length) i + blocks[i].length)) :
    (pack a fill blocks)[k]? = some fill := by
  induction blocks generalizing k with
  | nil => simp [pack] at hk
  | cons block rest ih =>
    have hpack : pack a fill (block :: rest) = padded a fill block ++ pack a fill rest := rfl
    rw [hpack, List.length_append, length_padded ha] at hk
    rw [hpack]
    have hfirst := hgap 0 (Nat.succ_pos _)
    simp only [start_zero, Nat.zero_add, List.getElem_cons_zero, Nat.zero_le, true_and] at hfirst
    by_cases hlt : k < alignUp a block.length
    · -- The fill behind the first block.
      rw [List.getElem?_append_left (by rw [length_padded ha]; exact hlt), padded,
        List.getElem?_append_right (by omega), List.getElem?_replicate_of_lt (by omega)]
    · rw [List.getElem?_append_right (by rw [length_padded ha]; omega), length_padded ha]
      apply ih (by omega)
      intro i hi
      have hlater := hgap (i + 1) (Nat.succ_lt_succ hi)
      rw [List.map_cons, start_cons_succ, List.getElem_cons_succ] at hlater
      omega

/-- One step of packing in place: a block written where the fill begins. -/
theorem write_fill (ha : 0 < a) (front block : List α) (fill : α) {m : Nat}
    (hm : alignUp a block.length ≤ m) :
    Span.write (front ++ List.replicate m fill) front.length block =
      front ++ padded a fill block ++ List.replicate (m - alignUp a block.length) fill := by
  have hle := le_alignUp ha block.length
  have hsplit : m - block.length =
      (alignUp a block.length - block.length) + (m - alignUp a block.length) := by omega
  rw [Span.write_append, List.drop_replicate, hsplit, ← List.replicate_append_replicate, padded]
  simp only [List.append_assoc]

end Packing
