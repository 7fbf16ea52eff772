-- SUMMARY: Bounds-checked access to C objects: loads, stores and memcpy on the bytes of an object, and the faults that end a run.
import Edk2NonOsi.Bytes.Layout

/-! # C objects

An object is the byte string it occupies. An access that leaves the object, a
read through a null pointer and a failed `assert` have no defined result in C;
here they end the run with a `Fault`, so that a run without one is a run of the
program. -/

namespace C

/-- Why a run has no defined result. `outOfFuel` is not a behaviour of the
    program: it marks a loop that was given too few steps. -/
inductive Fault where
  | outOfBounds
  | nullPointer
  | assertFailed
  | outOfFuel
deriving DecidableEq, Repr

/-- The `n` bytes of `obj` from `pos` on. -/
def load (obj : Bytes) (pos n : Nat) : Except Fault Bytes :=
  if pos + n ≤ obj.length then .ok (Span.read obj pos n) else .error .outOfBounds

/-- `memcpy (dst + pos, src, n)`. -/
def memcpy (dst : Bytes) (pos : Nat) (src : Bytes) (n : Nat) : Except Fault Bytes :=
  if n ≤ src.length ∧ pos + n ≤ dst.length then .ok (Span.write dst pos (src.take n))
  else .error .outOfBounds

/-- `memset (dst + pos, b, n)`. -/
def memset (dst : Bytes) (pos : Nat) (b : UInt8) (n : Nat) : Except Fault Bytes :=
  if pos + n ≤ dst.length then .ok (Span.write dst pos (List.replicate n b))
  else .error .outOfBounds

/-- Element `i` of an array object. -/
def arrayAt {α : Type} {n : Nat} (v : Fin n → α) (i : Nat) : Except Fault α :=
  if h : i < n then .ok (v ⟨i, h⟩) else .error .outOfBounds

/-- Element `i` of an array whose length the caller chose. -/
def listAt {α : Type} (xs : List α) (i : Nat) : Except Fault α :=
  match xs[i]? with
  | some a => .ok a
  | none => .error .outOfBounds

/-- `*ptr`. -/
def deref {α : Type} : Option α → Except Fault α
  | some a => .ok a
  | none => .error .nullPointer

theorem load_of_le {obj : Bytes} {pos n : Nat} (h : pos + n ≤ obj.length) :
    load obj pos n = .ok (Span.read obj pos n) :=
  if_pos h

theorem load_eq_ok_iff {obj bs : Bytes} {pos n : Nat} :
    load obj pos n = .ok bs ↔ pos + n ≤ obj.length ∧ Span.read obj pos n = bs := by
  unfold load
  split
  next h => simp [h]
  next h => simp [h]

/-- A load that stays inside an object does not see what is behind it. -/
theorem load_append {obj bs : Bytes} {pos n : Nat} (h : load obj pos n = .ok bs) (rest : Bytes) :
    load (obj ++ rest) pos n = .ok bs := by
  obtain ⟨hle, rfl⟩ := load_eq_ok_iff.mp h
  rw [load_of_le (by rw [List.length_append]; omega), Span.read_append_left hle]

theorem memcpy_of_le {dst src : Bytes} {pos n : Nat} (hsrc : n ≤ src.length)
    (hdst : pos + n ≤ dst.length) :
    memcpy dst pos src n = .ok (Span.write dst pos (src.take n)) :=
  if_pos ⟨hsrc, hdst⟩

theorem memcpy_eq_ok_iff {dst src out : Bytes} {pos n : Nat} :
    memcpy dst pos src n = .ok out ↔
      (n ≤ src.length ∧ pos + n ≤ dst.length) ∧ Span.write dst pos (src.take n) = out := by
  unfold memcpy
  split
  next h => simp [h]
  next h => simp [h]

theorem arrayAt_of_lt {α : Type} {n : Nat} (v : Fin n → α) {i : Nat} (h : i < n) :
    arrayAt v i = .ok (v ⟨i, h⟩) :=
  dif_pos h

theorem listAt_eq_ok_iff {α : Type} {xs : List α} {i : Nat} {a : α} :
    listAt xs i = .ok a ↔ xs[i]? = some a := by
  unfold listAt
  cases xs[i]? with
  | none => simp
  | some b => simp

@[simp] theorem ok_bind {α β : Type} (a : α) (f : α → Except Fault β) :
    (Except.ok a >>= f) = f a := rfl

theorem bind_eq_ok_iff {α β : Type} {x : Except Fault α} {f : α → Except Fault β} {b : β} :
    (x >>= f) = .ok b ↔ ∃ a, x = .ok a ∧ f a = .ok b := by
  cases x with
  | error e => simp [Bind.bind, Except.bind]
  | ok a => simp [Bind.bind, Except.bind]

/-- A check in front of a computation lets it go on only by passing. -/
theorem check_eq_some {α : Type} {check : Except Fault Bool} {rest : Except Fault (Option α)}
    {a : α}
    (h : (check >>= fun passed => if (!passed) = true then pure none else rest) = .ok (some a)) :
    check = .ok true ∧ rest = .ok (some a) := by
  obtain ⟨passed, hcheck, hrest⟩ := bind_eq_ok_iff.mp h
  cases passed with
  | false => cases hrest
  | true => exact ⟨hcheck, hrest⟩

/-- A loop that succeeds does so with any steps that succeed alike. -/
theorem mapM_ok_mono {α β : Type} {f g : α → Except Fault β}
    (h : ∀ a b, f a = .ok b → g a = .ok b) {xs : List α} {ys : List β}
    (hrun : xs.mapM f = .ok ys) : xs.mapM g = .ok ys := by
  induction xs generalizing ys with
  | nil => exact hrun
  | cons x xs ih =>
    rw [List.mapM_cons] at hrun
    obtain ⟨y, hfirst, hrun⟩ := bind_eq_ok_iff.mp hrun
    obtain ⟨ys', hrest, hrun⟩ := bind_eq_ok_iff.mp hrun
    rw [List.mapM_cons, h x y hfirst, ok_bind, ih hrest]
    exact hrun

/-- A loop over the indices from `start` on whose every step succeeds. -/
theorem mapM_range'_eq_ok {α : Type} {f : Nat → Except Fault α} {start : Nat} {ys : List α}
    (h : ∀ i (hi : i < ys.length), f (start + i) = .ok ys[i]) :
    (List.range' start ys.length).mapM f = .ok ys := by
  induction ys generalizing start with
  | nil => rfl
  | cons y ys ih =>
    have hfirst : f start = .ok y := h 0 (Nat.succ_pos _)
    have hrest : ∀ i (hi : i < ys.length), f (start + 1 + i) = .ok ys[i] := by
      intro i hi
      rw [Nat.add_assoc, Nat.add_comm 1]
      exact h (i + 1) (Nat.succ_lt_succ hi)
    rw [List.length_cons, List.range'_succ, List.mapM_cons, hfirst, ok_bind, ih hrest]
    rfl

/-- Copying a whole object. -/
theorem memcpy_all {dst src : Bytes} {pos n : Nat} (hn : n = src.length)
    (hdst : pos + n ≤ dst.length) :
    memcpy dst pos src n = .ok (Span.write dst pos src) := by
  rw [memcpy_of_le (by omega) hdst, List.take_of_length_le (by omega)]

/-- Copying a whole object to where the fill of a buffer begins. -/
theorem memcpy_fill (front src : Bytes) (b : UInt8) {n m : Nat} (hn : n = src.length)
    (hm : src.length ≤ m) :
    memcpy (front ++ List.replicate m b) front.length src n =
      .ok (front ++ src ++ List.replicate (m - src.length) b) := by
  have hdst : front.length + n ≤ (front ++ List.replicate m b).length := by
    rw [List.length_append, List.length_replicate]
    omega
  rw [memcpy_all hn hdst, Span.write_append, List.drop_replicate]

/-- Copying an object into the field that has its type. -/
theorem memcpy_field {σ α : Type} {S : Layout σ} {A : Layout α} (F : S.Field A) (s : σ) (a : α) :
    memcpy (S.enc s) F.offset (A.enc a) A.size = .ok (S.enc (F.set s a)) := by
  have hbound : F.offset + A.size ≤ (S.enc s).length := by
    rw [S.length_enc]
    exact F.bound
  rw [memcpy_all (A.length_enc a).symm hbound, F.write_enc]

/-- The same where the object is followed by other bytes. -/
theorem memcpy_field_append {σ α : Type} {S : Layout σ} {A : Layout α} (F : S.Field A) (s : σ)
    (a : α) (rest : Bytes) :
    memcpy (S.enc s ++ rest) F.offset (A.enc a) A.size = .ok (S.enc (F.set s a) ++ rest) := by
  have hbound : F.offset + (A.enc a).length ≤ (S.enc s).length := by
    rw [A.length_enc, S.length_enc]
    exact F.bound
  have hdst : F.offset + A.size ≤ (S.enc s ++ rest).length := by
    rw [List.length_append]
    rw [A.length_enc] at hbound
    omega
  rw [memcpy_all (A.length_enc a).symm hdst, Span.write_append_left hbound, F.write_enc]

/-- Filling the field of an object. -/
theorem memset_field {σ α : Type} {S : Layout σ} {A : Layout α} (F : S.Field A) (s : σ)
    (b : UInt8) :
    memset (S.enc s) F.offset b A.size = .ok (S.enc (F.set s (A.filled b))) := by
  have hbound : F.offset + A.size ≤ (S.enc s).length := by
    rw [S.length_enc]
    exact F.bound
  rw [memset, if_pos hbound, ← F.write_enc, Layout.enc_filled]

/-- The object as an array of 32-bit words, as a cast to `uint32_t *` reads it. -/
def words : Bytes → List UInt32
  | b₀ :: b₁ :: b₂ :: b₃ :: bs => Layout.u32.dec [b₀, b₁, b₂, b₃] :: words bs
  | _ => []

@[simp] theorem words_nil : words [] = [] := rfl

theorem words_enc_append (w : UInt32) (bs : Bytes) :
    words (Layout.u32.enc w ++ bs) = w :: words bs := by
  have hlen := Layout.u32.length_enc w
  match henc : Layout.u32.enc w, hlen with
  | [b₀, b₁, b₂, b₃], _ =>
    have hdec := Layout.u32.dec_enc w
    rw [henc] at hdec
    simp [words, hdec]

theorem words_append {xs : Bytes} (h : xs.length % 4 = 0) (ys : Bytes) :
    words (xs ++ ys) = words xs ++ words ys := by
  induction xs using words.induct with
  | case1 b₀ b₁ b₂ b₃ bs ih =>
    have hbs : bs.length % 4 = 0 := by simpa [Nat.add_assoc] using h
    simp [words, ih hbs]
  | case2 bs hshort =>
    match bs, h with
    | [], _ => simp
    | [_], h => simp at h
    | [_, _], h => simp at h
    | [_, _, _], h => simp at h
    | b₀ :: b₁ :: b₂ :: b₃ :: bs, _ => exact (hshort _ _ _ _ _ rfl).elim

theorem length_words (bs : Bytes) : (words bs).length = bs.length / 4 := by
  induction bs using words.induct with
  | case1 b₀ b₁ b₂ b₃ bs ih =>
    simp only [words, List.length_cons, ih]
    omega
  | case2 bs hshort =>
    match bs with
    | [] => rfl
    | [_] => simp [words]
    | [_, _] => simp [words]
    | [_, _, _] => simp [words]
    | b₀ :: b₁ :: b₂ :: b₃ :: bs => exact (hshort _ _ _ _ _ rfl).elim

end C
