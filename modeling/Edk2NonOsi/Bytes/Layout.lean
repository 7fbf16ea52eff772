-- SUMMARY: Packed layouts: a type with the exact bytes of its values, composed field by field, and the fields of a layout as spans of those bytes.
import Edk2NonOsi.Bytes.LittleEndian
import Edk2NonOsi.Bytes.Span

/-! # Packed layouts

A `Layout` is a bijection between the values of a type and the byte strings of
one length, so it can stand for a C struct without padding, or for the format
string of a record in a file. Layouts are built from words, pairs, arrays and
changes of representation, and each combinator carries its own laws.

A `Field` of a layout is a component together with its offset. Its law is what
`memcpy (&s.f, &x, sizeof x)` needs: overwriting the span of the field in the
bytes of `s` gives the bytes of `s` with the field set. -/

/-- A type whose values are exactly the byte strings of length `size`. -/
structure Layout (α : Type) where
  size : Nat
  enc : α → Bytes
  dec : Bytes → α
  length_enc : ∀ a, (enc a).length = size
  dec_enc : ∀ a, dec (enc a) = a
  enc_dec : ∀ bs, bs.length = size → enc (dec bs) = bs

namespace Layout

attribute [simp] length_enc dec_enc

variable {α β : Type}

theorem enc_injective (A : Layout α) : Function.Injective A.enc := by
  intro a b h
  have := congrArg A.dec h
  simpa using this

/-! ## Words -/

/-- An `n`-byte unsigned word, little-endian. -/
def word (n : Nat) (ofNat : Nat → α) (toNat : α → Nat) (lt : ∀ w, toNat w < 256 ^ n)
    (ofNat_toNat : ∀ w, ofNat (toNat w) = w)
    (toNat_ofNat : ∀ v, v < 256 ^ n → toNat (ofNat v) = v) : Layout α where
  size := n
  enc w := LittleEndian.ofNat n (toNat w)
  dec bs := ofNat (LittleEndian.toNat bs)
  length_enc _ := LittleEndian.length_ofNat _ _
  dec_enc w := by rw [LittleEndian.toNat_ofNat, Nat.mod_eq_of_lt (lt w), ofNat_toNat]
  enc_dec bs h := by
    have hlt := LittleEndian.toNat_lt bs
    rw [h] at hlt
    rw [toNat_ofNat _ hlt, ← h]
    exact LittleEndian.ofNat_toNat bs

def u8 : Layout UInt8 :=
  word 1 UInt8.ofNat UInt8.toNat UInt8.toNat_lt (fun _ => UInt8.ofNat_toNat)
    (fun _ h => UInt8.toNat_ofNat_of_lt' h)

def u16 : Layout UInt16 :=
  word 2 UInt16.ofNat UInt16.toNat UInt16.toNat_lt (fun _ => UInt16.ofNat_toNat)
    (fun _ h => UInt16.toNat_ofNat_of_lt' h)

def u32 : Layout UInt32 :=
  word 4 UInt32.ofNat UInt32.toNat UInt32.toNat_lt (fun _ => UInt32.ofNat_toNat)
    (fun _ h => UInt32.toNat_ofNat_of_lt' h)

/-! ## Combinators -/

/-- No bytes. -/
def unit : Layout Unit where
  size := 0
  enc _ := []
  dec _ := ()
  length_enc _ := rfl
  dec_enc _ := rfl
  enc_dec _ h := (List.length_eq_zero_iff.mp h).symm

/-- Two components, one after the other. -/
def pair (A : Layout α) (B : Layout β) : Layout (α × β) where
  size := A.size + B.size
  enc p := A.enc p.1 ++ B.enc p.2
  dec bs := (A.dec (bs.take A.size), B.dec (bs.drop A.size))
  length_enc p := by simp
  dec_enc p := by
    have htake : (A.enc p.1 ++ B.enc p.2).take A.size = A.enc p.1 := List.take_left' (by simp)
    have hdrop : (A.enc p.1 ++ B.enc p.2).drop A.size = B.enc p.2 := List.drop_left' (by simp)
    rw [htake, hdrop, dec_enc, dec_enc]
  enc_dec bs h := by
    rw [A.enc_dec _ (by simp; omega), B.enc_dec _ (by simp; omega)]
    exact List.take_append_drop _ _

/-- The same bytes, read as another type. -/
def iso (A : Layout α) (f : α → β) (g : β → α) (fg : ∀ b, f (g b) = b) (gf : ∀ a, g (f a) = a) :
    Layout β where
  size := A.size
  enc b := A.enc (g b)
  dec bs := f (A.dec bs)
  length_enc b := A.length_enc (g b)
  dec_enc b := by rw [A.dec_enc, fg]
  enc_dec bs h := by rw [gf, A.enc_dec bs h]

/-- An array: `n` elements in a row. -/
def array (A : Layout α) : (n : Nat) → Layout (Fin n → α)
  | 0 => unit.iso (fun _ => Fin.elim0) (fun _ => ()) (fun _ => funext (nofun)) (fun _ => rfl)
  | n + 1 =>
    (A.pair (A.array n)).iso (fun p => Fin.cons p.1 p.2) (fun v => (v 0, Fin.tail v))
      (fun v => Fin.cons_self_tail v) (fun p => by simp)

@[simp] theorem size_array (A : Layout α) (n : Nat) : (A.array n).size = n * A.size := by
  induction n with
  | zero => simp [array, iso, unit]
  | succ n ih =>
    simp only [array, iso, pair, ih]
    ring

/-- The value all of whose bytes are `b`, as `memset` leaves it. -/
def filled (A : Layout α) (b : UInt8) : α :=
  A.dec (List.replicate A.size b)

@[simp] theorem enc_filled (A : Layout α) (b : UInt8) :
    A.enc (A.filled b) = List.replicate A.size b :=
  A.enc_dec _ (by simp)

theorem enc_array_succ (A : Layout α) (n : Nat) (v : Fin (n + 1) → α) :
    (A.array (n + 1)).enc v = A.enc (v 0) ++ (A.array n).enc (Fin.tail v) := rfl

/-- The elements of an array are the spans of one element's size. -/
theorem read_enc_array (A : Layout α) (n : Nat) (v : Fin n → α) (i : Fin n) :
    Span.read ((A.array n).enc v) (i * A.size) A.size = A.enc (v i) := by
  induction n with
  | zero => exact i.elim0
  | succ n ih =>
    rw [enc_array_succ]
    cases i using Fin.cases with
    | zero =>
      rw [Fin.val_zero, Nat.zero_mul, Span.read_zero]
      exact List.take_left' (A.length_enc _)
    | succ i =>
      have hpos : (i.succ : Nat) * A.size = (A.enc (v 0)).length + i * A.size := by
        rw [A.length_enc, Fin.val_succ, Nat.succ_mul, Nat.add_comm]
      rw [hpos, Span.read_append_right, ih]
      rfl

theorem write_enc_array (A : Layout α) (n : Nat) (v : Fin n → α) (i : Fin n) (a : α) :
    Span.write ((A.array n).enc v) (i * A.size) (A.enc a) =
      (A.array n).enc (Function.update v i a) := by
  induction n with
  | zero => exact i.elim0
  | succ n ih =>
    rw [enc_array_succ, enc_array_succ]
    cases i using Fin.cases with
    | zero =>
      rw [Fin.val_zero, Nat.zero_mul, Function.update_self, Fin.tail_update_zero, Span.write,
        List.take_zero, List.nil_append, Nat.zero_add, A.length_enc,
        List.drop_left' (A.length_enc _)]
    | succ i =>
      have hpos : (i.succ : Nat) * A.size = (A.enc (v 0)).length + i * A.size := by
        rw [A.length_enc, Fin.val_succ, Nat.succ_mul, Nat.add_comm]
      rw [hpos, Span.write_append_right, ih, Fin.tail_update_succ,
        Function.update_of_ne (Fin.succ_ne_zero i).symm]

/-! ## Fields -/

/-- A component of `S` with the layout `A`: where its span starts in the bytes of
    `S`, and how it is read from and set in a value of `σ`. -/
structure Field {σ α : Type} (S : Layout σ) (A : Layout α) where
  offset : Nat
  get : σ → α
  set : σ → α → σ
  bound : offset + A.size ≤ S.size
  read_enc : ∀ s, Span.read (S.enc s) offset A.size = A.enc (get s)
  write_enc : ∀ s a, Span.write (S.enc s) offset (A.enc a) = S.enc (set s a)

namespace Field

variable {σ γ : Type} {S : Layout σ} {A : Layout α} {B : Layout β} {C : Layout γ}

def fst (A : Layout α) (B : Layout β) : Field (A.pair B) A where
  offset := 0
  get p := p.1
  set p a := (a, p.2)
  bound := by simp [pair]
  read_enc p := by
    rw [pair, Span.read_zero]
    exact List.take_left' (by simp)
  write_enc p a := by
    simp only [pair, Span.write, List.take_zero, List.nil_append, Nat.zero_add, length_enc]
    rw [List.drop_left' (by simp)]

def snd (A : Layout α) (B : Layout β) : Field (A.pair B) B where
  offset := A.size
  get p := p.2
  set p b := (p.1, b)
  bound := by simp [pair]
  read_enc p := by
    have := Span.read_append_right (A.enc p.1) (B.enc p.2) 0 B.size
    rw [Nat.add_zero, A.length_enc] at this
    rw [pair, this, Span.read_zero]
    exact List.take_of_length_le (by simp)
  write_enc p b := by
    have := Span.write_append (A.enc p.1) (B.enc p.2) (B.enc b)
    rw [A.length_enc, List.drop_of_length_le (by simp), List.append_nil] at this
    rw [pair, this]

/-- A field of a field. -/
def comp (F : Field S A) (G : Field A C) : Field S C where
  offset := F.offset + G.offset
  get s := G.get (F.get s)
  set s c := F.set s (G.set (F.get s) c)
  bound := by
    have := F.bound
    have := G.bound
    omega
  read_enc s := by
    rw [← Span.read_read G.bound, F.read_enc, G.read_enc]
  write_enc s c := by
    rw [← F.write_enc, ← G.write_enc, ← F.read_enc]
    refine (Span.write_within ?_ ?_).symm
    · rw [S.length_enc]
      exact F.bound
    · rw [C.length_enc]
      exact G.bound

/-- A field of the same bytes read as another type. -/
def iso (F : Field A C) {f : α → β} {g : β → α} {fg : ∀ b, f (g b) = b}
    {gf : ∀ a, g (f a) = a} : Field (A.iso f g fg gf) C where
  offset := F.offset
  get b := F.get (g b)
  set b c := f (F.set (g b) c)
  bound := F.bound
  read_enc b := F.read_enc (g b)
  write_enc b c := by
    show Span.write (A.enc (g b)) _ _ = A.enc (g (f _))
    rw [gf, F.write_enc]

/-- A field of the second component. -/
def right (F : Field B C) : Field (A.pair B) C :=
  (snd A B).comp F

/-- Element `i` of an array. -/
def elem (A : Layout α) (n : Nat) (i : Fin n) : Field (A.array n) A where
  offset := i * A.size
  get v := v i
  set v a := Function.update v i a
  bound := by
    rw [size_array, ← Nat.succ_mul]
    exact Nat.mul_le_mul_right _ i.isLt
  read_enc v := A.read_enc_array n v i
  write_enc v a := A.write_enc_array n v i a

/-- Setting a field to what it holds changes nothing. -/
theorem set_get (F : Field S A) (s : σ) : F.set s (F.get s) = s := by
  apply S.enc_injective
  rw [← F.write_enc, ← F.read_enc, Span.write_read_self]
  rw [S.length_enc]
  exact F.bound

/-- Setting a byte. -/
theorem enc_set_u8 (F : Field S u8) (s : σ) (b : UInt8) :
    S.enc (F.set s b) = (S.enc s).set F.offset b := by
  have hlt : F.offset < (S.enc s).length := by
    rw [S.length_enc]
    exact F.bound
  have henc : u8.enc b = [b] := by
    show [UInt8.ofNat b.toNat] = [b]
    rw [UInt8.ofNat_toNat]
  rw [← F.write_enc, henc, Span.write_singleton hlt]

/-- A field of decoded bytes is its span, decoded. -/
theorem get_dec (F : Field S A) {bs : Bytes} (h : bs.length = S.size) :
    F.get (S.dec bs) = A.dec (Span.read bs F.offset A.size) := by
  have hread := F.read_enc (S.dec bs)
  rw [S.enc_dec bs h] at hread
  rw [hread, A.dec_enc]

/-- Every field of a value of equal bytes has equal bytes. -/
theorem get_filled (F : Field S A) (b : UInt8) : F.get (S.filled b) = A.filled b := by
  apply A.enc_injective
  rw [← F.read_enc, S.enc_filled, Span.read_replicate F.bound, A.enc_filled]

end Field

end Layout
