-- SUMMARY: Directories and the files in them, and what it means that only certain files have changed.
import Mathlib.Data.Set.Basic
import Mathlib.Logic.Function.Basic

/-! # Directory trees

A directory is a listing of names and contents, and a tree gives each
directory of a type its listing, if the directory is there. Nothing here knows
what the directories are called or what is in the files. -/

namespace Shell

variable {D β : Type}

-- ---------------------------------------------------------------------------
-- Listings
-- ---------------------------------------------------------------------------

/-- The files of a directory. Of two entries for one name, the first counts. -/
abbrev Listing (β : Type) : Type := List (String × β)

namespace Listing

def read (l : Listing β) (name : String) : Option β :=
  l.lookup name

/-- The files with names that a pattern matches. -/
def glob (l : Listing β) (pattern : String → Bool) : Listing β :=
  l.filter fun e => pattern e.1

def write (l : Listing β) (name : String) (contents : β) : Listing β :=
  (name, contents) :: l

def remove (l : Listing β) (name : String) : Listing β :=
  l.glob (· ≠ name)

/-- The listing with a file as it is now, or without it. -/
def put (l : Listing β) (name : String) : Option β → Listing β
  | some contents => l.write name contents
  | none => l.remove name

@[simp] theorem read_nil (name : String) : read ([] : Listing β) name = none := rfl

theorem read_cons (e : String × β) (l : Listing β) (name : String) :
    read (e :: l) name = if name = e.1 then some e.2 else l.read name := by
  obtain ⟨name', contents⟩ := e
  rw [read, read, List.lookup_cons]
  cases h : name == name' with
  | true => simp [eq_of_beq h]
  | false => simp [ne_of_beq_false h]

@[simp] theorem read_append (l l' : Listing β) (name : String) :
    read (l ++ l') name = (l.read name).or (l'.read name) :=
  List.lookup_append

@[simp] theorem read_write (l : Listing β) (name name' : String) (contents : β) :
    (l.write name contents).read name' =
      if name' = name then some contents else l.read name' :=
  read_cons _ l name'

@[simp] theorem read_glob (l : Listing β) (pattern : String → Bool) (name : String) :
    (l.glob pattern).read name = if pattern name then l.read name else none := by
  induction l with
  | nil => simp [glob]
  | cons e l ih =>
    rw [glob] at ih
    cases he : pattern e.1 with
    | true =>
      simp only [glob, List.filter_cons, he, if_true, read_cons, ih]
      split
      next hname => simp [hname, he]
      next => rfl
    | false =>
      simp only [glob, List.filter_cons, he, Bool.false_eq_true, if_false, read_cons, ih]
      split
      next hpattern =>
        split
        next hname => simp [hname, he] at hpattern
        next => rfl
      next => rfl

@[simp] theorem read_remove (l : Listing β) (name name' : String) :
    (l.remove name).read name' = if name' = name then none else l.read name' := by
  simp [remove]

@[simp] theorem read_put (l : Listing β) (name name' : String) (file : Option β) :
    (l.put name file).read name' = if name' = name then file else l.read name' := by
  cases file with
  | none => exact l.read_remove name name'
  | some contents => exact l.read_write name name' contents

end Listing

-- ---------------------------------------------------------------------------
-- Trees
-- ---------------------------------------------------------------------------

/-- A file, by its directory and its name. -/
structure Path (D : Type) where
  dir : D
  name : String
deriving DecidableEq

/-- The files of a directory. -/
def filesIn (d : D) : Set (Path D) := {p | p.dir = d}

@[simp] theorem mem_filesIn {d : D} {p : Path D} : p ∈ filesIn d ↔ p.dir = d := Iff.rfl

/-- The listing of each directory that is there. -/
abbrev Tree (D β : Type) : Type := D → Option (Listing β)

namespace Tree

/-- `-e` on a directory. -/
def hasDir (t : Tree D β) (d : D) : Bool :=
  (t d).isSome

def read (t : Tree D β) (p : Path D) : Option β :=
  (t p.dir).bind (·.read p.name)

/-- `-e` on a file. -/
def has (t : Tree D β) (p : Path D) : Bool :=
  (t.read p).isSome

theorem read_eq {t : Tree D β} {p : Path D} {l : Listing β} (h : t p.dir = some l) :
    t.read p = l.read p.name := by
  rw [read, h, Option.bind_some]

theorem read_congr {t t' : Tree D β} {p : Path D} (h : t p.dir = t' p.dir) :
    t.read p = t'.read p := by
  rw [read, read, h]

theorem read_of_none {t : Tree D β} {p : Path D} (h : t p.dir = none) : t.read p = none := by
  rw [read, h, Option.bind_none]

/-! ## Agreement -/

/-- `t'` is `t` but for the files in `W`. A directory in which no file is in `W` is the same
    altogether. -/
structure AgreesOff (W : Set (Path D)) (t t' : Tree D β) : Prop where
  dir : ∀ d, (∀ name, ⟨d, name⟩ ∉ W) → t' d = t d
  file : ∀ p ∉ W, t'.read p = t.read p

variable {W W' : Set (Path D)} {t t' t'' : Tree D β}

theorem AgreesOff.refl (W : Set (Path D)) (t : Tree D β) : AgreesOff W t t where
  dir _ _ := rfl
  file _ _ := rfl

theorem AgreesOff.trans (h : AgreesOff W t t') (h' : AgreesOff W t' t'') :
    AgreesOff W t t'' where
  dir d hd := (h'.dir d hd).trans (h.dir d hd)
  file p hp := (h'.file p hp).trans (h.file p hp)

instance (W : Set (Path D)) : Std.Refl (AgreesOff (β := β) W) := ⟨.refl W⟩

instance (W : Set (Path D)) : IsTrans (Tree D β) (AgreesOff W) := ⟨fun _ _ _ => .trans⟩

theorem AgreesOff.mono (h : AgreesOff W t t') (hsub : W ⊆ W') : AgreesOff W' t t' where
  dir d hd := h.dir d fun name hW => hd name (hsub hW)
  file p hp := h.file p fun hW => hp (hsub hW)

theorem AgreesOff.hasDir (h : AgreesOff W t t') {d : D} (hd : ∀ name, ⟨d, name⟩ ∉ W) :
    t'.hasDir d = t.hasDir d := by
  rw [Tree.hasDir, Tree.hasDir, h.dir d hd]

/-- The directory is in both trees, with related listings, or in none. -/
def RelDir (d : D) (r : Listing β → Listing β → Prop) (t t' : Tree D β) : Prop :=
  Option.Rel r (t d) (t' d)

section RelDir

variable {d : D} {r : Listing β → Listing β → Prop}

theorem RelDir.of_eq [Std.Refl r] (h : t' d = t d) : RelDir d r t t' := by
  rw [RelDir, h]
  cases t d with
  | none => exact .none
  | some l => exact .some (Std.Refl.refl l)

theorem RelDir.trans [IsTrans _ r] (h : RelDir d r t t') (h' : RelDir d r t' t'') :
    RelDir d r t t'' := by
  unfold RelDir at *
  generalize t d = o, t' d = o', t'' d = o'' at h h' ⊢
  cases h with
  | none => exact h'
  | some hr =>
    cases h' with
    | some hr' => exact .some (IsTrans.trans _ _ _ hr hr')

theorem RelDir.hasDir (h : RelDir d r t t') : t'.hasDir d = t.hasDir d := by
  unfold RelDir at h
  unfold Tree.hasDir
  generalize t d = o, t' d = o' at h ⊢
  cases h with
  | none => rfl
  | some _ => rfl

/-- Where a directory is found again, it was there, with a related listing. -/
theorem RelDir.exists_of_eq_some (h : RelDir d r t t') {l' : Listing β} (hl' : t' d = some l') :
    ∃ l, t d = some l ∧ r l l' := by
  unfold RelDir at h
  rw [hl'] at h
  cases hl : t d with
  | none =>
    rw [hl] at h
    cases h
  | some l =>
    rw [hl] at h
    cases h with
    | some hr => exact ⟨l, rfl, hr⟩

instance [Std.Refl r] : Std.Refl (RelDir d r) := ⟨fun _ => .of_eq rfl⟩

instance [IsTrans _ r] : IsTrans (Tree D β) (RelDir d r) := ⟨fun _ _ _ => .trans⟩

end RelDir

variable [DecidableEq D]

/-- The tree with another listing of a directory. -/
def setDir (t : Tree D β) (d : D) (l : Listing β) : Tree D β :=
  Function.update t d (some l)

@[simp] theorem setDir_self (t : Tree D β) (d : D) (l : Listing β) : t.setDir d l d = some l :=
  Function.update_self ..

theorem setDir_of_ne (t : Tree D β) {d d' : D} (h : d' ≠ d) (l : Listing β) :
    t.setDir d l d' = t d' :=
  Function.update_of_ne h ..

@[simp] theorem read_setDir_self (t : Tree D β) (d : D) (l : Listing β) (name : String) :
    (t.setDir d l).read ⟨d, name⟩ = l.read name :=
  read_eq (t.setDir_self d l)

theorem read_setDir_of_ne (t : Tree D β) {d : D} {p : Path D} (h : p.dir ≠ d)
    (l : Listing β) : (t.setDir d l).read p = t.read p :=
  read_congr (t.setDir_of_ne h l)

theorem agreesOff_setDir {d : D} (hd : filesIn d ⊆ W) (l : Listing β) :
    AgreesOff W t (t.setDir d l) where
  dir d' hd' := by
    apply setDir_of_ne
    rintro rfl
    exact hd' "" (hd rfl)
  file p hp := t.read_setDir_of_ne (fun h => hp (hd h)) l

/-- A new listing of a directory in which one file is different. -/
theorem agreesOff_setDir_file {p : Path D} {l l' : Listing β} (hp : p ∈ W)
    (hl : t p.dir = some l) (hread : ∀ name ≠ p.name, l'.read name = l.read name) :
    AgreesOff W t (t.setDir p.dir l') where
  dir d hd := by
    apply setDir_of_ne
    rintro rfl
    exact hd p.name hp
  file q hq := by
    obtain ⟨d, name⟩ := q
    by_cases hdir : d = p.dir
    · subst hdir
      have hne : name ≠ p.name := by
        rintro rfl
        exact hq hp
      rw [read_setDir_self, read_eq (p := ⟨p.dir, name⟩) hl, hread name hne]
    · exact t.read_setDir_of_ne hdir l'

end Tree

end Shell
