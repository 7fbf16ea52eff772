-- SUMMARY: Scripts under `set -e`: commands with an exit status, and the rules for what a script leaves behind, whether it runs through or exits.
import Edk2NonOsi.Shell.Tree

/-! # Scripts

A script takes one command after another and exits at the first that fails.
`wp` says what holds at either end of a script. Two judgments are built on it:
`Writes W`, that a script touches no file outside `W` however it ends, and
`Lays d layer`, that when it runs through, `layer` lies on top of what was in
the directory `d`. -/

namespace Shell

variable {σ α γ : Type}

/-- A command changes the state and ends with a status. -/
abbrev Command (σ : Type) : Type := σ → UInt8 × σ

/-- A script ends with a value, or it exits with a status. -/
abbrev Script (σ α : Type) : Type := EStateM UInt8 σ α

-- ---------------------------------------------------------------------------
-- The parts of a script
-- ---------------------------------------------------------------------------

/-- A command on its own. -/
def exec (c : Command σ) : Script σ Unit := fun s =>
  if (c s).1 = 0 then .ok () (c s).2 else .error (c s).1 (c s).2

/-- `c || exit status`. -/
def execOrExit (c : Command σ) (status : UInt8) : Script σ Unit := fun s =>
  if (c s).1 = 0 then .ok () (c s).2 else .error status (c s).2

/-- `exit status`. -/
def exit (status : UInt8) : Script σ α := fun s => .error status s

/-- A command that does not fail. -/
def update (f : σ → σ) : Script σ Unit := fun s => .ok () (f s)

/-- `if p; then m; fi`. -/
def when (p : σ → Bool) (m : Script σ Unit) : Script σ Unit := fun s =>
  if p s then m s else .ok () s

/-- A loop of `n` rounds. -/
def rounds (n : Nat) (m : Script σ Unit) : Script σ Unit :=
  match n with
  | 0 => pure ()
  | n + 1 => do
    m
    rounds n m

-- ---------------------------------------------------------------------------
-- Weakest preconditions
-- ---------------------------------------------------------------------------

/-- Run from `s`, the script ends with `Q`, or exits with `E`. -/
def wp (m : Script σ α) (Q : α → σ → Prop) (E : UInt8 → σ → Prop) (s : σ) : Prop :=
  match m s with
  | .ok a s' => Q a s'
  | .error status s' => E status s'

section Rules

variable {m : Script σ α} {f : α → Script σ γ} {c : Command σ} {Q Q' : α → σ → Prop}
  {R : γ → σ → Prop} {U : Unit → σ → Prop} {E E' : UInt8 → σ → Prop} {s s' : σ} {a : α}
  {status : UInt8}

theorem wp_of_ok (h : m s = .ok a s') : wp m Q E s ↔ Q a s' := by
  rw [wp, h]

theorem wp_of_error (h : m s = .error status s') : wp m Q E s ↔ E status s' := by
  rw [wp, h]

theorem wp.mono (h : wp m Q E s) (hQ : ∀ a s', Q a s' → Q' a s')
    (hE : ∀ status s', E status s' → E' status s') : wp m Q' E' s := by
  cases hm : m s with
  | ok a s' => exact (wp_of_ok hm).mpr (hQ a s' ((wp_of_ok hm).mp h))
  | error status s' => exact (wp_of_error hm).mpr (hE status s' ((wp_of_error hm).mp h))

theorem wp.and (h : wp m Q E s) (h' : wp m Q' E' s) :
    wp m (fun a s' => Q a s' ∧ Q' a s') (fun status s' => E status s' ∧ E' status s') s := by
  cases hm : m s with
  | ok a s' => exact (wp_of_ok hm).mpr ⟨(wp_of_ok hm).mp h, (wp_of_ok hm).mp h'⟩
  | error status s' =>
    exact (wp_of_error hm).mpr ⟨(wp_of_error hm).mp h, (wp_of_error hm).mp h'⟩

theorem wp_forall {ι : Type} {P : ι → α → σ → Prop}
    (h : ∀ i, wp m (P i) (fun _ _ => True) s) :
    wp m (fun a s' => ∀ i, P i a s') (fun _ _ => True) s := by
  cases hm : m s with
  | ok a s' => exact (wp_of_ok hm).mpr fun i => (wp_of_ok hm).mp (h i)
  | error status s' => exact (wp_of_error hm).mpr trivial

theorem wp_true : wp m (fun _ _ => True) (fun _ _ => True) s := by
  cases hm : m s with
  | ok a s' => exact (wp_of_ok hm).mpr trivial
  | error status s' => exact (wp_of_error hm).mpr trivial

@[simp] theorem wp_pure : wp (pure a) Q E s ↔ Q a s := Iff.rfl

@[simp] theorem wp_bind : wp (m >>= f) R E s ↔ wp m (fun a => wp (f a) R E) E s := by
  simp only [wp, bind, EStateM.bind]
  cases m s with
  | ok a s' => rfl
  | error status s' => rfl

/-- A script goes on where the first part of it ran through. -/
theorem bind_of_ok (h : m s = .ok a s') : (m >>= f) s = f a s' := by
  simp only [bind, EStateM.bind, h]

/-- What holds after the second script wherever it starts. -/
theorem wp_bind_last (h : ∀ a s', wp (f a) R (fun _ _ => True) s') :
    wp (m >>= f) R (fun _ _ => True) s := by
  rw [wp_bind]
  exact wp_true.mono (fun a s' _ => h a s') fun _ _ _ => trivial

@[simp] theorem wp_exec :
    wp (exec c) U E s ↔ if (c s).1 = 0 then U () (c s).2 else E (c s).1 (c s).2 := by
  simp only [wp, exec]
  split
  next h => split at h <;> simp_all
  next h => split at h <;> simp_all

@[simp] theorem wp_execOrExit :
    wp (execOrExit c status) U E s ↔ if (c s).1 = 0 then U () (c s).2 else E status (c s).2 := by
  simp only [wp, execOrExit]
  split
  next h => split at h <;> simp_all
  next h => split at h <;> simp_all

@[simp] theorem wp_exit : wp (exit status) Q E s ↔ E status s := Iff.rfl

@[simp] theorem wp_update {g : σ → σ} : wp (update g) U E s ↔ U () (g s) := Iff.rfl

@[simp] theorem wp_when {p : σ → Bool} {m : Script σ Unit} :
    wp (when p m) U E s ↔ if p s then wp m U E s else U () s := by
  simp only [wp, when]
  cases p s with
  | true => rfl
  | false => rfl

/-- What the rounds of a loop keep, the loop keeps. -/
theorem wp_rounds {I : σ → Prop} {m : Script σ Unit} (h : ∀ s, I s → wp m (fun _ => I) E s)
    (n : Nat) (hs : I s) : wp (rounds n m) (fun _ => I) E s := by
  induction n generalizing s with
  | zero => exact hs
  | succ n ih =>
    rw [rounds, wp_bind]
    exact (h s hs).mono (fun _ _ hs' => ih hs') fun _ _ hE => hE

end Rules

-- ---------------------------------------------------------------------------
-- Commands on files
-- ---------------------------------------------------------------------------

variable {D β : Type} [DecidableEq D]

/-- `cp src dst`. -/
def cp (src dst : Path D) : Command (Tree D β) := fun t =>
  match t.read src, t dst.dir with
  | some contents, some l => (0, t.setDir dst.dir (l.write dst.name contents))
  | _, _ => (1, t)

/-- `cp src/pattern dst`. A pattern that matches nothing stays as it is, and no file has
    that name. -/
def cpGlob (src : D) (pattern : String → Bool) (dst : D) : Command (Tree D β) := fun t =>
  match t src, t dst with
  | some l, some l' =>
    if (l.glob pattern).isEmpty then (1, t) else (0, t.setDir dst (l.glob pattern ++ l'))
  | _, _ => (1, t)

/-- `cp -r src dst`, for a directory of files, where `dst` is where it ends up. -/
def cpDir (src dst : D) : Command (Tree D β) := fun t =>
  match t src with
  | some l => (0, t.setDir dst (l ++ (t dst).getD []))
  | none => (1, t)

/-- `rm -rf file`. -/
def rmFile (p : Path D) : Command (Tree D β) := fun t =>
  match t p.dir with
  | some l => (0, t.setDir p.dir (l.remove p.name))
  | none => (0, t)

/-- `echo >> file`. -/
def append (p : Path D) (data : List β) : Command (Tree D (List β)) := fun t =>
  match t p.dir with
  | some l => (0, t.setDir p.dir (l.write p.name ((l.read p.name).getD [] ++ data)))
  | none => (1, t)

/-- `mkdir -p d`. -/
def mkdir (d : D) (t : Tree D β) : Tree D β :=
  if t.hasDir d then t else t.setDir d []

/-- `rm -rf` of the directories of a set. -/
def rmDirs (gone : D → Bool) (t : Tree D β) : Tree D β := fun d =>
  if gone d then none else t d

/-- `cd d`, and a command that only looks at the files there. -/
def inDir (d : D) (f : Listing β → UInt8 × Listing β) : Command (Tree D β) := fun t =>
  match t d with
  | some l => ((f l).1, t.setDir d (f l).2)
  | none => (1, t)

/-- `./tool`: what it does, if it is there. -/
def runTool (tool : Path D) (c : Command (Tree D β)) : Command (Tree D β) := fun t =>
  if t.has tool then c t else (127, t)

theorem foldl_mkdir_apply (ds : List D) (t : Tree D β) (d : D) :
    ds.foldl (fun t d => mkdir d t) t d = if d ∈ ds ∧ t d = none then some [] else t d := by
  induction ds generalizing t with
  | nil => simp
  | cons d' ds ih =>
    rw [List.foldl_cons, ih]
    unfold mkdir Tree.hasDir
    cases ht : t d' with
    | some l =>
      by_cases hd : d = d'
      · subst hd
        simp [ht]
      · simp [hd]
    | none =>
      by_cases hd : d = d'
      · subst hd
        simp [ht]
      · simp [hd, Tree.setDir_of_ne]

-- ---------------------------------------------------------------------------
-- What a script keeps
-- ---------------------------------------------------------------------------

/-- `R` holds between the state a script starts in and the one it ends in, whether it runs
    through or exits. -/
def Script.Keeps (R : σ → σ → Prop) (m : Script σ α) : Prop :=
  ∀ s, wp m (fun _ => R s) (fun _ => R s) s

section Keeps

variable {R R' : σ → σ → Prop} {m : Script σ α} {f : α → Script σ γ} {c : Command σ} {s s' : σ}
  {status : UInt8}

theorem Script.Keeps.imp (h : Script.Keeps R m) (hR : ∀ s s', R s s' → R' s s') :
    Script.Keeps R' m :=
  fun s => (h s).mono (fun _ s' => hR s s') fun _ s' => hR s s'

theorem Script.Keeps.exec (h : ∀ s, R s (c s).2) : Script.Keeps R (exec c) := by
  intro s
  rw [wp_exec]
  split
  next => exact h s
  next => exact h s

theorem Script.Keeps.execOrExit (h : ∀ s, R s (c s).2) (status : UInt8) :
    Script.Keeps R (execOrExit c status) := by
  intro s
  rw [wp_execOrExit]
  split
  next => exact h s
  next => exact h s

/-- An exit or not, the relation holds. -/
theorem Script.Keeps.of_ok (h : Script.Keeps R m) {a : α} (hm : m s = .ok a s') : R s s' :=
  (wp_of_ok hm).mp (h s)

theorem Script.Keeps.of_error (h : Script.Keeps R m) (hm : m s = .error status s') : R s s' :=
  (wp_of_error hm).mp (h s)

theorem Script.Keeps.bind [IsTrans σ R] (hm : Script.Keeps R m)
    (hf : ∀ a, Script.Keeps R (f a)) : Script.Keeps R (m >>= f) := by
  intro s
  rw [wp_bind]
  refine (hm s).mono ?_ fun _ _ hs => hs
  intro a s' hs
  exact (hf a s').mono (fun _ _ hs' => IsTrans.trans _ _ _ hs hs') fun _ _ hs' => IsTrans.trans _ _ _ hs hs'

variable [Std.Refl R]

theorem Script.Keeps.pure (a : α) : Script.Keeps R (pure a : Script σ α) :=
  fun s => Std.Refl.refl s

theorem Script.Keeps.exit (status : UInt8) : Script.Keeps R (exit status : Script σ α) :=
  fun s => Std.Refl.refl s

theorem Script.Keeps.when {m : Script σ Unit} (h : Script.Keeps R m) (p : σ → Bool) :
    Script.Keeps R (when p m) := by
  intro s
  rw [wp_when]
  split
  next => exact h s
  next => exact Std.Refl.refl s

theorem Script.Keeps.rounds [IsTrans σ R] {m : Script σ Unit} (h : Script.Keeps R m) (n : Nat) :
    Script.Keeps R (rounds n m) := by
  induction n with
  | zero => exact .pure ()
  | succ n ih => exact .bind h fun _ => ih

end Keeps

-- ---------------------------------------------------------------------------
-- What a script writes
-- ---------------------------------------------------------------------------

open Shell.Tree

/-- Only files of `W` change. -/
def Command.Writes (W : Set (Path D)) (c : Command (Tree D β)) : Prop :=
  ∀ t, AgreesOff W t (c t).2

/-- Only files of `W` change, whether the script runs through or exits. -/
def Script.Writes (W : Set (Path D)) (m : Script (Tree D β) α) : Prop :=
  Script.Keeps (AgreesOff W) m

section Writes

omit [DecidableEq D]

variable {W W' : Set (Path D)} {m : Script (Tree D β) α} {f : α → Script (Tree D β) γ}
  {c : Command (Tree D β)}

theorem Script.Writes.mono (h : Script.Writes W m) (hsub : W ⊆ W') : Script.Writes W' m :=
  h.imp fun _ _ ht => ht.mono hsub

/-- A directory that the script does not write stays as it is. -/
theorem Script.Writes.relDir {d : D} {r : Listing β → Listing β → Prop} [Std.Refl r]
    (h : Script.Writes W m) (hd : ∀ name, ⟨d, name⟩ ∉ W) : Script.Keeps (RelDir d r) m :=
  h.imp fun _ _ ht => .of_eq (ht.dir d hd)

theorem writes_rmDirs {gone : D → Bool} (hgone : ∀ p : Path D, gone p.dir → p ∈ W) :
    Script.Writes W (update (rmDirs gone) : Script (Tree D β) Unit) := by
  have hkept : ∀ (t : Tree D β) (d : D), ¬ gone d → rmDirs gone t d = t d :=
    fun t d hd => if_neg hd
  intro t
  constructor
  · intro d hd
    exact hkept t d fun h => hd "" (hgone ⟨d, ""⟩ h)
  · intro p hp
    exact read_congr (hkept t p.dir fun h => hp (hgone p h))

end Writes

section Commands

variable {W : Set (Path D)} {src dst p : Path D} {c : Command (Tree D β)}

theorem writes_cp (hdst : dst ∈ W) : Command.Writes W (cp src dst : Command (Tree D β)) := by
  intro t
  unfold cp
  split
  next contents l _ hl =>
    refine agreesOff_setDir_file hdst hl ?_
    intro name hne
    simp [hne]
  next => exact .refl W t

theorem writes_rmFile (hp : p ∈ W) : Command.Writes W (rmFile p : Command (Tree D β)) := by
  intro t
  unfold rmFile
  split
  next l hl =>
    refine agreesOff_setDir_file hp hl ?_
    intro name hne
    simp [hne]
  next => exact .refl W t

theorem writes_append (hp : p ∈ W) (data : List β) :
    Command.Writes W (append p data : Command (Tree D (List β))) := by
  intro t
  unfold append
  split
  next l hl =>
    refine agreesOff_setDir_file hp hl ?_
    intro name hne
    simp [hne]
  next => exact .refl W t

theorem writes_cpGlob {src dst : D} (h : filesIn dst ⊆ W) (pattern : String → Bool) :
    Command.Writes W (cpGlob src pattern dst : Command (Tree D β)) := by
  intro t
  unfold cpGlob
  split
  next =>
    split
    next => exact .refl W t
    next => exact agreesOff_setDir h _
  next => exact .refl W t

theorem writes_cpDir {src dst : D} (h : filesIn dst ⊆ W) :
    Command.Writes W (cpDir src dst : Command (Tree D β)) := by
  intro t
  unfold cpDir
  split
  next => exact agreesOff_setDir h _
  next => exact .refl W t

theorem writes_inDir {d : D} (h : filesIn d ⊆ W) (f : Listing β → UInt8 × Listing β) :
    Command.Writes W (inDir d f : Command (Tree D β)) := by
  intro t
  unfold inDir
  split
  next => exact agreesOff_setDir h _
  next => exact .refl W t

theorem relDir_inDir {d d' : D} {r : Listing β → Listing β → Prop} [Std.Refl r]
    {f : Listing β → UInt8 × Listing β} (h : d = d' → ∀ l, r l (f l).2) (t : Tree D β) :
    RelDir d r t (inDir d' f t).2 := by
  unfold inDir
  split
  next l hl =>
    by_cases hd : d = d'
    · subst hd
      show Option.Rel r (t d) (t.setDir d (f l).2 d)
      rw [hl, setDir_self]
      exact .some (h rfl l)
    · exact .of_eq (setDir_of_ne t hd _)
  next => exact .of_eq rfl

omit [DecidableEq D] in
theorem writes_runTool (h : Command.Writes W c) (tool : Path D) :
    Command.Writes W (runTool tool c) := by
  intro t
  unfold runTool
  split
  next => exact h t
  next => exact .refl W t

end Commands

-- ---------------------------------------------------------------------------
-- Layers
-- ---------------------------------------------------------------------------

/-- Files by name, from the state a script starts in. -/
abbrev Layer (D β : Type) : Type := Tree D β → String → Option β

namespace Layer

def empty : Layer D β := fun _ _ => none

/-- One file with given contents. -/
def const (name : String) (contents : β) : Layer D β := fun _ name' =>
  if name' = name then some contents else none

/-- A copy of one file. -/
def file (src : Path D) (name : String) : Layer D β := fun t name' =>
  if name' = name then t.read src else none

/-- Copies of the files of a directory. -/
def glob (src : D) (pattern : String → Bool) : Layer D β := fun t name =>
  if pattern name then t.read ⟨src, name⟩ else none

/-- The files of `l'`, and of `l` where `l'` has none. -/
def onTop (l' l : Layer D β) : Layer D β := fun t name =>
  (l' t name).or (l t name)

/-- The layer does not look at the files of `W`. -/
def ReadsOff (W : Set (Path D)) (l : Layer D β) : Prop :=
  ∀ t t', AgreesOff W t t' → l t' = l t

omit [DecidableEq D]

variable {W : Set (Path D)} {l l' l'' : Layer D β}

@[simp] theorem empty_onTop (l : Layer D β) : empty.onTop l = l := by
  funext t name
  simp [onTop, empty]

@[simp] theorem onTop_empty (l : Layer D β) : l.onTop empty = l := by
  funext t name
  simp [onTop, empty]

@[simp] theorem onTop_assoc (l'' l' l : Layer D β) :
    (l''.onTop l').onTop l = l''.onTop (l'.onTop l) := by
  funext t name
  simp [onTop, Option.or_assoc]

theorem readsOff_empty : (empty : Layer D β).ReadsOff W :=
  fun _ _ _ => rfl

theorem readsOff_const (name : String) (contents : β) :
    (const name contents : Layer D β).ReadsOff W :=
  fun _ _ _ => rfl

theorem readsOff_file {src : Path D} (h : src ∉ W) (name : String) :
    (file src name : Layer D β).ReadsOff W := by
  intro t t' hagree
  funext name'
  rw [file, file, hagree.file src h]

theorem readsOff_glob {src : D} (h : ∀ name, ⟨src, name⟩ ∉ W) (pattern : String → Bool) :
    (glob src pattern : Layer D β).ReadsOff W := by
  intro t t' hagree
  funext name
  rw [glob, glob, hagree.file _ (h name)]

theorem ReadsOff.onTop (hl' : l'.ReadsOff W) (hl : l.ReadsOff W) : (l'.onTop l).ReadsOff W := by
  intro t t' h
  funext name
  rw [Layer.onTop, Layer.onTop, hl' t t' h, hl t t' h]

end Layer

/-- When the script runs through, the layer lies on top of what was in the directory. -/
def Script.Lays (d : D) (l : Layer D β) (m : Script (Tree D β) α) : Prop :=
  ∀ t, wp m (fun _ t' => ∀ name, t'.read ⟨d, name⟩ = (l t name).or (t.read ⟨d, name⟩))
    (fun _ _ => True) t

section Lays

omit [DecidableEq D]

variable {W : Set (Path D)} {d : D} {l l' : Layer D β} {m : Script (Tree D β) α}
  {f : α → Script (Tree D β) γ}

/-- A script that writes elsewhere. -/
theorem Script.Lays.of_writes (h : Script.Writes W m) (hd : ∀ name, ⟨d, name⟩ ∉ W) :
    Script.Lays d .empty m := by
  intro t
  refine (h t).mono ?_ fun _ _ _ => trivial
  intro _ t' ht name
  exact ht.file _ (hd name)

/-- One script after another: what the second lays is on top. -/
theorem Script.Lays.bind (hm : Script.Lays d l m) (hf : ∀ a, Script.Lays d l' (f a))
    (hw : Script.Writes W m) (hl' : l'.ReadsOff W) : Script.Lays d (l'.onTop l) (m >>= f) := by
  intro t
  rw [wp_bind]
  refine ((hm t).and (hw t)).mono ?_ fun _ _ _ => trivial
  rintro a t' ⟨hlay, hagree⟩
  refine (hf a t').mono ?_ fun _ _ _ => trivial
  intro _ t'' ht name
  rw [ht name, hlay name, hl' t t' hagree, Layer.onTop, Option.or_assoc]

/-- A script that leaves one file in the directory. -/
theorem Script.Lays.of_file {name : String} {contents : Tree D β → Option β}
    (hw : Script.Writes W m) (hd : ∀ name', name' ≠ name → ⟨d, name'⟩ ∉ W)
    (hfile : ∀ t, wp m (fun _ t' => ∃ b, contents t = some b ∧ t'.read ⟨d, name⟩ = some b)
      (fun _ _ => True) t) :
    Script.Lays d (fun t name' => if name' = name then contents t else none) m := by
  intro t
  refine ((hfile t).and (hw t)).mono ?_ fun _ _ _ => trivial
  rintro _ t' ⟨⟨b, hcontents, hread⟩, hagree⟩ name'
  by_cases hname : name' = name
  · simp [hname, hread, hcontents]
  · simp [hname, hagree.file _ (hd name' hname)]

/-- A layer that is empty anyway where the script is skipped. -/
theorem Script.Lays.when {m : Script (Tree D β) Unit} {p : Tree D β → Bool}
    (h : Script.Lays d l m) (hp : ∀ t, ¬ p t → ∀ name, l t name = none) :
    Script.Lays d l (when p m) := by
  intro t
  rw [wp_when]
  split
  next => exact h t
  next hskip => simp [hp t hskip]

end Lays

/-- When the script runs through, a directory is `g` of what it was. -/
def Script.Maps (d : D) (g : Option (Listing β) → Option (Listing β))
    (m : Script (Tree D β) α) : Prop :=
  ∀ t, wp m (fun _ t' => t' d = g (t d)) (fun _ _ => True) t

section Maps

omit [DecidableEq D]

variable {W : Set (Path D)} {d : D} {g g' : Option (Listing β) → Option (Listing β)}
  {m : Script (Tree D β) α} {f : α → Script (Tree D β) γ}

theorem Script.Maps.of_writes (h : Script.Writes W m) (hd : ∀ name, ⟨d, name⟩ ∉ W) :
    Script.Maps d id m := by
  intro t
  refine (h t).mono ?_ fun _ _ _ => trivial
  intro _ t' ht
  exact ht.dir d hd

theorem Script.Maps.bind (hm : Script.Maps d g m) (hf : ∀ a, Script.Maps d g' (f a)) :
    Script.Maps d (g' ∘ g) (m >>= f) := by
  intro t
  rw [wp_bind]
  refine (hm t).mono ?_ fun _ _ _ => trivial
  intro a t' ht
  refine (hf a t').mono ?_ fun _ _ _ => trivial
  intro _ t'' ht'
  rw [ht', ht, Function.comp_apply]

theorem Script.Maps.when {m : Script (Tree D β) Unit} {p : Tree D β → Bool}
    (h : Script.Maps d g m) (hp : ∀ t, ¬ p t → g (t d) = t d) : Script.Maps d g (when p m) := by
  intro t
  rw [wp_when]
  split
  next => exact h t
  next hskip => exact (hp t hskip).symm

end Maps

/-- When the script runs through, `R` held where it started. -/
def Script.Demands (R : σ → Prop) (m : Script σ α) : Prop :=
  ∀ s, wp m (fun _ _ => R s) (fun _ _ => True) s

section Demands

variable {R : σ → Prop} {m : Script σ α} {f : α → Script σ γ}

theorem Script.Demands.bind_left (hm : Script.Demands R m) : Script.Demands R (m >>= f) := by
  intro s
  rw [wp_bind]
  refine (hm s).mono ?_ fun _ _ _ => trivial
  intro a s' hs
  exact wp_true.mono (fun _ _ _ => hs) fun _ _ _ => trivial

theorem Script.Demands.when {m : Script σ Unit} {p : σ → Bool} (hm : Script.Demands R m)
    (hp : ∀ s, ¬ p s → R s) : Script.Demands R (when p m) := by
  intro s
  rw [wp_when]
  split
  next => exact hm s
  next h => exact hp s h

omit [DecidableEq D] in
/-- A demand of what comes later, which goes back to the start. -/
theorem Script.Demands.bind_right {W : Set (Path D)} {R : Tree D β → Prop}
    {m : Script (Tree D β) α} {f : α → Script (Tree D β) γ} (hw : Script.Writes W m)
    (hf : ∀ a, Script.Demands R (f a)) (hR : ∀ t t', AgreesOff W t t' → R t' → R t) :
    Script.Demands R (m >>= f) := by
  intro t
  rw [wp_bind]
  refine (hw t).mono ?_ fun _ _ _ => trivial
  intro a t' hagree
  exact (hf a t').mono (fun _ _ h => hR t t' hagree h) fun _ _ _ => trivial

end Demands

theorem maps_inDir (d : D) (f : Listing β → UInt8 × Listing β) (status : UInt8) :
    Script.Maps d (Option.map fun l => (f l).2) (execOrExit (inDir d f) status) := by
  intro t
  rw [wp_execOrExit]
  unfold inDir
  split
  next l hl => simp [hl]
  next => simp

/-- A copy that goes through. -/
theorem wp_cp {src dst : Path D} {U : Unit → Tree D β → Prop} {t : Tree D β}
    (h : ∀ contents l, t.read src = some contents → t dst.dir = some l →
      U () (t.setDir dst.dir (l.write dst.name contents))) :
    wp (exec (cp src dst)) U (fun _ _ => True) t := by
  rw [wp_exec]
  unfold cp
  split
  next contents l hsrc hl => exact h contents l hsrc hl
  next => simp

theorem lays_cp (src : Path D) (d : D) (name : String) :
    Script.Lays d (.file src name) (exec (cp src ⟨d, name⟩ : Command (Tree D β))) := by
  intro t
  refine wp_cp fun contents l hsrc hl => ?_
  intro name'
  simp only [read_setDir_self, Listing.read_write, Layer.file, hsrc]
  split
  next => rfl
  next => rw [read_eq (p := ⟨d, name'⟩) hl, Option.none_or]

theorem lays_cpGlob (src : D) (pattern : String → Bool) (d : D) :
    Script.Lays d (.glob src pattern) (exec (cpGlob src pattern d : Command (Tree D β))) := by
  intro t
  rw [wp_exec]
  unfold cpGlob
  split
  next l l' hl hl' =>
    split
    next => simp
    next =>
      intro name
      simp [Layer.glob, read_eq (p := ⟨src, name⟩) hl, read_eq (p := ⟨d, name⟩) hl']
  next => simp

theorem lays_cpDir (src d : D) :
    Script.Lays d (.glob src fun _ => true) (exec (cpDir src d : Command (Tree D β))) := by
  intro t
  rw [wp_exec]
  unfold cpDir
  split
  next l hl =>
    intro name
    have hread : ((t d).getD []).read name = t.read ⟨d, name⟩ := by
      rw [Tree.read]
      cases t d with
      | none => rfl
      | some l' => rfl
    simp [Layer.glob, read_eq (p := ⟨src, name⟩) hl, hread]
  next => simp

/-- A loop that appends to a file. -/
theorem wp_rounds_append (p : Path D) (b : β) (n : Nat) (t : Tree D (List β)) :
    wp (rounds n (exec (append p [b])))
      (fun _ t' => (t'.read p).getD [] = (t.read p).getD [] ++ List.replicate n b)
      (fun _ _ => True) t := by
  induction n generalizing t with
  | zero => simp [rounds]
  | succ n ih =>
    rw [rounds, wp_bind, wp_exec]
    unfold append
    split
    next l hl =>
      refine (ih _).mono ?_ fun _ _ _ => trivial
      intro _ t' ht
      rw [ht, read_setDir_self, Listing.read_write, if_pos rfl, read_eq hl]
      simp [List.replicate_succ]
    next => simp

end Shell
