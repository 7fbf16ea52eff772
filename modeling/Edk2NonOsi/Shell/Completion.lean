-- SUMMARY: Scripts that run through: total triples, and the commands that cannot fail when the files they need are there.
import Edk2NonOsi.Shell.Script

/-! # Completion

`Runs P m Q` is a total triple: from `P` the script does not exit, and ends in
`Q`. The commands keep every directory, so a condition on the tree that is
`StableOff W` survives a command that writes files of `W` only. -/

namespace Shell

open Shell.Tree

variable {σ α γ D β : Type}

/-- No directory is gone. -/
def Tree.KeepsDirs (t t' : Tree D β) : Prop :=
  ∀ d, t.hasDir d → t'.hasDir d

/-- `P` survives a change of files of `W`. -/
def StableOff (W : Set (Path D)) (P : Tree D β → Prop) : Prop :=
  ∀ t t', P t → KeepsDirs t t' → AgreesOff W t t' → P t'

/-- From `P`, the script runs through and ends in `Q`. -/
def Script.Runs (P : σ → Prop) (m : Script σ α) (Q : σ → Prop) : Prop :=
  ∀ s, P s → wp m (fun _ => Q) (fun _ _ => False) s

section Runs

variable {P P' Q R : σ → Prop} {m : Script σ α} {f : α → Script σ γ}

theorem Script.Runs.bind (hm : Script.Runs P m Q) (hf : ∀ a, Script.Runs Q (f a) R) :
    Script.Runs P (m >>= f) R := by
  intro s hs
  rw [wp_bind]
  exact (hm s hs).mono (fun a s' hs' => hf a s' hs') fun _ _ h => h

theorem Script.Runs.weaken (hm : Script.Runs P m Q) (h : ∀ s, P' s → P s) :
    Script.Runs P' m Q :=
  fun s hs => hm s (h s hs)

theorem Script.Runs.imp (hm : Script.Runs P m Q) (h : ∀ s, Q s → R s) : Script.Runs P m R :=
  fun s hs => (hm s hs).mono (fun _ s' hs' => h s' hs') fun _ _ h => h

/-- What holds if the script runs through holds, as it does. -/
theorem Script.Runs.with (hm : Script.Runs P m Q)
    (h : ∀ s, P s → wp m (fun _ => R) (fun _ _ => True) s) :
    Script.Runs P m fun s => Q s ∧ R s := by
  intro s hs
  exact ((hm s hs).and (h s hs)).mono (fun _ _ hs' => hs') fun _ _ h => h.1

theorem Script.Runs.when {m : Script σ Unit} {p : σ → Bool}
    (hm : Script.Runs (fun s => P s ∧ p s) m P) : Script.Runs P (when p m) P := by
  intro s hs
  rw [wp_when]
  split
  next hp => exact hm s ⟨hs, hp⟩
  next => exact hs

theorem Script.Runs.skip {m : Script σ Unit} {p : σ → Bool} (h : ∀ s, P s → ¬ p s) :
    Script.Runs P (Shell.when p m) P := by
  intro s hs
  rw [wp_when, if_neg (h s hs)]
  exact hs

theorem Script.Runs.rounds {m : Script σ Unit} (hm : Script.Runs P m P) (n : Nat) :
    Script.Runs P (rounds n m) P :=
  fun _ hs => wp_rounds hm n hs

theorem Script.Runs.exec {c : Command σ} (h : ∀ s, P s → (c s).1 = 0 ∧ Q (c s).2) :
    Script.Runs P (exec c) Q := by
  intro s hs
  rw [wp_exec, if_pos (h s hs).1]
  exact (h s hs).2

theorem Script.Runs.exists_ok (hm : Script.Runs P m Q) {s : σ} (hs : P s) :
    ∃ a s', m s = .ok a s' := by
  cases h : m s with
  | ok a s' => exact ⟨a, s', rfl⟩
  | error status s' => exact ((wp_of_error h).mp (hm s hs)).elim

end Runs

variable {W W' : Set (Path D)} {P P' : Tree D β → Prop}

theorem StableOff.mono (h : StableOff W P) (hsub : W' ⊆ W) : StableOff W' P :=
  fun t t' ht hdirs hagree => h t t' ht hdirs (hagree.mono hsub)

theorem StableOff.and (h : StableOff W P) (h' : StableOff W P') :
    StableOff W fun t => P t ∧ P' t :=
  fun t t' ht hdirs hagree => ⟨h t t' ht.1 hdirs hagree, h' t t' ht.2 hdirs hagree⟩

theorem stableOff_hasDir (W : Set (Path D)) (d : D) :
    StableOff W fun t : Tree D β => t.hasDir d :=
  fun _ _ ht hdirs _ => hdirs d ht

theorem stableOff_has {p : Path D} (hp : p ∉ W) :
    StableOff W fun t : Tree D β => t.has p := by
  intro t t' ht _ hagree
  rw [Tree.has, hagree.file p hp]
  exact ht

/-- A file with contents that are good for its name. -/
def Tree.Holds (good : String → β → Prop) (t : Tree D β) (p : Path D) : Prop :=
  ∃ b, t.read p = some b ∧ good p.name b

theorem Tree.Holds.has {good : String → β → Prop} {t : Tree D β} {p : Path D}
    (h : t.Holds good p) : t.has p := by
  obtain ⟨b, hb, -⟩ := h
  rw [Tree.has, hb]
  rfl

theorem stableOff_holds {p : Path D} (good : String → β → Prop) (hp : p ∉ W) :
    StableOff W fun t : Tree D β => t.Holds good p := by
  intro t t' ht _ hagree
  rw [Tree.Holds, hagree.file p hp]
  exact ht

/-- The files of a layer are good for their names. -/
def Layer.Good (good : String → β → Prop) (l : Layer D β) (t : Tree D β) : Prop :=
  ∀ name b, l t name = some b → good name b

theorem Layer.Good.onTop {good : String → β → Prop} {l l' : Layer D β} {t : Tree D β}
    (h' : l'.Good good t) (h : l.Good good t) : (l'.onTop l).Good good t := by
  intro name b hb
  rw [Layer.onTop, Option.or_eq_some_iff] at hb
  obtain hb | ⟨-, hb⟩ := hb
  · exact h' name b hb
  · exact h name b hb

/-- A layer leaves its files, and those that were there. -/
theorem Script.Lays.has {m : Script (Tree D β) α} {d : D} {l : Layer D β} {t : Tree D β}
    {name : String} (h : Script.Lays d l m) (hsome : (l t name).isSome ∨ t.has ⟨d, name⟩) :
    wp m (fun _ t' => t'.has ⟨d, name⟩) (fun _ _ => True) t := by
  refine (h t).mono ?_ fun _ _ _ => trivial
  intro _ t' hread
  rw [Tree.has, hread name, Option.isSome_or, Bool.or_eq_true]
  exact hsome

/-- A layer of good files leaves those that it has. -/
theorem Script.Lays.holds {m : Script (Tree D β) α} {d : D} {l : Layer D β} {t : Tree D β}
    {good : String → β → Prop} {names : List String} (h : Script.Lays d l m) (hl : l.Good good t)
    (hsome : ∀ name ∈ names, (l t name).isSome) :
    wp m (fun _ t' => ∀ name ∈ names, t'.Holds good ⟨d, name⟩) (fun _ _ => True) t := by
  refine (h t).mono ?_ fun _ _ _ => trivial
  intro _ t' hread name hname
  obtain ⟨b, hb⟩ := Option.isSome_iff_exists.mp (hsome name hname)
  refine ⟨b, ?_, hl name b hb⟩
  rw [hread name, hb, Option.some_or]

/-- A tool that succeeds where it finds what it needs, keeps the directories, and leaves what it
    is there for. -/
structure Command.Makes (c : Command (Tree D β)) (needs leaves : Tree D β → Prop) : Prop where
  succeeds : ∀ t, needs t → (c t).1 = 0
  keepsDirs : ∀ t, KeepsDirs t (c t).2
  leaves : ∀ t, needs t → leaves (c t).2

/-- A tool that finds what it needs, and leaves `R` alone. -/
theorem runs_runTool {c : Command (Tree D β)} (tool : Path D) {needs leaves R : Tree D β → Prop}
    (hc : Command.Makes c needs leaves) (hw : Command.Writes W c)
    (h : ∀ t, P t → t.has tool ∧ needs t ∧ R t) (hR : StableOff W R) :
    Script.Runs P (exec (runTool tool c)) fun t => R t ∧ leaves t := by
  refine .exec fun t ht => ?_
  obtain ⟨htool, hneeds, hrest⟩ := h t ht
  rw [runTool, if_pos htool]
  exact ⟨hc.succeeds t hneeds, hR t _ hrest (hc.keepsDirs t) (hw t), hc.leaves t hneeds⟩

variable [DecidableEq D]

theorem keepsDirs_setDir (t : Tree D β) (d : D) (l : Listing β) : KeepsDirs t (t.setDir d l) := by
  intro d' hd'
  by_cases hd : d' = d
  · subst hd
    simp [Tree.hasDir]
  · rw [Tree.hasDir, setDir_of_ne t hd]
    exact hd'

omit [DecidableEq D] in
theorem exists_of_hasDir {t : Tree D β} {d : D} (h : t.hasDir d) : ∃ l, t d = some l :=
  Option.isSome_iff_exists.mp h

theorem runs_cp {src dst : Path D} (h : ∀ t, P t → t.has src ∧ t.hasDir dst.dir)
    (hP : StableOff W P) (hdst : dst ∈ W) :
    Script.Runs P (exec (cp src dst)) fun t => P t ∧ t.has dst := by
  refine .exec fun t ht => ?_
  obtain ⟨hsrc, hdir⟩ := h t ht
  obtain ⟨contents, hcontents⟩ := Option.isSome_iff_exists.mp hsrc
  obtain ⟨l, hl⟩ := exists_of_hasDir hdir
  have hcp : cp src dst t = (0, t.setDir dst.dir (l.write dst.name contents)) := by
    rw [cp, hcontents, hl]
  have hagree : AgreesOff W t (cp src dst t).2 := writes_cp hdst t
  rw [hcp] at hagree ⊢
  refine ⟨rfl, hP t _ ht (keepsDirs_setDir _ _ _) hagree, ?_⟩
  obtain ⟨d, name⟩ := dst
  simp [Tree.has]

theorem runs_cpGlob {src dst : D} {pattern : String → Bool}
    (h : ∀ t, P t → (∃ name, pattern name ∧ t.has ⟨src, name⟩) ∧ t.hasDir dst)
    (hP : StableOff W P) (hdst : filesIn dst ⊆ W) :
    Script.Runs P (exec (cpGlob src pattern dst)) P := by
  refine .exec fun t ht => ?_
  obtain ⟨⟨name, hpattern, hname⟩, hdir⟩ := h t ht
  obtain ⟨contents, hcontents⟩ := Option.isSome_iff_exists.mp hname
  obtain ⟨l', hl'⟩ := exists_of_hasDir hdir
  have hagree : AgreesOff W t (cpGlob src pattern dst t).2 := writes_cpGlob hdst pattern t
  cases hl : t src with
  | none =>
    rw [Tree.read, hl] at hcontents
    cases hcontents
  | some l =>
    have hmatch : (l.glob pattern).read name = some contents := by
      rw [Tree.read_eq hl] at hcontents
      simpa [hpattern] using hcontents
    have hne : (l.glob pattern).isEmpty = false := by
      cases hglob : l.glob pattern with
      | nil => simp [hglob] at hmatch
      | cons e rest => rfl
    have hcp : cpGlob src pattern dst t = (0, t.setDir dst (l.glob pattern ++ l')) := by
      simp [cpGlob, hl, hl', hne]
    rw [hcp] at hagree ⊢
    exact ⟨rfl, hP t _ ht (keepsDirs_setDir _ _ _) hagree⟩

theorem runs_cpDir {src dst : D} (h : ∀ t, P t → t.hasDir src) (hP : StableOff W P)
    (hdst : filesIn dst ⊆ W) : Script.Runs P (exec (cpDir src dst)) P := by
  refine .exec fun t ht => ?_
  obtain ⟨l, hl⟩ := exists_of_hasDir (h t ht)
  have hagree : AgreesOff W t (cpDir src dst t).2 := writes_cpDir hdst t
  have hcp : cpDir src dst t = (0, t.setDir dst (l ++ (t dst).getD [])) := by
    rw [cpDir, hl]
  rw [hcp] at hagree ⊢
  exact ⟨rfl, hP t _ ht (keepsDirs_setDir _ _ _) hagree⟩

theorem runs_rmFile {p : Path D} (hP : StableOff W P) (hp : p ∈ W) :
    Script.Runs P (exec (rmFile p)) P := by
  refine .exec fun t ht => ?_
  have hagree := writes_rmFile hp t
  cases hl : t p.dir with
  | none =>
    have hrm : rmFile p t = (0, t) := by rw [rmFile, hl]
    rw [hrm]
    exact ⟨rfl, ht⟩
  | some l =>
    have hrm : rmFile p t = (0, t.setDir p.dir (l.remove p.name)) := by rw [rmFile, hl]
    rw [hrm] at hagree ⊢
    exact ⟨rfl, hP t _ ht (keepsDirs_setDir _ _ _) hagree⟩

theorem runs_append {P : Tree D (List β) → Prop} {p : Path D} (h : ∀ t, P t → t.hasDir p.dir)
    (hP : StableOff W P) (hp : p ∈ W) (data : List β) :
    Script.Runs P (exec (append p data)) P := by
  refine .exec fun t ht => ?_
  obtain ⟨l, hl⟩ := exists_of_hasDir (h t ht)
  have hagree := writes_append hp data t
  have happend : append p data t =
      (0, t.setDir p.dir (l.write p.name ((l.read p.name).getD [] ++ data))) := by
    rw [append, hl]
  rw [happend] at hagree ⊢
  exact ⟨rfl, hP t _ ht (keepsDirs_setDir _ _ _) hagree⟩

/-- A command in a directory that it succeeds in. -/
theorem runs_inDir {d : D} {f : Listing β → UInt8 × Listing β} {Q : Tree D β → Prop}
    (h : ∀ t l, P t → t d = some l → (f l).1 = 0 ∧ Q (t.setDir d (f l).2)) (status : UInt8) :
    Script.Runs (fun t => P t ∧ t.hasDir d) (execOrExit (inDir d f) status) Q := by
  rintro t ⟨ht, hdir⟩
  obtain ⟨l, hl⟩ := exists_of_hasDir hdir
  obtain ⟨hstatus, hQ⟩ := h t l ht hl
  have hin : inDir d f t = ((f l).1, t.setDir d (f l).2) := by rw [inDir, hl]
  rw [wp_execOrExit, hin, if_pos hstatus]
  exact hQ

end Shell
