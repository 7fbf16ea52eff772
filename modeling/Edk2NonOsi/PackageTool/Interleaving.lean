-- SUMMARY: Histories of tool runs that differ in their interleaving only: the runs for one image type do not see those for another.
import Edk2NonOsi.PackageTool.Workbench

open Python FlashImage

namespace PackageTool

variable {Path Ptr : Type} [DecidableEq Path] [DecidableEq Ptr]

-- ---------------------------------------------------------------------------
-- Which orders are alike
-- ---------------------------------------------------------------------------

section Tracks

omit [DecidableEq Path] [DecidableEq Ptr]

variable {s s' : State Ptr}

/-- The image type a step is about. -/
def Step.imageType : Step Path Ptr → Int
  | .generate c => c.kind.group.imageType
  | .update k => k.group.imageType
  | .replace _ t => t

/-- What a state says about an image type. -/
def State.view (t : Int) (s : State Ptr) :
    Option (Option (Config Ptr) × List (Config Ptr)) × List Bytes :=
  ((kindOf? t).map fun k => (s.staged k, s.placed k), s.replaced t)

theorem State.view_group (k : ConfigKind) (s : State Ptr) :
    s.view k.group.imageType = (some (s.staged k, s.placed k), s.replaced k.group.imageType) := by
  rw [State.view, kindOf?_group]
  rfl

/-- Two states look alike at a type when they agree on its kind and its other images. -/
theorem State.view_eq {t : Int} (hkind : ∀ k : ConfigKind, t = k.group.imageType →
    s.staged k = s'.staged k ∧ s.placed k = s'.placed k) (hreplaced : s.replaced t = s'.replaced t) :
    s.view t = s'.view t := by
  rw [State.view, State.view, hreplaced]
  cases hk : kindOf? t with
  | none => rfl
  | some k =>
    obtain ⟨hstaged, hplaced⟩ := hkind k (kindOf?_eq_some_iff.mp hk)
    rw [Option.map_some, Option.map_some, hstaged, hplaced]

theorem State.ext_view (h : ∀ t, s.view t = s'.view t) : s = s' := by
  have hkind (k : ConfigKind) := h k.group.imageType
  simp only [State.view_group, Prod.mk.injEq, Option.some.injEq] at hkind
  apply State.ext
  · funext k
    exact (hkind k).1.1
  · funext k
    exact (hkind k).1.2
  · funext t
    exact congrArg Prod.snd (h t)

theorem State.view_stage {t : Int} {c : Config Ptr} (ht : t ≠ c.kind.group.imageType) :
    (s.stage c).view t = s.view t := by
  refine State.view_eq (fun k hk => ⟨Function.update_of_ne ?_ _ _, rfl⟩) rfl
  rintro rfl
  exact ht hk

theorem State.view_place {t : Int} {k : ConfigKind} (ht : t ≠ k.group.imageType)
    (c : Config Ptr) : (s.place k c).view t = s.view t := by
  refine State.view_eq (fun k' hk' => ⟨rfl, Function.update_of_ne ?_ _ _⟩) rfl
  rintro rfl
  exact ht hk'

theorem State.view_put {t t' : Int} (ht : t' ≠ t) (image : Bytes) :
    (s.put t image).view t' = s.view t' :=
  State.view_eq (fun _ _ => ⟨rfl, rfl⟩) (pushed_of_ne ht _ _)

theorem State.view_next_own (files : Files Path) (step : Step Path Ptr)
    (h : s.view step.imageType = s'.view step.imageType) :
    (s.next files step).view step.imageType = (s'.next files step).view step.imageType := by
  cases step with
  | generate c =>
    simp only [Step.imageType] at h ⊢
    by_cases hv : c.Valid
    · simp only [State.view_group, Prod.mk.injEq, Option.some.injEq] at h
      obtain ⟨⟨-, hplaced⟩, hreplaced⟩ := h
      rw [State.next_generate_valid hv, State.next_generate_valid hv, State.view_group,
        State.view_group, State.stage_staged, State.stage_staged]
      simp only [State.stage, hplaced, hreplaced]
    · rw [State.next_generate_invalid hv, State.next_generate_invalid hv]
      exact h
  | update k =>
    simp only [Step.imageType] at h ⊢
    have hview := h
    simp only [State.view_group, Prod.mk.injEq, Option.some.injEq] at hview
    obtain ⟨⟨hstaged, hplaced⟩, hreplaced⟩ := hview
    cases hk : s.staged k with
    | none =>
      rw [State.next_update_none hk, State.next_update_none (hstaged.symm.trans hk)]
      exact h
    | some c =>
      rw [State.next_update_some hk, State.next_update_some (hstaged.symm.trans hk),
        State.view_group, State.view_group, State.place_placed, State.place_placed]
      simp only [State.place, hstaged, hplaced, hreplaced]
  | replace sub t =>
    simp only [Step.imageType] at h ⊢
    cases hsub : files sub with
    | none =>
      rw [State.next_replace_none hsub, State.next_replace_none hsub]
      exact h
    | some image =>
      simp only [State.view, Prod.mk.injEq] at h
      obtain ⟨hkind, hreplaced⟩ := h
      rw [State.next_replace_some hsub, State.next_replace_some hsub, State.view, State.view,
        State.put_replaced, State.put_replaced, hreplaced]
      exact congrArg (fun v => (v, _)) hkind

theorem State.view_next_other (files : Files Path) (s : State Ptr) (step : Step Path Ptr) {t : Int}
    (ht : t ≠ step.imageType) : (s.next files step).view t = s.view t := by
  cases step with
  | generate c =>
    by_cases hv : c.Valid
    · rw [State.next_generate_valid hv, State.view_stage ht]
    · rw [State.next_generate_invalid hv]
  | update k =>
    cases hk : s.staged k with
    | none => rw [State.next_update_none hk]
    | some c => rw [State.next_update_some hk, State.view_place ht]
  | replace sub t' =>
    cases hsub : files sub with
    | none => rw [State.next_replace_none hsub]
    | some image =>
      rw [State.next_replace_some hsub]
      exact State.view_put ht image

/-- Each image type is a track of its own. -/
noncomputable def tracks (files : Files Path) :
    Runs.Tracks (State Ptr) (Step Path Ptr) Int
      fun _ => Option (Option (Config Ptr) × List (Config Ptr)) × List Bytes where
  next := State.next files
  key := Step.imageType
  view := State.view
  own _ _ step h := State.view_next_own files step h
  other s step _ ht := State.view_next_other files s step ht

end Tracks

/-- **Only the order on each image type matters.** Two histories with the same runs for every
    image type, in the same order there, leave the same files, byte for byte, however the runs
    for different types are interleaved. -/
theorem run_eq_of_tracks (w : Workbench Path) {files : Files Path} {base : Bytes}
    (hflash : files w.flash = some base) (hp : Packaged base)
    (hfresh : ∀ k, files (w.file k) = none) {steps steps' : List (Step Path Ptr)}
    (hsteps : ∀ step ∈ steps, w.Admits files step) (hsteps' : ∀ step ∈ steps', w.Admits files step)
    (hsame : ∀ t, (steps.filter fun step => step.imageType = t) =
      steps'.filter fun step => step.imageType = t) :
    w.run files steps = w.run files steps' := by
  obtain ⟨now, hrun, h⟩ := w.run_represents hflash hp hfresh hsteps
  obtain ⟨now', hrun', h'⟩ := w.run_represents hflash hp hfresh hsteps'
  have hstate : steps.foldl (State.next files) State.initial =
      steps'.foldl (State.next files) State.initial :=
    State.ext_view fun t => (tracks files).view_foldl_eq hsame t State.initial
  rw [← hstate] at h'
  rw [hrun, hrun', h.unique h']

/-- Two configurations, generated and placed one after the other, or side by side. -/
theorem run_eq_of_tracks_fresh :
    namedFiles.run freshFiles [.generate samplePm, .update .csuPm, .generate sampleTrustzone,
        .update .trustzone] =
      namedFiles.run freshFiles [.generate sampleTrustzone, .generate samplePm, .update .trustzone,
        .update .csuPm] := by
  have hpm := samplePm_admitted freshFiles
  apply run_eq_of_tracks namedFiles rfl packaged_sampleTarget freshFiles_file
  · simp only [List.forall_mem_cons]
    exact ⟨hpm, trivial, trivial, trivial, fun _ h => absurd h List.not_mem_nil⟩
  · simp only [List.forall_mem_cons]
    exact ⟨trivial, hpm, trivial, trivial, fun _ h => absurd h List.not_mem_nil⟩
  · intro t
    by_cases hpm : (4 : Int) = t
    · subst hpm
      rfl
    · by_cases htz : (9 : Int) = t
      · subst htz
        rfl
      · simp [Step.imageType, samplePm, sampleTrustzone, Config.kind, ConfigKind.group, hpm, htz]

end PackageTool
