-- SUMMARY: The generators and `CixBiosReplaceSubImage.py` at work on one set of files, in any order: a state without bytes that they follow, and what reaches the flash.
import Edk2NonOsi.FlashImage.Areas
import Edk2NonOsi.PackageTool.Configs
import Edk2NonOsi.Runs.Simulation

open Python FlashImage

namespace PackageTool

/-! # Workbench

A developer runs the three configuration generators and the replacement script as
often, and in whatever order, they like: each generator rewrites its own file, and
the script puts a file into the flash image. `State` is what such a history comes
to, without a byte of any file. -/

-- ---------------------------------------------------------------------------
-- The tools on files
-- ---------------------------------------------------------------------------

/-- The files the tools share: the flash image, and one file for each generator. -/
structure Workbench (Path : Type) where
  flash : Path
  file : ConfigKind → Path
  file_ne_flash : ∀ k, file k ≠ flash
  file_injective : Function.Injective file

/-- A run of a tool. -/
inductive Step (Path Ptr : Type) where
  /-- A generator writes its file. -/
  | generate (c : Config Ptr)
  /-- The script puts the file of a generator into the flash image. -/
  | update (k : ConfigKind)
  /-- The script puts another file there. -/
  | replace (subImageFile : Path) (replaceSubImageType : Int)

variable {Path Ptr : Type} [DecidableEq Path] [DecidableEq Ptr]

/-- The command line of an update in place. -/
def Workbench.args (w : Workbench Path) (subImageFile : Path) (replaceSubImageType : Int) :
    Args Path :=
  ⟨w.flash, subImageFile, w.flash, replaceSubImageType⟩

/-- The files after a run of a tool. -/
def Workbench.execute (w : Workbench Path) (files : Files Path) :
    Step Path Ptr → Except C.Fault (Files Path)
  | .generate c => do
    let file ← c.generate (files (w.file c.kind))
    return Function.update files (w.file c.kind) file
  | .update k => return (main files (w.args (w.file k) k.group.imageType)).2
  | .replace sub t => return (main files (w.args sub t)).2

/-- The files after one run after another. -/
def Workbench.run (w : Workbench Path) :
    Files Path → List (Step Path Ptr) → Except C.Fault (Files Path) :=
  Runs.run w.execute

omit [DecidableEq Path] [DecidableEq Ptr] in
/-- What the tools can be run on: any configuration their generator is meant for, and for
    the other sub-images, files that no generator writes and that fit. -/
def Workbench.Admits (w : Workbench Path) (files : Files Path) : Step Path Ptr → Prop
  | .generate c => c.Admissible
  | .update _ => True
  | .replace sub t => sub ≠ w.flash ∧ (∀ k, sub ≠ w.file k) ∧ kindOf? t = none ∧
      ∀ image, files sub = some image → FitsType t image

-- ---------------------------------------------------------------------------
-- What a history comes to
-- ---------------------------------------------------------------------------

/-- The configuration in the file of each generator, and what was put into the flash image, one
    after another: configurations, and other sub-images. -/
@[ext]
structure State (Ptr : Type) where
  staged : ConfigKind → Option (Config Ptr)
  placed : ConfigKind → List (Config Ptr)
  replaced : Int → List Bytes

namespace State

/-- No generator has run, and the flash image is as it was. -/
def initial : State Ptr where
  staged _ := none
  placed _ := []
  replaced _ := []

def stage (s : State Ptr) (c : Config Ptr) : State Ptr :=
  { s with staged := Function.update s.staged c.kind (some c) }

def place (s : State Ptr) (k : ConfigKind) (c : Config Ptr) : State Ptr :=
  { s with placed := Function.update s.placed k (s.placed k ++ [c]) }

def put (s : State Ptr) (t : Int) (image : Bytes) : State Ptr :=
  { s with replaced := pushed s.replaced t image }

open Classical in
/-- A generator that accepts its configuration makes it the staged one, and an update places
    the staged one. -/
noncomputable def next (files : Files Path) (s : State Ptr) : Step Path Ptr → State Ptr
  | .generate c => if c.Valid then s.stage c else s
  | .update k =>
    match s.staged k with
    | none => s
    | some c => s.place k c
  | .replace sub t =>
    match files sub with
    | none => s
    | some image => s.put t image

/-- The images that each type was given, one after another. -/
def images (s : State Ptr) (t : Int) : List Bytes :=
  match kindOf? t with
  | some k => (s.placed k).map Config.image
  | none => s.replaced t

/-- Only configurations that are valid and of the right kind are staged or placed. -/
structure Sound (s : State Ptr) : Prop where
  staged : ∀ k c, s.staged k = some c → c.kind = k ∧ c.Admissible ∧ c.Valid
  placed : ∀ k, ∀ c ∈ s.placed k, c.kind = k ∧ c.Admissible ∧ c.Valid

end State

section

omit [DecidableEq Path] [DecidableEq Ptr]

variable {s : State Ptr} {files : Files Path}

theorem cases_of_update {K V : Type} [DecidableEq K] {m : K → Option V} {k k' : K} {v v' : V}
    (h : Function.update m k (some v) k' = some v') : k' = k ∧ v' = v ∨ m k' = some v' := by
  by_cases hk : k' = k
  · subst hk
    rw [Function.update_self] at h
    exact Or.inl ⟨rfl, (Option.some.inj h).symm⟩
  · rw [Function.update_of_ne hk] at h
    exact Or.inr h

@[simp] theorem State.stage_staged (s : State Ptr) (c : Config Ptr) :
    (s.stage c).staged c.kind = some c :=
  Function.update_self ..

@[simp] theorem State.place_placed (s : State Ptr) (k : ConfigKind) (c : Config Ptr) :
    (s.place k c).placed k = s.placed k ++ [c] :=
  Function.update_self ..

theorem State.mem_place_placed {k k' : ConfigKind} {c c' : Config Ptr}
    (h : c' ∈ (s.place k c).placed k') : k' = k ∧ c' = c ∨ c' ∈ s.placed k' := by
  by_cases hk : k' = k
  · subst hk
    rw [State.place_placed, List.mem_append, List.mem_singleton] at h
    exact h.symm.imp_left fun hc => ⟨rfl, hc⟩
  · have hsame : (s.place k c).placed k' = s.placed k' := Function.update_of_ne hk _ _
    rw [hsame] at h
    exact Or.inr h

@[simp] theorem State.put_replaced (s : State Ptr) (t : Int) (image : Bytes) :
    (s.put t image).replaced t = s.replaced t ++ [image] :=
  Function.update_self ..

theorem State.next_generate_valid {c : Config Ptr} (hv : c.Valid) :
    s.next files (.generate c) = s.stage c :=
  if_pos hv

theorem State.next_generate_invalid {c : Config Ptr} (hv : ¬ c.Valid) :
    s.next files (.generate c) = s :=
  if_neg hv

theorem State.next_update_none {k : ConfigKind} (hk : s.staged k = none) :
    s.next files (.update k) = s := by
  rw [State.next, hk]

theorem State.next_update_some {k : ConfigKind} {c : Config Ptr} (hk : s.staged k = some c) :
    s.next files (.update k) = s.place k c := by
  rw [State.next, hk]

theorem State.next_replace_none {sub : Path} {t : Int} (hsub : files sub = none) :
    s.next files (.replace sub t) = s := by
  rw [State.next, hsub]

theorem State.next_replace_some {sub : Path} {t : Int} {image : Bytes}
    (hsub : files sub = some image) : s.next files (.replace sub t) = s.put t image := by
  rw [State.next, hsub]

/-! ## Soundness -/

theorem State.sound_initial : (State.initial : State Ptr).Sound where
  staged _ _ h := nomatch h
  placed _ _ h := absurd h List.not_mem_nil

theorem State.Sound.stage (hs : s.Sound) {c : Config Ptr} (ha : c.Admissible) (hv : c.Valid) :
    (s.stage c).Sound where
  staged k c' h := by
    obtain ⟨rfl, rfl⟩ | hold := cases_of_update h
    · exact ⟨rfl, ha, hv⟩
    · exact hs.staged k c' hold
  placed := hs.placed

theorem State.Sound.place (hs : s.Sound) {k : ConfigKind} {c : Config Ptr}
    (hstaged : s.staged k = some c) : (s.place k c).Sound where
  staged := hs.staged
  placed k' c' h := by
    obtain ⟨rfl, rfl⟩ | hold := State.mem_place_placed h
    · exact hs.staged k' c' hstaged
    · exact hs.placed k' c' hold

theorem State.Sound.put (hs : s.Sound) (t : Int) (image : Bytes) : (s.put t image).Sound :=
  ⟨hs.staged, hs.placed⟩

end

section

omit [DecidableEq Path]

variable {s : State Ptr}

/-! ## Sub-images -/

theorem State.images_group (s : State Ptr) (k : ConfigKind) :
    s.images k.group.imageType = (s.placed k).map Config.image := by
  rw [State.images, kindOf?_group]

theorem State.images_place (s : State Ptr) (k : ConfigKind) (c : Config Ptr) :
    (s.place k c).images = pushed s.images k.group.imageType c.image := by
  funext t
  by_cases ht : t = k.group.imageType
  · subst ht
    rw [State.images_group, pushed_self, State.images_group, State.place_placed, List.map_append]
    rfl
  · rw [pushed_of_ne ht, State.images, State.images]
    split
    next k' hk' =>
      have hne : k' ≠ k := by
        rintro rfl
        exact ht (kindOf?_eq_some_iff.mp hk')
      have hplaced : (s.place k c).placed k' = s.placed k' := Function.update_of_ne hne _ _
      rw [hplaced]
    next => rfl

theorem State.images_put (s : State Ptr) {t : Int} (ht : kindOf? t = none) (image : Bytes) :
    (s.put t image).images = pushed s.images t image := by
  funext t'
  by_cases hsame : t' = t
  · subst hsame
    rw [pushed_self, State.images, State.images, ht]
    exact s.put_replaced t' image
  · rw [pushed_of_ne hsame, State.images, State.images]
    split
    next => rfl
    next => exact pushed_of_ne hsame _ _

omit [DecidableEq Ptr] in
theorem ConfigKind.fitsType (k : ConfigKind) {image : Bytes} (h : image.length ≤ k.group.size) :
    FitsType k.group.imageType image := by
  constructor
  · intro g hg htype
    rw [k.eq_group hg htype]
    exact h
  · intro hzero
    exact (k.group_imageType_ne_zero hzero).elim

/-- What is staged fits the slot of its kind. -/
theorem State.Sound.fitsType_staged (hs : s.Sound) {k : ConfigKind} {c : Config Ptr}
    (hc : s.staged k = some c) : FitsType k.group.imageType c.image := by
  obtain ⟨rfl, ha, hv⟩ := hs.staged k c hc
  exact c.kind.fitsType (Config.length_image_le ha hv)

end

-- ---------------------------------------------------------------------------
-- The tools follow the state
-- ---------------------------------------------------------------------------

/-- `now` are the files `files` after a history that comes to `s`, where the flash image was
    `base`. -/
structure Workbench.Represents (w : Workbench Path) (files : Files Path) (base : Bytes)
    (now : Files Path) (s : State Ptr) : Prop where
  sound : s.Sound
  flash : ∃ out, now w.flash = some out ∧ Carries base s.images out
  staged : ∀ k, now (w.file k) = (s.staged k).map Config.image
  rest : ∀ p, p ≠ w.flash → (∀ k, p ≠ w.file k) → now p = files p

namespace Workbench

variable {w : Workbench Path} {files now : Files Path} {base : Bytes} {s : State Ptr}

omit [DecidableEq Path] in
/-- The files before any tool has run. -/
theorem represents_initial (hflash : files w.flash = some base) (hp : Packaged base)
    (hfresh : ∀ k, files (w.file k) = none) :
    w.Represents files base files (State.initial : State Ptr) where
  sound := State.sound_initial
  flash := by
    refine ⟨base, hflash, ?_⟩
    have hnone : (State.initial : State Ptr).images = fun _ => [] := by
      funext t
      rw [State.images]
      split
      next => rfl
      next => rfl
    rw [hnone]
    exact .self hp
  staged := hfresh
  rest _ _ _ := rfl

/-- The script puts the contents of a file, if it is there, with the other sub-images. -/
theorem Represents.main (hp : Packaged base) (h : w.Represents files base now s) {sub : Path}
    {t : Int} (hsub : sub ≠ w.flash) (hfit : ∀ image, now sub = some image → FitsType t image) :
    ∃ out, (FlashImage.main now (w.args sub t)).2 = Function.update now w.flash (some out) ∧
      Carries base (pushedFile now s.images (w.args sub t)) out := by
  obtain ⟨xs, hflash, hcarries⟩ := h.flash
  have hnow : Function.update now w.flash (some xs) = now := by
    rw [← hflash, Function.update_eq_self]
  have hu : PackagedUpdate now w.flash (w.args sub t) := ⟨rfl, rfl, hsub, hfit⟩
  obtain ⟨out, hrun, hout⟩ := hcarries.main hp hu
  rw [hnow] at hrun
  exact ⟨out, by rw [hrun], hout⟩

/-- A new flash image, and the same files otherwise. -/
theorem Represents.reflash (h : w.Represents files base now s) {s' : State Ptr} (hs : s'.Sound)
    (hstaged : s'.staged = s.staged) {out : Bytes} (hout : Carries base s'.images out) :
    w.Represents files base (Function.update now w.flash (some out)) s' where
  sound := hs
  flash := ⟨out, Function.update_self .., hout⟩
  staged k := by
    rw [Function.update_of_ne (w.file_ne_flash k), hstaged]
    exact h.staged k
  rest p hflash hfile := by
    rw [Function.update_of_ne hflash]
    exact h.rest p hflash hfile

theorem Represents.generate (h : w.Represents files base now s) {c : Config Ptr}
    (ha : c.Admissible) (hv : c.Valid) :
    w.Represents files base (Function.update now (w.file c.kind) (some c.image)) (s.stage c) where
  sound := h.sound.stage ha hv
  flash := by
    obtain ⟨out, hflash, hcarries⟩ := h.flash
    refine ⟨out, ?_, hcarries⟩
    rw [Function.update_of_ne (w.file_ne_flash c.kind).symm]
    exact hflash
  staged k := by
    by_cases hk : k = c.kind
    · subst hk
      rw [Function.update_self, State.stage_staged]
      rfl
    · have hstaged : (s.stage c).staged k = s.staged k := Function.update_of_ne hk _ _
      rw [Function.update_of_ne (fun hf => hk (w.file_injective hf)), hstaged]
      exact h.staged k
  rest p hflash hfile := by
    rw [Function.update_of_ne (hfile c.kind)]
    exact h.rest p hflash hfile

/-- A run of a generator. -/
theorem Represents.execute_generate (h : w.Represents files base now s) {c : Config Ptr}
    (ha : c.Admissible) :
    ∃ now', w.execute now (.generate c) = .ok now' ∧
      w.Represents files base now' (s.next files (.generate c)) := by
  by_cases hv : c.Valid
  · refine ⟨Function.update now (w.file c.kind) (some c.image), ?_, ?_⟩
    · rw [execute, Config.generate_valid ha hv]
      rfl
    · rw [State.next_generate_valid hv]
      exact h.generate ha hv
  · refine ⟨now, ?_, ?_⟩
    · rw [execute, Config.generate_invalid ha hv]
      show Except.ok (Function.update now _ (now _)) = _
      rw [Function.update_eq_self]
    · rw [State.next_generate_invalid hv]
      exact h

/-- An update with the file of a generator. -/
theorem Represents.execute_update (hp : Packaged base) (h : w.Represents files base now s)
    (k : ConfigKind) :
    ∃ now', w.execute now (.update k : Step Path Ptr) = .ok now' ∧
      w.Represents files base now' (s.next files (.update k)) := by
  have hstaged := h.staged k
  have hfit : ∀ image, now (w.file k) = some image → FitsType k.group.imageType image := by
    intro image himage
    rw [hstaged] at himage
    obtain ⟨c, hc, rfl⟩ := Option.map_eq_some_iff.mp himage
    exact h.sound.fitsType_staged hc
  obtain ⟨out, hrun, hout⟩ := h.main hp (w.file_ne_flash k) hfit
  refine ⟨_, congrArg Except.ok hrun, ?_⟩
  cases hc : s.staged k with
  | none =>
    rw [hc] at hstaged
    rw [pushedFile_none hstaged] at hout
    rw [State.next_update_none hc]
    exact h.reflash h.sound rfl hout
  | some c =>
    rw [hc] at hstaged
    rw [pushedFile_some hstaged] at hout
    rw [State.next_update_some hc]
    refine h.reflash (h.sound.place hc) rfl ?_
    rw [State.images_place]
    exact hout

/-- An update with another file. -/
theorem Represents.execute_replace (hp : Packaged base) (h : w.Represents files base now s)
    {sub : Path} {t : Int} (hadmits : w.Admits files (.replace sub t : Step Path Ptr)) :
    ∃ now', w.execute now (.replace sub t : Step Path Ptr) = .ok now' ∧
      w.Represents files base now' (s.next files (.replace sub t)) := by
  obtain ⟨hflash, hfile, htype, hfit⟩ := hadmits
  have hsame := h.rest sub hflash hfile
  rw [← hsame] at hfit
  obtain ⟨out, hrun, hout⟩ := h.main hp hflash hfit
  refine ⟨_, congrArg Except.ok hrun, ?_⟩
  cases hsub : files sub with
  | none =>
    rw [pushedFile_none (hsame.trans hsub)] at hout
    rw [State.next_replace_none hsub]
    exact h.reflash h.sound rfl hout
  | some image =>
    rw [pushedFile_some (hsame.trans hsub)] at hout
    rw [State.next_replace_some hsub]
    refine h.reflash (h.sound.put t image) rfl ?_
    rw [State.images_put s htype]
    exact hout

/-- **One run of a tool.** -/
theorem simulates (w : Workbench Path) (files : Files Path) (hp : Packaged base) :
    Runs.Simulates w.execute (State.next files : State Ptr → Step Path Ptr → State Ptr)
      (w.Admits files) (w.Represents files base) := by
  intro now s step h hstep
  cases step with
  | generate c => exact h.execute_generate hstep
  | update k => exact h.execute_update hp k
  | replace sub t => exact h.execute_replace hp hstep

omit [DecidableEq Path] in
/-- A state describes the files completely. -/
theorem Represents.unique {now' : Files Path} (h : w.Represents files base now s)
    (h' : w.Represents files base now' s) : now = now' := by
  funext p
  by_cases hflash : p = w.flash
  · subst hflash
    obtain ⟨out, hout, hcarries⟩ := h.flash
    obtain ⟨out', hout', hcarries'⟩ := h'.flash
    rw [hout, hout', hcarries.unique hcarries']
  · by_cases hfile : ∀ k, p ≠ w.file k
    · rw [h.rest p hflash hfile, h'.rest p hflash hfile]
    · rw [not_forall] at hfile
      obtain ⟨k, hk⟩ := hfile
      obtain rfl := not_not.mp hk
      rw [h.staged k, h'.staged k]

/-- A history, from a fresh flash image. -/
theorem run_represents (w : Workbench Path) (hflash : files w.flash = some base)
    (hp : Packaged base) (hfresh : ∀ k, files (w.file k) = none) {steps : List (Step Path Ptr)}
    (hsteps : ∀ step ∈ steps, w.Admits files step) :
    ∃ now, w.run files steps = .ok now ∧
      w.Represents files base now (steps.foldl (State.next files) State.initial) :=
  (simulates w files hp).run (represents_initial hflash hp hfresh) hsteps

end Workbench

-- ---------------------------------------------------------------------------
-- What reaches the flash
-- ---------------------------------------------------------------------------

omit [DecidableEq Path] in
/-- The flash image of a state: a packaged one, where each area holds what the configurations
    that were placed leave there, and the last one reads back. -/
theorem Workbench.Represents.slots {w : Workbench Path} {files now : Files Path} {base : Bytes}
    {s : State Ptr} (h : w.Represents files base now s) :
    ∃ out, now w.flash = some out ∧ Packaged out ∧
      (∀ (k : ConfigKind) (j : Nat), tableGroups[j]? = some k.group → areaAt out j k.group =
        ((s.placed k).map Config.image).foldl Area.put (areaAt base j k.group)) ∧
      ∀ k c, (s.placed k).getLast? = some c → c.kind = k ∧ c.Valid ∧
        Span.read out k.group.address c.image.length = c.image ∧
        c.ReadsBack (Span.read out k.group.address k.group.size) := by
  obtain ⟨out, hout, hcarries⟩ := h.flash
  refine ⟨out, hout, hcarries.packaged, ?_, ?_⟩
  · intro k j hg
    rw [hcarries.area j k.group hg, State.images_group]
  · intro k c hc
    obtain ⟨hkind, ha, hv⟩ := h.sound.placed k c (List.mem_of_getLast? hc)
    obtain ⟨j, hg⟩ := List.mem_iff_getElem?.mp (mem_tableGroups.mpr k.group_mem)
    have hlast : (s.images k.group.imageType).getLast? = some c.image := by
      rw [State.images_group, List.getLast?_map, hc, Option.map_some]
    obtain ⟨-, rest, hrest⟩ := hcarries.front hg hlast
    have hfit : c.image.length ≤ k.group.size := by
      rw [← hkind]
      exact Config.length_image_le ha hv
    have hfront := @Span.read_read _ out k.group.address k.group.size 0 c.image.length (by omega)
    refine ⟨hkind, hv, ?_, ?_⟩
    · rw [Nat.add_zero, hrest, Span.read_zero, List.take_left] at hfront
      exact hfront.symm
    · rw [hrest]
      exact Config.readsBack_image ha hv rest

/-- What a history comes to. -/
noncomputable def State.after (files : Files Path) (steps : List (Step Path Ptr)) : State Ptr :=
  steps.foldl (State.next files) State.initial

/-- What is staged or placed comes from the runs of generators among these. -/
def State.GeneratedIn (s : State Ptr) (steps : List (Step Path Ptr)) : Prop :=
  ∀ k c, s.staged k = some c ∨ c ∈ s.placed k → Step.generate c ∈ steps

section

omit [DecidableEq Path] [DecidableEq Ptr]

variable {files : Files Path} {steps : List (Step Path Ptr)} {s : State Ptr}

theorem State.generatedIn_initial : (State.initial : State Ptr).GeneratedIn steps := by
  intro k c hc
  obtain hc | hc := hc
  · cases hc
  · exact absurd hc List.not_mem_nil

theorem State.GeneratedIn.next (h : s.GeneratedIn steps) {step : Step Path Ptr}
    (hstep : step ∈ steps) : (s.next files step).GeneratedIn steps := by
  intro k c hc
  cases step with
  | generate c' =>
    by_cases hv : c'.Valid
    · rw [State.next_generate_valid hv] at hc
      obtain hstaged | hplaced := hc
      · obtain ⟨rfl, rfl⟩ | hold := cases_of_update hstaged
        · exact hstep
        · exact h k c (Or.inl hold)
      · exact h k c (Or.inr hplaced)
    · rw [State.next_generate_invalid hv] at hc
      exact h k c hc
  | update k' =>
    cases hk : s.staged k' with
    | none =>
      rw [State.next_update_none hk] at hc
      exact h k c hc
    | some c' =>
      rw [State.next_update_some hk] at hc
      obtain hstaged | hplaced := hc
      · exact h k c (Or.inl hstaged)
      · obtain ⟨rfl, rfl⟩ | hold := State.mem_place_placed hplaced
        · exact h k c (Or.inl hk)
        · exact h k c (Or.inr hold)
  | replace sub t =>
    cases hsub : files sub with
    | none =>
      rw [State.next_replace_none hsub] at hc
      exact h k c hc
    | some image =>
      rw [State.next_replace_some hsub] at hc
      exact h k c hc

/-- Only what a generator was run on is staged or placed. -/
theorem State.generatedIn_after : (State.after files steps).GeneratedIn steps := by
  have hnext : ∀ s : State Ptr, s.GeneratedIn steps → ∀ step ∈ steps,
      (s.next files step).GeneratedIn steps := fun _ h _ hstep => h.next hstep
  exact List.foldlRecOn (motive := fun s : State Ptr => s.GeneratedIn steps) steps _
    State.generatedIn_initial hnext

end

/-- **What reaches the flash.** The generators are run on any configurations they are meant
    for, valid or not, and the script on their files and on others that fit, in any order; the
    library calls of the generators succeed, and none of their files is there at first. Then no
    run faults, and the flash image stays a packaged one. The area of each configuration holds
    what those placed leave there, one after another: the last one in front, as it was in the
    file of its generator at the last update. The generator was run on it and accepted it, and
    it reads back from the area. The files of others are not touched. -/
theorem run_places_configs (w : Workbench Path) {files : Files Path} {base : Bytes}
    (hflash : files w.flash = some base) (hp : Packaged base)
    (hfresh : ∀ k, files (w.file k) = none) {steps : List (Step Path Ptr)}
    (hsteps : ∀ step ∈ steps, w.Admits files step) :
    ∃ now out, w.run files steps = .ok now ∧ now w.flash = some out ∧ Packaged out ∧
      (∀ k, now (w.file k) = ((State.after files steps).staged k).map Config.image) ∧
      (∀ (k : ConfigKind) (j : Nat), tableGroups[j]? = some k.group → areaAt out j k.group =
        (((State.after files steps).placed k).map Config.image).foldl Area.put
          (areaAt base j k.group)) ∧
      (∀ k c, ((State.after files steps).placed k).getLast? = some c →
        Step.generate c ∈ steps ∧ c.kind = k ∧ c.Valid ∧
          Span.read out k.group.address c.image.length = c.image ∧
          c.ReadsBack (Span.read out k.group.address k.group.size)) ∧
      ∀ p, p ≠ w.flash → (∀ k, p ≠ w.file k) → now p = files p := by
  obtain ⟨now, hrun, h⟩ := w.run_represents hflash hp hfresh hsteps
  obtain ⟨out, hout, hpackaged, hslot, hplaced⟩ := h.slots
  refine ⟨now, out, hrun, hout, hpackaged, h.staged, hslot, ?_, h.rest⟩
  intro k c hc
  exact ⟨State.generatedIn_after k c (Or.inr (List.mem_of_getLast? hc)), hplaced k c hc⟩

-- ---------------------------------------------------------------------------
-- A packaged flash image
-- ---------------------------------------------------------------------------

/-- The files by name, as the generators call theirs. -/
def namedFiles : Workbench String where
  flash := "flash.bin"
  file
    | .memory => "memory_config.bin"
    | .csuPm => "csu_pm_config.bin"
    | .trustzone => "trustzone_config.bin"
  file_ne_flash k := by
    cases k with
    | memory => decide
    | csuPm => decide
    | trustzone => decide
  file_injective := by
    intro k k' h
    cases k with
    | memory => cases k' with
      | memory => rfl
      | csuPm => exact absurd h (by decide)
      | trustzone => exact absurd h (by decide)
    | csuPm => cases k' with
      | memory => exact absurd h (by decide)
      | csuPm => rfl
      | trustzone => exact absurd h (by decide)
    | trustzone => cases k' with
      | memory => exact absurd h (by decide)
      | csuPm => exact absurd h (by decide)
      | trustzone => rfl

/-- Nothing but a packaged flash image. -/
def freshFiles : Files String := fun path =>
  if path = "flash.bin" then some sampleTarget else none

theorem freshFiles_file (k : ConfigKind) : freshFiles (namedFiles.file k) = none :=
  if_neg (namedFiles.file_ne_flash k)

/-- Two configurations that their generators accept. -/
def samplePm : Config Unit := .csuPm PmConfig.sampleConfig 0

def sampleTrustzone : Config Unit := .trustzone (some TrustZone.trustzoneConfig) 0

theorem samplePm_valid : samplePm.Valid :=
  (PmConfig.accepted_iff PmConfig.domainsPresent_sampleConfig).mp PmConfig.accepted_sampleConfig

theorem samplePm_admitted (files : Files String) :
    namedFiles.Admits files (.generate samplePm) :=
  PmConfig.domainsPresent_sampleConfig

theorem run_places_configs_fresh :
    ∃ now out, namedFiles.run freshFiles [.generate samplePm, .update .csuPm] = .ok now ∧
      now "flash.bin" = some out ∧
      PmConfig.ReadsBack PmConfig.sampleConfig 0 (Span.read out 0x404000 0x1000) := by
  have hsteps : ∀ step ∈ [.generate samplePm, .update .csuPm],
      namedFiles.Admits freshFiles step := by
    simp only [List.forall_mem_cons]
    exact ⟨samplePm_admitted freshFiles, trivial, fun _ h => absurd h List.not_mem_nil⟩
  obtain ⟨now, out, hrun, hout, -, -, -, hplaced, -⟩ :=
    run_places_configs namedFiles rfl packaged_sampleTarget freshFiles_file hsteps
  refine ⟨now, out, hrun, hout, (hplaced .csuPm samplePm ?_).2.2.2.2⟩
  show (((State.initial.next freshFiles (.generate samplePm)).next freshFiles
    (.update .csuPm)).placed .csuPm).getLast? = some samplePm
  have hstaged : (State.initial.stage samplePm).staged .csuPm = some samplePm :=
    State.initial.stage_staged samplePm
  rw [State.next_generate_valid samplePm_valid, State.next_update_some hstaged]
  rw [State.place_placed]
  rfl

end PackageTool
