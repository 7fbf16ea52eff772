-- SUMMARY: `main` of `CixBiosReplaceSubImage.py`, and whole sessions of it on one flash file: the last image of each type wins, and nothing else changes.
import Edk2NonOsi.FlashImage.Store

open Python

namespace FlashImage

variable {Path : Type} [DecidableEq Path]

-- ---------------------------------------------------------------------------
-- The program
-- ---------------------------------------------------------------------------

/-- What `argparse` hands to `main`. -/
structure Args (Path : Type) where
  inputFile : Path
  subImageFile : Path
  outPutFile : Path
  replaceSubImageType : Int

/-- What `main` prints: the `SUCCESS` line, or the `ERROR` line with the exception. -/
inductive Report where
  | success
  | error (e : Error)
deriving DecidableEq

/-- `main`: every exception of `replace_image` is caught and printed. -/
def main (files : Files Path) (args : Args Path) : Report × Files Path :=
  match replaceImage files args.inputFile args.subImageFile args.replaceSubImageType
      args.outPutFile with
  | (.ok (), files) => (.success, files)
  | (.error e, files) => (.error e, files)

/-- The tool called once for each element of a list, whatever the calls before printed. -/
def session (files : Files Path) : List (Args Path) → List Report × Files Path
  | [] => ([], files)
  | args :: rest =>
    let (report, files) := main files args
    let (reports, files) := session files rest
    (report :: reports, files)

-- ---------------------------------------------------------------------------
-- What a session is for
-- ---------------------------------------------------------------------------

/-- A call that updates `flash` in place with an image, if there is one, that fits the slot
    its type has in `data`. -/
structure Update (files : Files Path) (flash : Path) (data : Bytes) (h : Nat)
    (args : Args Path) : Prop where
  inputFile : args.inputFile = flash
  outPutFile : args.outPutFile = flash
  subImageFile : args.subImageFile ≠ flash
  fits : ∀ image i r, files args.subImageFile = some image →
    IsTarget data args.replaceSubImageType h i r → image.length ≤ r.size

/-- The images after a call: its type is given the contents of its file. -/
def given (files : Files Path) (m : Int → Option Bytes) (args : Args Path) :
    Int → Option Bytes :=
  match files args.subImageFile with
  | none => m
  | some image => Function.update m args.replaceSubImageType (some image)

/-- The last image a list of calls gives to each type. -/
def lastImages (files : Files Path) (calls : List (Args Path)) : Int → Option Bytes :=
  calls.foldl (given files) fun _ => none

/-- Record `j`, `r`, after a session: the first record of a type has the length of the last
    image of the type as its `Size`. -/
def updatedRecord (data : Bytes) (h : Nat) (m : Int → Option Bytes) (j : Nat) (r : Record) :
    Record :=
  if targetIndex? data h r.imageType = some j then
    match m r.imageType with
    | none => r
    | some image => resized r.imageType r image.length
  else r

/-- The table after a session. -/
def updatedTable (data : Bytes) (h : Nat) (m : Int → Option Bytes) : Table :=
  { tableAt data h with records := (recordsAt data h).mapIdx (updatedRecord data h m) }

/-- What a call prints on a file with the targets of `data`. -/
def expectedReport (files : Files Path) (data : Bytes) (h : Nat) (args : Args Path) : Report :=
  if targetIndex? data h args.replaceSubImageType = none then
    .error (.valueError "ImageType not found in ")
  else if files args.subImageFile = none then .error .fileNotFound
  else .success

-- ---------------------------------------------------------------------------
-- One call
-- ---------------------------------------------------------------------------

/-- A missing replacement file is noticed before the output is opened. -/
theorem replaceImage_missing {files : Files Path} {inFile reFile : Path} (outFile : Path)
    {data : Bytes} {t : Int} {h i : Nat} {r : Record} (hin : files inFile = some data)
    (hre : files reFile = none) (ht : IsTarget data t h i r) :
    replaceImage files inFile reFile t outFile = (.error .fileNotFound, files) := by
  have htable := findTable_of_isTarget hin ht
  have hindex : (tableAt data h).records.findIdx?
      (fun r => decide ((r.imageType : Int) = t)) = some i := ht.index
  unfold replaceImage
  simp only [htable, hindex, hre]

section Run

variable {files : Files Path} {flash : Path} {data : Bytes} {h : Nat} {hl : WellLaidOut data h}
  {args : Args Path}

omit [DecidableEq Path] in
theorem given_of_none {m : Int → Option Bytes} (hsub : files args.subImageFile = none) :
    given files m args = m := by
  rw [given, hsub]

omit [DecidableEq Path] in
theorem given_of_some {m : Int → Option Bytes} {image : Bytes}
    (hsub : files args.subImageFile = some image) :
    given files m args = Function.update m args.replaceSubImageType (some image) := by
  rw [given, hsub]

/-- **One call.** On a file that holds the images of `m` a call leaves a file that holds
    those and its own, and no other file changes. A type without a record, or a missing
    image, is reported, and leaves the file as it is. -/
theorem main_update (hu : Update files flash data h args) {m : Int → Option Bytes} {xs : Bytes}
    (hx : hl.groups.Overlay data m xs) :
    ∃ ys, main (Function.update files flash (some xs)) args =
        (expectedReport files data h args, Function.update files flash (some ys)) ∧
      hl.groups.Overlay data (given files m args) ys := by
  have hin : Function.update files flash (some xs) args.inputFile = some xs := by
    rw [hu.inputFile, Function.update_self]
  have hsub : Function.update files flash (some xs) args.subImageFile =
      files args.subImageFile := Function.update_of_ne hu.subImageFile _ _
  obtain ⟨i, r, ht⟩ | ⟨hnone, hnil⟩ := hl.target_cases args.replaceSubImageType
  · have hpresent : targetIndex? data h args.replaceSubImageType ≠ none := by
      rw [ht.index]
      exact Option.some_ne_none i
    have ht' := ht.overlay hx
    cases himage : files args.subImageFile with
    | none =>
      -- There is no image to put: opening it fails.
      refine ⟨xs, ?_, ?_⟩
      · rw [main, replaceImage_missing _ hin (hsub.trans himage) ht', expectedReport,
          if_neg hpresent, if_pos himage]
      · rw [given_of_none himage]
        exact hx
    | some image =>
      have hfit := hu.fits image i r himage ht
      have hlt := ht.size_lt
      have hfound : files args.subImageFile ≠ none := by
        rw [himage]
        exact Option.some_ne_none image
      refine ⟨replaced xs args.replaceSubImageType h i
        (stored args.replaceSubImageType r (m args.replaceSubImageType)) image, ?_, ?_⟩
      · rw [main, replaceImage_eq _ hin (hsub.trans himage) ht' (Or.inr (by omega)),
          expectedReport, if_neg hpresent, if_neg hfound, hu.outPutFile, Function.update_idem]
      · rw [given_of_some himage]
        exact overlay_replaced hx ht hfit
  · -- No record has the type: the call is refused.
    have hrefused : refusal xs args.replaceSubImageType =
        some (.valueError "ImageType not found in ") := by
      rw [refusal, headerOffset?_overlay hx]
      simp only [if_neg (Nat.not_lt.mpr (complete_overlay hx)), targetIndex?_overlay hx, hnone]
    refine ⟨xs, ?_, ?_⟩
    · rw [main, replaceImage_refused _ _ hin hrefused, expectedReport, if_pos hnone]
    · apply hx.congr
      intro t image hplace
      have hne : t ≠ args.replaceSubImageType := by
        rintro rfl
        exact hplace (hnil image)
      cases himage : files args.subImageFile with
      | none => rw [given_of_none himage]
      | some image => rw [given_of_some himage, Function.update_of_ne hne]

/-- **A session.** By induction on the calls: the file holds the images given so far. -/
theorem session_overlay {calls : List (Args Path)}
    (hcalls : ∀ args ∈ calls, Update files flash data h args) {m : Int → Option Bytes} {xs : Bytes}
    (hx : hl.groups.Overlay data m xs) :
    ∃ ys, session (Function.update files flash (some xs)) calls =
        (calls.map (expectedReport files data h), Function.update files flash (some ys)) ∧
      hl.groups.Overlay data (calls.foldl (given files) m) ys := by
  induction calls generalizing m xs with
  | nil => exact ⟨xs, rfl, hx⟩
  | cons args rest ih =>
    obtain ⟨ys, hmain, hy⟩ := main_update (hcalls args List.mem_cons_self) hx
    obtain ⟨zs, hrest, hz⟩ := ih (fun a ha => hcalls a (List.mem_cons_of_mem args ha)) hy
    refine ⟨zs, ?_, hz⟩
    rw [session, hmain]
    simp only [hrest]
    rfl

-- ---------------------------------------------------------------------------
-- What a session leaves
-- ---------------------------------------------------------------------------

omit [DecidableEq Path] in
/-- The image last given to a type comes from a call of the list, or from before. -/
theorem exists_of_foldl_given {calls : List (Args Path)} {m : Int → Option Bytes} {t : Int}
    {image : Bytes} (hlast : calls.foldl (given files) m t = some image) :
    m t = some image ∨
      ∃ args ∈ calls, args.replaceSubImageType = t ∧ files args.subImageFile = some image := by
  induction calls generalizing m with
  | nil => exact Or.inl hlast
  | cons args rest ih =>
    obtain hm | ⟨a, ha, htype, himage⟩ := ih hlast
    · cases hsub : files args.subImageFile with
      | none =>
        rw [given_of_none hsub] at hm
        exact Or.inl hm
      | some image' =>
        rw [given_of_some hsub] at hm
        by_cases ht : t = args.replaceSubImageType
        · subst ht
          rw [Function.update_self] at hm
          exact Or.inr ⟨args, List.mem_cons_self, rfl, hsub.trans hm⟩
        · rw [Function.update_of_ne ht] at hm
          exact Or.inl hm
    · exact Or.inr ⟨a, List.mem_cons_of_mem args ha, htype, himage⟩

omit [DecidableEq Path] in
/-- The images of a session fit their slots. -/
theorem lastImages_fit {calls : List (Args Path)}
    (hcalls : ∀ args ∈ calls, Update files flash data h args) {t : Int} {i : Nat} {r : Record}
    (ht : IsTarget data t h i r) {image : Bytes} (hlast : lastImages files calls t = some image) :
    image.length ≤ r.size := by
  obtain hnone | ⟨args, hargs, rfl, himage⟩ := exists_of_foldl_given hlast
  · cases hnone
  · exact (hcalls args hargs).fits image i r himage ht

/-- Where two sets of images differ, the files differ in touched positions only. -/
theorem agreeOff_overlay {xs ys : Bytes} {m m' : Int → Option Bytes}
    (hx : hl.groups.Overlay data m xs) (hy : hl.groups.Overlay data m' ys) :
    Span.AgreeOff {q | ∃ t i r, IsTarget data t h i r ∧ m t ≠ m' t ∧ q ∈ touched t h i r} xs ys := by
  refine (hx.agreeOff hy).mono ?_
  rintro q ⟨t, image, hne, hq⟩
  rw [hl.groups_patches] at hq
  obtain ⟨i, r, ht⟩ | ⟨-, hnil⟩ := hl.target_cases t
  · rw [ht.covered_putPatches] at hq
    exact ⟨t, i, r, ht, hne, hq⟩
  · rw [hnil, Patch.covered_nil] at hq
    exact hq.elim

/-- What the slot of a type holds depends on the image of that type only. -/
theorem read_slot_overlay_eq {xs ys : Bytes} {m m' : Int → Option Bytes}
    (hx : hl.groups.Overlay data m xs) (hy : hl.groups.Overlay data m' ys) {t : Int} {i : Nat}
    {r : Record} (ht : IsTarget data t h i r) (hm : m t = m' t) :
    Span.read xs r.offset r.size = Span.read ys r.offset r.size := by
  apply (agreeOff_overlay hx hy).read_eq
  rw [Set.disjoint_right]
  rintro q ⟨t', i', r', ht', hne, hq⟩
  have hother : t' ≠ t := by
    rintro rfl
    exact hne hm
  have hslots : q ∈ slot r' → q ∉ slot r := fun hq =>
    Set.disjoint_left.mp (hl.disjoint ht' ht hother) hq
  unfold touched at hq
  split at hq
  next => exact hslots hq
  next hzero =>
    obtain hq | hq := hq
    · exact hslots hq
    · exact Set.disjoint_right.mp ((hl.apart ht).disjoint_sizeOffset (ht'.index_lt hzero)) hq

omit [DecidableEq Path] in
/-- Images that fit are stored whole. -/
theorem storedTable_eq (hl : WellLaidOut data h) {m : Int → Option Bytes}
    (hfit : ∀ t i r image, IsTarget data t h i r → m t = some image → image.length ≤ r.size) :
    storedTable data h m = updatedTable data h m := by
  rw [storedTable, updatedTable]
  congr 1
  apply List.ext_getElem?
  intro j
  rw [List.getElem?_mapIdx, List.getElem?_mapIdx]
  cases hrecord : (recordsAt data h)[j]? with
  | none => rfl
  | some r =>
    rw [Option.map_some, Option.map_some, storedRecord, updatedRecord]
    split
    next hindex =>
      have ht := hl.isTarget_of_index hindex hrecord
      cases himage : m r.imageType with
      | none => rfl
      | some image => rw [stored, List.take_of_length_le (hfit _ _ _ _ ht himage)]
    next => rfl

/-- The slot of a type with an image that fits. -/
theorem read_slot_overlay_some {xs : Bytes} {m : Int → Option Bytes}
    (hx : hl.groups.Overlay data m xs) {t : Int} {i : Nat} {r : Record}
    (ht : IsTarget data t h i r) {image : Bytes} (hm : m t = some image)
    (hfit : image.length ≤ r.size) :
    Span.read xs r.offset r.size = slotBytes r image := by
  have hholds := hx.holds t image hm (putPatch r (slotBytes r image)) (by
    rw [hl.groups_patches, ht.putPatches_eq,
      List.take_of_length_le hfit, patches]
    exact List.mem_cons_self)
  rw [Patch.Holds, putPatch, length_slotBytes hfit] at hholds
  exact hholds

/-- The original file, which no call has touched. -/
theorem overlay_self (hl : WellLaidOut data h) :
    hl.groups.Overlay data (fun _ => none) data :=
  Groups.Overlay.of_holds rfl fun _ _ hnone => nomatch hnone

/-- The whole session, from the files it starts with. -/
theorem session_of_wellLaidOut (hin : files flash = some data) (hl : WellLaidOut data h)
    {calls : List (Args Path)} (hcalls : ∀ args ∈ calls, Update files flash data h args) :
    ∃ out, session files calls =
        (calls.map (expectedReport files data h), Function.update files flash (some out)) ∧
      hl.groups.Overlay data (lastImages files calls) out := by
  have hfiles : Function.update files flash (some data) = files := by
    rw [← hin, Function.update_eq_self]
  obtain ⟨out, hrun, hout⟩ := session_overlay hcalls (overlay_self hl)
  rw [hfiles] at hrun
  exact ⟨out, hrun, hout⟩

/-- **Update sessions.** Any number of calls, in any order, that update a well laid out
    flash file in place with images that fit: each call reports as it should, only the flash
    file changes, its table is found where it was and follows the last image of each type,
    and each slot reads as its last image and erased flash, or as it was. Bytes outside the
    slots and `Size` fields of the updated types never change. -/
theorem session_correct (hin : files flash = some data) (hl : WellLaidOut data h)
    {calls : List (Args Path)} (hcalls : ∀ args ∈ calls, Update files flash data h args) :
    ∃ out, session files calls =
        (calls.map (expectedReport files data h), Function.update files flash (some out)) ∧
      out.length = data.length ∧
      findTable (Function.update files flash (some out)) flash headerOffsets =
        .ok (some (h, updatedTable data h (lastImages files calls))) ∧
      (∀ t i r, IsTarget data t h i r → Span.read out r.offset r.size =
        match lastImages files calls t with
        | none => Span.read data r.offset r.size
        | some image => slotBytes r image) ∧
      Span.AgreeOff {q | ∃ t i r, IsTarget data t h i r ∧ lastImages files calls t ≠ none ∧
        q ∈ touched t h i r} out data := by
  obtain ⟨out, hrun, hout⟩ := session_of_wellLaidOut hin hl hcalls
  have hheader := headerOffset?_overlay hout
  unfold headerOffset? at hheader
  refine ⟨out, hrun, hout.length_eq, ?_, ?_, agreeOff_overlay hout (overlay_self hl)⟩
  · rw [findTable_eq (Function.update_self ..), hheader]
    simp only [if_neg (Nat.not_lt.mpr (complete_overlay hout)), tableAt_overlay hout,
      storedTable_eq hl fun _ _ _ _ ht hlast => lastImages_fit hcalls ht hlast]
  · intro t i r ht
    split
    next hnone => exact read_slot_overlay_eq hout (overlay_self hl) ht hnone
    next image hsome =>
      exact read_slot_overlay_some hout ht hsome (lastImages_fit hcalls ht hsome)

/-- The targets of a type are one record at one index. -/
theorem IsTarget.unique {h' i i' : Nat} {t : Int} {r r' : Record} (ht : IsTarget data t h i r)
    (ht' : IsTarget data t h' i' r') : i = i' ∧ r = r' := by
  obtain rfl : h = h' := Option.some.inj (ht.header.symm.trans ht'.header)
  obtain rfl : i = i' := Option.some.inj (ht.index.symm.trans ht'.index)
  exact ⟨rfl, Option.some.inj (ht.record.symm.trans ht'.record)⟩

theorem wellLaidOut_oneByteFlash : WellLaidOut oneByteFlash 0x100000 := by
  have hpre : (List.replicate 0x100000 (0 : UInt8)).length = 0x100000 := List.length_replicate
  have hrecords := recordsAt_append (List.replicate 0x100000 0) oneByteHeader
  have hcount := countAt_append (List.replicate 0x100000 0) oneByteHeader
  rw [hpre] at hrecords hcount
  have hlen : oneByteFlash.length = 0x100020 := by
    rw [oneByteFlash, List.length_append, hpre]
    decide
  apply wellLaidOut_of_records isTarget_oneByteFlash.header isTarget_oneByteFlash.complete
  rw [hlen, tableEnd, oneByteFlash, hrecords, hcount]
  exact ⟨by decide, by decide, by decide, by decide⟩

/-- The flash file of one entry, two images for its slot, and an EC image. -/
def sessionFiles : Files String := fun path =>
  if path = "flash.bin" then some oneByteFlash
  else if path = "boot.bin" then some [1]
  else if path = "old.bin" then some [0]
  else if path = "ec.bin" then some [2, 3]
  else none

def sessionCall (sub : String) (t : Int) : Args String :=
  ⟨"flash.bin", sub, "flash.bin", t⟩

theorem update_sessionFiles {t : Int} {i : Nat} {r : Record}
    (ht : IsTarget oneByteFlash t 0x100000 i r) {sub : String} (hne : sub ≠ "flash.bin")
    (hfit : ∀ image ∈ sessionFiles sub, image.length ≤ r.size) :
    Update sessionFiles "flash.bin" oneByteFlash 0x100000 (sessionCall sub t) where
  inputFile := rfl
  outPutFile := rfl
  subImageFile := hne
  fits image i' r' himage ht' := by
    obtain ⟨-, rfl⟩ := ht.unique ht'
    exact hfit image himage

/-- The slot and the EC image are updated, and a file that does not exist is reported. -/
theorem session_correct_one_byte :
    ∃ out, (session sessionFiles
        [sessionCall "boot.bin" 1, sessionCall "ec.bin" 0, sessionCall "none.bin" 1]).2
          "flash.bin" = some out ∧
      Span.read out 0 1 = [1] ∧
      Span.read out 0x10000 0x20000 = [2, 3] ++ List.replicate 0x1FFFE 0xFF := by
  have hin : sessionFiles "flash.bin" = some oneByteFlash := rfl
  have hcalls : ∀ args ∈ [sessionCall "boot.bin" 1, sessionCall "ec.bin" 0,
      sessionCall "none.bin" 1], Update sessionFiles "flash.bin" oneByteFlash 0x100000 args := by
    simp only [List.forall_mem_cons]
    exact ⟨update_sessionFiles isTarget_oneByteFlash (by decide) (by decide),
      update_sessionFiles isTarget_oneByteFlash_ec (by decide) (by decide),
      update_sessionFiles isTarget_oneByteFlash (by decide) (by decide),
      fun _ h => absurd h List.not_mem_nil⟩
  obtain ⟨out, hrun, -, -, hslots, -⟩ := session_correct hin wellLaidOut_oneByteFlash hcalls
  refine ⟨out, ?_, hslots 1 0 oneByteRecord isTarget_oneByteFlash,
    hslots 0 1 ecRecord isTarget_oneByteFlash_ec⟩
  rw [hrun]
  exact Function.update_self "flash.bin" (some out) sessionFiles

/-- **The last image of each type decides.** Two sessions on one flash file that end with
    the same image for every type of its table leave the same files, however many calls they
    made, in whatever order, and whichever images came in between. -/
theorem session_eq_of_lastImages (hin : files flash = some data) (hl : WellLaidOut data h)
    {calls calls' : List (Args Path)} (hcalls : ∀ args ∈ calls, Update files flash data h args)
    (hcalls' : ∀ args ∈ calls', Update files flash data h args)
    (hsame : ∀ t, targetIndex? data h t ≠ none →
      lastImages files calls t = lastImages files calls' t) :
    (session files calls).2 = (session files calls').2 := by
  obtain ⟨out, hrun, hout⟩ := session_of_wellLaidOut hin hl hcalls
  obtain ⟨out', hrun', hout'⟩ := session_of_wellLaidOut hin hl hcalls'
  have hcongr : hl.groups.Overlay data (lastImages files calls') out := by
    apply hout.congr
    intro t image hplace
    apply hsame t
    obtain ⟨i, r, ht⟩ | ⟨-, hnil⟩ := hl.target_cases t
    · rw [ht.index]
      exact Option.some_ne_none i
    · exact (hplace (hnil image)).elim
  rw [hrun, hrun', hcongr.unique hout']

/-- In another order, and with an image that is replaced again. -/
theorem session_eq_of_lastImages_one_byte :
    (session sessionFiles [sessionCall "boot.bin" 1, sessionCall "ec.bin" 0]).2 =
      (session sessionFiles
        [sessionCall "ec.bin" 0, sessionCall "old.bin" 1, sessionCall "boot.bin" 1]).2 := by
  have hin : sessionFiles "flash.bin" = some oneByteFlash := rfl
  have hboot : Update sessionFiles "flash.bin" oneByteFlash 0x100000 (sessionCall "boot.bin" 1) :=
    update_sessionFiles isTarget_oneByteFlash (by decide) (by decide)
  have hold : Update sessionFiles "flash.bin" oneByteFlash 0x100000 (sessionCall "old.bin" 1) :=
    update_sessionFiles isTarget_oneByteFlash (by decide) (by decide)
  have hec : Update sessionFiles "flash.bin" oneByteFlash 0x100000 (sessionCall "ec.bin" 0) :=
    update_sessionFiles isTarget_oneByteFlash_ec (by decide) (by decide)
  apply session_eq_of_lastImages hin wellLaidOut_oneByteFlash
  · simp only [List.forall_mem_cons]
    exact ⟨hboot, hec, fun _ h => absurd h List.not_mem_nil⟩
  · simp only [List.forall_mem_cons]
    exact ⟨hec, hold, hboot, fun _ h => absurd h List.not_mem_nil⟩
  · intro t _
    show Function.update (Function.update (fun _ => none) (1 : Int) (some [1])) 0 (some [2, 3]) t =
      Function.update (Function.update (Function.update (fun _ => none) (0 : Int) (some [2, 3])) 1
        (some [0])) 1 (some [1]) t
    rw [Function.update_idem, Function.update_comm (by decide)]

/-- **Roll back.** A session that ends with the original contents of the slot of every type
    it updated leaves the original files. -/
theorem session_rollback (hin : files flash = some data) (hl : WellLaidOut data h)
    {calls : List (Args Path)} (hcalls : ∀ args ∈ calls, Update files flash data h args)
    (hback : ∀ t i r image, IsTarget data t h i r → lastImages files calls t = some image →
      image = Span.read data r.offset r.size) :
    (session files calls).2 = files := by
  obtain ⟨out, hrun, hout⟩ := session_of_wellLaidOut hin hl hcalls
  have hself : hl.groups.Overlay data (lastImages files calls) data := by
    apply Groups.Overlay.of_holds rfl
    intro t image hlast p hp
    rw [hl.groups_patches] at hp
    obtain ⟨i, r, ht⟩ | ⟨-, hnil⟩ := hl.target_cases t
    · obtain rfl := hback t i r image ht hlast
      have hlen : (Span.read data r.offset r.size).length = r.size := by
        obtain hsize | hend := (hl.inside ht).empty_or_le
        · rw [Span.length_read, hsize, Nat.zero_min]
        · exact Span.length_read_of_le hend
      rw [ht.putPatches_eq, List.take_of_length_le (Nat.le_of_eq hlen), patches] at hp
      obtain rfl | hp := List.mem_cons.mp hp
      · rw [Patch.Holds, putPatch, length_slotBytes (Nat.le_of_eq hlen), slotBytes, hlen,
          Nat.sub_self, List.replicate_zero, List.append_nil]
      · split at hp
        next => cases hp
        next hne =>
          obtain rfl := List.mem_singleton.mp hp
          rw [Patch.Holds, syncPatch, LittleEndian.length_ofNat, hlen]
          exact ht.read_sizeOffset hne
    · rw [hnil] at hp
      cases hp
  rw [hrun, hout.unique hself, ← hin, Function.update_eq_self]

/-- An image, and then what the slot held before. -/
theorem session_rollback_one_byte :
    (session sessionFiles [sessionCall "boot.bin" 1, sessionCall "old.bin" 1]).2 =
      sessionFiles := by
  have hin : sessionFiles "flash.bin" = some oneByteFlash := rfl
  have hcalls : ∀ args ∈ [sessionCall "boot.bin" 1, sessionCall "old.bin" 1],
      Update sessionFiles "flash.bin" oneByteFlash 0x100000 args := by
    simp only [List.forall_mem_cons]
    exact ⟨update_sessionFiles isTarget_oneByteFlash (by decide) (by decide),
      update_sessionFiles isTarget_oneByteFlash (by decide) (by decide),
      fun _ h => absurd h List.not_mem_nil⟩
  apply session_rollback hin wellLaidOut_oneByteFlash hcalls
  intro t i r image ht hlast
  have hlast' : Function.update (Function.update (fun _ => none) (1 : Int) (some [1])) 1
      (some [0]) t = some image := hlast
  rw [Function.update_idem] at hlast'
  by_cases ht1 : t = 1
  · subst ht1
    obtain ⟨-, rfl⟩ := ht.unique isTarget_oneByteFlash
    rw [Function.update_self] at hlast'
    rw [← Option.some.inj hlast']
    rfl
  · rw [Function.update_of_ne ht1] at hlast'
    cases hlast'

end Run

end FlashImage
