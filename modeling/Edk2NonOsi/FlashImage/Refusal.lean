-- SUMMARY: Exactly which flash files `replace_image` refuses, and that a refusal leaves every file as it was.
import Edk2NonOsi.FlashImage.ReplaceImage

open Python

namespace FlashImage

/-- The table of the header at `h` is cut off: the file ends in the header or in
    the records it announces. -/
def Truncated (data : Bytes) (h : Nat) : Prop :=
  data.length < h + 16 ∨ data.length < h + 16 + 16 * countAt data h

/-- No record of the table has type `t`, and `t` is not the type of the EC image. -/
def Absent (data : Bytes) (h : Nat) (t : Int) : Prop :=
  (∀ i < countAt data h, ((recordAt data (h + 16 + 16 * i)).imageType : Int) ≠ t) ∧ t ≠ 0

/-- The malformed inputs. -/
def Refused (data : Bytes) (t : Int) : Prop :=
  (Span.read data 0x100000 4 ≠ magic ∧ Span.read data 0x200000 4 ≠ magic) ∨
    ∃ h, headerOffset? data = some h ∧ (Truncated data h ∨ Absent data h t)

/-- How a run on malformed inputs ends. -/
def refusal (data : Bytes) (t : Int) : Option Error :=
  match headerOffset? data with
  | none => some (.valueError
      "Invalid header at all specified offsets\n Please check the file Image.")
  | some h =>
    if data.length < tableEnd data h then some .structError
    else
      match targetIndex? data h t with
      | none => some (.valueError "ImageType not found in ")
      | some _ => none

-- ---------------------------------------------------------------------------
-- The malformed inputs
-- ---------------------------------------------------------------------------

theorem headerOffset?_eq_none_iff (data : Bytes) :
    headerOffset? data = none ↔
      Span.read data 0x100000 4 ≠ magic ∧ Span.read data 0x200000 4 ≠ magic := by
  simp [headerOffset?, headerOffsets]

theorem truncated_iff (data : Bytes) (h : Nat) :
    Truncated data h ↔ data.length < tableEnd data h := by
  unfold Truncated tableEnd
  omega

theorem absent_iff (data : Bytes) (h : Nat) (t : Int) :
    Absent data h t ↔ targetIndex? data h t = none := by
  have hec : ((ecRecord.imageType : Int) ≠ t) ↔ t ≠ 0 := ne_comm
  simp only [targetIndex?, recordsAt, Absent, List.findIdx?_eq_none_iff, List.mem_append,
    List.mem_map, List.mem_range, List.mem_singleton, decide_eq_false_iff_not]
  constructor
  · rintro ⟨htable, hzero⟩ r (⟨i, hi, rfl⟩ | rfl)
    · exact htable i hi
    · exact hec.mpr hzero
  · intro hall
    exact ⟨fun i hi => hall _ (Or.inl ⟨i, hi, rfl⟩), hec.mp (hall _ (Or.inr rfl))⟩

theorem refused_iff (data : Bytes) (t : Int) : Refused data t ↔ refusal data t ≠ none := by
  rw [Refused, ← headerOffset?_eq_none_iff, refusal]
  cases headerOffset? data with
  | none => simp
  | some h =>
    simp only [truncated_iff, absent_iff, Option.some_inj, exists_eq_left', false_or, reduceCtorEq]
    by_cases hend : data.length < tableEnd data h
    · simp [hend]
    · cases targetIndex? data h t with
      | none => simp [hend]
      | some i => simp [hend]

/-- A well-formed input has a target. -/
theorem exists_isTarget {data : Bytes} {t : Int} (h : refusal data t = none) :
    ∃ p i r, IsTarget data t p i r := by
  unfold refusal at h
  cases hheader : headerOffset? data with
  | none => simp [hheader] at h
  | some p =>
    by_cases hend : data.length < tableEnd data p
    · simp [hheader, hend] at h
    · cases hindex : targetIndex? data p t with
      | none => simp [hheader, hend, hindex] at h
      | some i =>
        obtain ⟨hi, -, -⟩ := List.findIdx?_eq_some_iff_getElem.mp hindex
        exact ⟨p, i, _, hheader, Nat.not_lt.mp hend, hindex, List.getElem?_eq_getElem hi⟩

-- ---------------------------------------------------------------------------
-- The runs
-- ---------------------------------------------------------------------------

section Runs

variable {Path : Type} [DecidableEq Path] {files : Files Path} {inFile : Path} {data : Bytes}
  {t : Int}

/-- A run on malformed inputs raises before it opens the output. -/
theorem replaceImage_refused (reFile outFile : Path) (hin : files inFile = some data) {e : Error}
    (h : refusal data t = some e) :
    replaceImage files inFile reFile t outFile = (.error e, files) := by
  unfold refusal at h
  unfold replaceImage
  rw [findTable_eq hin, ← headerOffset?]
  cases hheader : headerOffset? data with
  | none =>
    rw [hheader] at h
    rw [← Option.some.inj h]
  | some p =>
    simp only [hheader] at h
    by_cases hend : data.length < tableEnd data p
    · rw [if_pos hend] at h
      simp only [if_pos hend, ← Option.some.inj h]
    · rw [if_neg hend] at h
      cases hindex : targetIndex? data p t with
      | some i => simp [hindex] at h
      | none =>
        rw [hindex] at h
        have hfind : (tableAt data p).records.findIdx?
            (fun r => decide ((r.imageType : Int) = t)) = none := hindex
        simp only [if_neg hend, hfind, ← Option.some.inj h]

/-- **Malformed flash files are refused before anything is written.** A run raises
    exactly on the malformed inputs, and then leaves every file as it was, the
    output included. On every other input it completes, with the table entries in
    file order and then the EC record as its records. -/
theorem replaceImage_raises_iff (files : Files Path) (inFile reFile outFile : Path)
    (data repl : Bytes) (t : Int) (hin : files inFile = some data)
    (hre : files reFile = some repl) (hlen : repl.length < 2 ^ 32) :
    ((∃ e files', replaceImage files inFile reFile t outFile = (.error e, files')) ↔
        Refused data t) ∧
      (∀ e files', replaceImage files inFile reFile t outFile = (.error e, files') →
        files' = files) ∧
      (¬ Refused data t → ∃ h table output,
        headerOffset? data = some h ∧
        findTable files inFile headerOffsets = .ok (some (h, table)) ∧
        table.records =
          (List.range (countAt data h)).map (fun i => recordAt data (h + 16 + 16 * i)) ++
            [ecRecord] ∧
        replaceImage files inFile reFile t outFile =
          (.ok (), Function.update files outFile (some output))) := by
  rw [refused_iff]
  cases hrefusal : refusal data t with
  | some e =>
    have hrun := replaceImage_refused reFile outFile hin hrefusal
    refine ⟨⟨fun _ => by simp, fun _ => ⟨e, files, hrun⟩⟩, ?_, fun h => absurd (by simp) h⟩
    intro e' files' hrun'
    rw [hrun] at hrun'
    exact (Prod.mk.inj hrun').2.symm
  | none =>
    obtain ⟨h, i, r, ht⟩ := exists_isTarget hrefusal
    have hrun := replaceImage_eq outFile hin hre ht (Or.inr hlen)
    have htable := findTable_of_isTarget hin ht
    have hnot : ∀ e files', replaceImage files inFile reFile t outFile ≠ (.error e, files') := by
      intro e files' hrun'
      rw [hrun] at hrun'
      exact absurd (Prod.mk.inj hrun').1 (by simp)
    refine ⟨⟨?_, fun h => absurd rfl h⟩, ?_, fun _ => ⟨h, _, _, ht.header, htable, rfl, hrun⟩⟩
    · rintro ⟨e, files', hrun'⟩
      exact (hnot e files' hrun').elim
    · intro e files' hrun'
      exact (hnot e files' hrun').elim

end Runs

/-- A header that announces two records. -/
def cutHeader : Bytes :=
  magic ++ LittleEndian.ofNat 4 1 ++ LittleEndian.ofNat 4 2 ++ LittleEndian.ofNat 4 0

/-- A flash file that ends behind its header, where the table is to be. -/
def cutFlash : Bytes :=
  List.replicate 0x100000 0 ++ cutHeader

theorem refused_cutFlash (t : Int) : Refused cutFlash t := by
  have hpre : (List.replicate 0x100000 (0 : UInt8)).length = 0x100000 := List.length_replicate
  have hread := Span.read_append_right (List.replicate 0x100000 0) cutHeader 0 4
  have hcount := countAt_append (List.replicate 0x100000 0) cutHeader
  rw [hpre] at hread hcount
  right
  refine ⟨0x100000, ?_, Or.inl (Or.inr ?_)⟩
  · have hmagic : Span.read cutFlash 0x100000 4 = magic := hread.trans (by decide)
    exact List.find?_cons_of_pos (by simpa using hmagic)
  · rw [cutFlash, hcount, List.length_append, hpre]
    decide

/-- The run raises, and the file it was to overwrite, which is the flash file itself, is as
    it was. -/
theorem replaceImage_raises_iff_truncated :
    ∃ e, replaceImage (fun path => some (if path then cutFlash else [1])) true false 1 true =
      (.error e, fun path => some (if path then cutFlash else [1])) := by
  obtain ⟨hraises, hkeeps, -⟩ := replaceImage_raises_iff
    (fun path => some (if path then cutFlash else [1])) true false true cutFlash [1] 1 rfl rfl
    (by decide)
  obtain ⟨e, files', hrun⟩ := hraises.mpr (refused_cutFlash 1)
  rw [hkeeps e files' hrun] at hrun
  exact ⟨e, hrun⟩

end FlashImage
