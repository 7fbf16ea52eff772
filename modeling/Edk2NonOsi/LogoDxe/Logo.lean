-- SUMMARY: `Logo.c`: the driver of the platform logo, and what each of its clients receives.
import Edk2NonOsi.C.Memory
import Edk2NonOsi.Runs.Simulation

/-! # Platform logo

The driver keeps no record of its clients. Each of them counts in a variable of
its own which logo is the next one, and the driver reads and advances it through
a pointer. -/

namespace LogoDxe

-- ---------------------------------------------------------------------------
-- Driver
-- ---------------------------------------------------------------------------

abbrev EfiStatus := UInt64

def efiInvalidParameter : EfiStatus := 0x8000000000000002
def efiNotFound : EfiStatus := 0x800000000000000E

/-- `EFI_ERROR (status)`: the status is negative as an `INTN`. -/
def efiError (status : EfiStatus) : Bool := 0x8000000000000000 ≤ status

/-- `LOGO_ENTRY`. -/
structure LogoEntry (Attribute : Type) where
  imageId : UInt16
  displayAttribute : Attribute
  offsetX : Int64
  offsetY : Int64

/-- `mLogos`, with the token that the build gives `IMG_LOGO`. -/
def mLogos {Attribute : Type} (imgLogo : UInt16) (center : Attribute) :
    List (LogoEntry Attribute) :=
  [⟨imgLogo, center, 0, 0⟩]

/-- The other variables of the driver, and whether its protocol is installed. A pointer that is
    `NULL` is `none`. -/
structure Globals (Ptr : Type) where
  mHiiImageEx : Option Ptr
  mHiiHandle : Option Ptr
  installed : Bool

/-- Which pointers of a call of `GetImage` are there. -/
structure Args where
  hasInstance : Bool
  hasImage : Bool
  hasAttribute : Bool
  hasOffsetX : Bool
  hasOffsetY : Bool

/-- What a call of `GetImage` returns, and what it has written. -/
structure Reply (Attribute Image : Type) where
  status : EfiStatus
  placement : Option (Attribute × Int64 × Int64)
  image : Option Image

variable {Attribute Image Ptr Client : Type}

/-- `GetImageEx` of the HII database, with what it writes. -/
abbrev GetImageEx (Ptr Image : Type) := Ptr → Option Ptr → UInt16 → EfiStatus × Option Image

/-- A reply that has written nothing. -/
def Reply.failure (status : EfiStatus) : Reply Attribute Image := ⟨status, none, none⟩

/-- `GetImage`, where `Instance` points to `inst`. -/
def getImage (logos : List (LogoEntry Attribute)) (globals : Globals Ptr)
    (getImageEx : GetImageEx Ptr Image) (args : Args) (inst : UInt32) :
    Except C.Fault (UInt32 × Reply Attribute Image) :=
  if !args.hasInstance || !args.hasImage || !args.hasAttribute || !args.hasOffsetX ||
      !args.hasOffsetY then
    return (inst, .failure efiInvalidParameter)
  else
    let current := inst
    if logos.length ≤ current.toNat then return (inst, .failure efiNotFound)
    else do
      let entry ← C.listAt logos current.toNat
      let hiiImageEx ← C.deref globals.mHiiImageEx
      -- `*Instance` is advanced before the image is asked for, whether or not it can be had.
      let (status, image) := getImageEx hiiImageEx globals.mHiiHandle entry.imageId
      let placement := (entry.displayAttribute, entry.offsetX, entry.offsetY)
      return (current + 1, ⟨status, some placement, image⟩)

/-- What the firmware answers while the entry point runs. -/
structure BootServices (Ptr : Type) where
  /-- `ASSERT_EFI_ERROR` is compiled in. -/
  asserts : Bool
  /-- `LocateProtocol` of the HII database. -/
  hiiDatabase : EfiStatus × Option Ptr
  /-- `LocateProtocol` of the HII images. -/
  hiiImageEx : EfiStatus × Option Ptr
  /-- `OpenProtocol` of the package list of the driver. -/
  packageList : EfiStatus × Option Ptr
  /-- `NewPackageList`, with the handle it leaves. -/
  newPackageList : Ptr → Option Ptr → EfiStatus × Option Ptr
  installMultipleProtocolInterfaces : EfiStatus

/-- `ASSERT_EFI_ERROR (status)`. -/
def BootServices.assertEfiError (services : BootServices Ptr) (status : EfiStatus) :
    Except C.Fault Unit :=
  if services.asserts && efiError status then .error .assertFailed else return

/-- `InitializeLogo`: its status, and the variables of the driver. -/
def initializeLogo (services : BootServices Ptr) : Except C.Fault (EfiStatus × Globals Ptr) := do
  services.assertEfiError services.hiiDatabase.1
  services.assertEfiError services.hiiImageEx.1
  let globals : Globals Ptr := ⟨services.hiiImageEx.2, none, false⟩
  let (status, packageList) := services.packageList
  if efiError status then return (status, globals)
  else
    let hiiDatabase ← C.deref services.hiiDatabase.2
    let (status, handle) := services.newPackageList hiiDatabase packageList
    let globals := { globals with mHiiHandle := handle }
    if efiError status then return (status, globals)
    else
      let status := services.installMultipleProtocolInterfaces
      return (status, { globals with installed := !efiError status })

-- ---------------------------------------------------------------------------
-- Clients
-- ---------------------------------------------------------------------------

/-- A call of `GetImage`, and how the HII database answers at that time. -/
structure Call (Client Ptr Image : Type) where
  client : Client
  args : Args
  getImageEx : GetImageEx Ptr Image

/-- The `Instance` variable of each client, and the calls so far with their replies. -/
structure System (Client Ptr Attribute Image : Type) where
  inst : Client → UInt32
  log : List (Call Client Ptr Image × Reply Attribute Image)

/-- No client has asked for anything. -/
def System.initial : System Client Ptr Attribute Image := ⟨fun _ => 0, []⟩

variable [DecidableEq Client]

/-- One call. -/
def System.call (logos : List (LogoEntry Attribute)) (globals : Globals Ptr)
    (s : System Client Ptr Attribute Image) (call : Call Client Ptr Image) :
    Except C.Fault (System Client Ptr Attribute Image) := do
  let (inst, reply) ← getImage logos globals call.getImageEx call.args (s.inst call.client)
  return ⟨Function.update s.inst call.client inst, s.log ++ [(call, reply)]⟩

/-- Any number of calls, of any clients, one after another. -/
def System.run (logos : List (LogoEntry Attribute)) (globals : Globals Ptr) :
    System Client Ptr Attribute Image → List (Call Client Ptr Image) →
      Except C.Fault (System Client Ptr Attribute Image) :=
  Runs.run (System.call logos globals)

-- ---------------------------------------------------------------------------
-- What a client receives
-- ---------------------------------------------------------------------------

/-- All pointers are there. -/
def Args.complete (args : Args) : Bool :=
  args.hasInstance && args.hasImage && args.hasAttribute && args.hasOffsetX && args.hasOffsetY

/-- A call in which the client asks for its next logo. -/
def Call.asks (c : Client) (call : Call Client Ptr Image) : Bool :=
  call.client = c && call.args.complete

/-- The replies to these calls of a client. -/
def System.received (s : System Client Ptr Attribute Image) (c : Client) :
    List (Reply Attribute Image) :=
  (s.log.filter fun entry => entry.1.asks c).map Prod.snd

/-- A logo and what the database has for it, or that there is no logo of this number. -/
def answer (logos : List (LogoEntry Attribute)) (handle : Option Ptr) (hiiImageEx : Ptr)
    (getImageEx : GetImageEx Ptr Image) (n : Nat) : Reply Attribute Image :=
  match logos[n]? with
  | none => .failure efiNotFound
  | some entry =>
    let (status, image) := getImageEx hiiImageEx handle entry.imageId
    ⟨status, some (entry.displayAttribute, entry.offsetX, entry.offsetY), image⟩

/-- One logo after another, from the first on. -/
def answers (logos : List (LogoEntry Attribute)) (handle : Option Ptr) (hiiImageEx : Ptr)
    (calls : List (Call Client Ptr Image)) : List (Reply Attribute Image) :=
  calls.zipIdx.map fun (call, n) => answer logos handle hiiImageEx call.getImageEx n

section Clients

variable {logos : List (LogoEntry Attribute)} {globals : Globals Ptr} {hiiImageEx : Ptr}
  {args : Args} {inst : UInt32}

omit [DecidableEq Client] in
theorem answers_append (calls : List (Call Client Ptr Image)) (call : Call Client Ptr Image) :
    answers logos globals.mHiiHandle hiiImageEx (calls ++ [call]) =
      answers logos globals.mHiiHandle hiiImageEx calls ++
        [answer logos globals.mHiiHandle hiiImageEx call.getImageEx calls.length] := by
  simp [answers, List.zipIdx_append]

theorem Args.not_complete (args : Args) :
    (!args.hasInstance || !args.hasImage || !args.hasAttribute || !args.hasOffsetX ||
      !args.hasOffsetY) = !args.complete := by
  simp only [Args.complete, Bool.not_and]

theorem getImage_incomplete (getImageEx : GetImageEx Ptr Image) (h : args.complete = false) :
    getImage logos globals getImageEx args inst = .ok (inst, .failure efiInvalidParameter) := by
  rw [getImage, args.not_complete, h]
  rfl

/-- A client that has asked `n` times gets logo `n`. Behind the last one its variable stays
    where it is, so that it does not come around to the first one again. -/
theorem getImage_complete (getImageEx : GetImageEx Ptr Image) (h : args.complete)
    (hlogos : logos.length < 2 ^ 32) (hex : globals.mHiiImageEx = some hiiImageEx) {n : Nat}
    (hinst : inst.toNat = min n logos.length) :
    ∃ inst', getImage logos globals getImageEx args inst =
        .ok (inst', answer logos globals.mHiiHandle hiiImageEx getImageEx n) ∧
      inst'.toNat = min (n + 1) logos.length := by
  rw [getImage, args.not_complete, h, Bool.not_true, if_neg Bool.false_ne_true]
  dsimp only
  by_cases hn : n < logos.length
  · have hcurrent : inst.toNat = n := by omega
    refine ⟨inst + 1, ?_, ?_⟩
    · rw [if_neg (by omega), hcurrent, C.listAt, hex, answer, List.getElem?_eq_getElem hn]
      rfl
    · rw [UInt32.toNat_add, hcurrent, Nat.mod_eq_of_lt (by simp; omega)]
      simp
      omega
  · have hend : logos.length ≤ inst.toNat := by omega
    refine ⟨inst, ?_, by omega⟩
    rw [if_pos hend, answer, List.getElem?_eq_none (by omega)]
    rfl

/-- The variables of the clients and the replies so far are what the calls come to. -/
structure System.Represents (logos : List (LogoEntry Attribute)) (handle : Option Ptr)
    (hiiImageEx : Ptr) (s : System Client Ptr Attribute Image)
    (calls : List (Call Client Ptr Image)) : Prop where
  log : s.log.map Prod.fst = calls
  inst : ∀ c, (s.inst c).toNat = min (calls.filter (Call.asks c)).length logos.length
  received : ∀ c, s.received c = answers logos handle hiiImageEx (calls.filter (Call.asks c))
  incomplete : ∀ entry ∈ s.log, entry.1.args.complete = false →
    entry.2 = .failure efiInvalidParameter

theorem System.represents_initial :
    (initial : System Client Ptr Attribute Image).Represents logos globals.mHiiHandle
      hiiImageEx [] where
  log := rfl
  inst _ := rfl
  received _ := rfl
  incomplete _ h := absurd h List.not_mem_nil

/-- A call without one of its pointers. -/
theorem System.Represents.turned_back {s : System Client Ptr Attribute Image}
    {calls : List (Call Client Ptr Image)} {call : Call Client Ptr Image}
    (h : s.Represents logos globals.mHiiHandle hiiImageEx calls)
    (hcomplete : call.args.complete = false) :
    System.Represents logos globals.mHiiHandle hiiImageEx
      ⟨s.inst, s.log ++ [(call, .failure efiInvalidParameter)]⟩ (calls ++ [call]) := by
  have hasks : ∀ c, call.asks c = false := fun c => by rw [Call.asks, hcomplete, Bool.and_false]
  constructor
  · simp [h.log]
  · simpa [List.filter_append, hasks] using h.inst
  · simpa [System.received, List.filter_append, hasks] using h.received
  · intro entry hentry hargs
    rcases List.mem_append.mp hentry with hold | hnew
    · exact h.incomplete entry hold hargs
    · rw [List.mem_singleton.mp hnew]

/-- A call that is answered. -/
theorem System.Represents.answered {s : System Client Ptr Attribute Image}
    {calls : List (Call Client Ptr Image)} {call : Call Client Ptr Image}
    (h : s.Represents logos globals.mHiiHandle hiiImageEx calls)
    (hcomplete : call.args.complete)
    (hinst : inst.toNat = min ((calls.filter (Call.asks call.client)).length + 1) logos.length) :
    System.Represents logos globals.mHiiHandle hiiImageEx
      ⟨Function.update s.inst call.client inst,
        s.log ++ [(call, answer logos globals.mHiiHandle hiiImageEx call.getImageEx
          (calls.filter (Call.asks call.client)).length)]⟩ (calls ++ [call]) := by
  have hown : call.asks call.client = true := by simp [Call.asks, hcomplete]
  have hother : ∀ c, c ≠ call.client → call.asks c = false := by
    intro c hc
    simp [Call.asks, hc.symm]
  constructor
  · simp [h.log]
  · intro c
    by_cases hc : c = call.client
    · subst hc
      simpa [List.filter_append, hown] using hinst
    · simpa [List.filter_append, hother c hc, Function.update_of_ne hc] using h.inst c
  · intro c
    by_cases hc : c = call.client
    · subst hc
      have hreceived := h.received call.client
      rw [System.received] at hreceived
      simp [System.received, List.filter_append, hown, answers_append, hreceived]
    · simpa [System.received, List.filter_append, hother c hc] using h.received c
  · intro entry hentry hargs
    rcases List.mem_append.mp hentry with hold | hnew
    · exact h.incomplete entry hold hargs
    · rw [List.mem_singleton.mp hnew, hcomplete] at hargs
      cases hargs

/-- **One call.** -/
theorem System.simulates (hlogos : logos.length < 2 ^ 32)
    (hex : globals.mHiiImageEx = some hiiImageEx) :
    Runs.Simulates (System.call logos globals)
      (fun calls (call : Call Client Ptr Image) => calls ++ [call]) (fun _ => True)
      (System.Represents logos globals.mHiiHandle hiiImageEx) := by
  intro s calls call h _
  cases hcomplete : call.args.complete with
  | false =>
    refine ⟨_, ?_, h.turned_back hcomplete⟩
    rw [System.call, getImage_incomplete _ hcomplete, C.ok_bind]
    simp only [Function.update_eq_self]
    rfl
  | true =>
    obtain ⟨inst, hcall, hinst⟩ := getImage_complete call.getImageEx hcomplete hlogos hex
      (h.inst call.client)
    refine ⟨_, ?_, h.answered hcomplete hinst⟩
    rw [System.call, hcall]
    rfl

/-- From the start, however the calls of different clients are interleaved. -/
theorem System.run_represents (hlogos : logos.length < 2 ^ 32)
    (hex : globals.mHiiImageEx = some hiiImageEx) (calls : List (Call Client Ptr Image)) :
    ∃ s, System.run logos globals (initial : System Client Ptr Attribute Image) calls = .ok s ∧
      s.Represents logos globals.mHiiHandle hiiImageEx calls := by
  have hadmits : ∀ call ∈ calls, True := fun _ _ => trivial
  obtain ⟨s, hrun, hs⟩ := (System.simulates hlogos hex).run represents_initial hadmits
  have hcalls : calls.foldl (fun before call => before ++ [call]) [] = calls := by
    rw [List.foldl_append_eq_append, List.nil_append, ← List.flatMap_def, List.flatMap_singleton']
  rw [hcalls] at hs
  exact ⟨s, hrun, hs⟩

end Clients

-- ---------------------------------------------------------------------------
-- From the load of the driver on
-- ---------------------------------------------------------------------------

/-- `[Depex]` of `LogoDxe.inf`: the driver is loaded when both protocols are there, and
    `LocateProtocol` finds them. -/
structure BootServices.Depex (services : BootServices Ptr) : Prop where
  hiiDatabase : efiError services.hiiDatabase.1 = false ∧ services.hiiDatabase.2.isSome
  hiiImageEx : efiError services.hiiImageEx.1 = false ∧ services.hiiImageEx.2.isSome

/-- The package list of the driver is in the HII database under this handle. -/
def BootServices.Published (services : BootServices Ptr) (handle : Option Ptr) : Prop :=
  efiError services.packageList.1 = false ∧
    ∃ database, services.hiiDatabase.2 = some database ∧
      (services.newPackageList database services.packageList.2).2 = handle ∧
      efiError (services.newPackageList database services.packageList.2).1 = false

theorem initializeLogo_of_depex {services : BootServices Ptr} (h : services.Depex) :
    ∃ status globals hiiImageEx, initializeLogo services = .ok (status, globals) ∧
      globals.mHiiImageEx = some hiiImageEx ∧ services.hiiImageEx.2 = some hiiImageEx ∧
      globals.installed = !efiError status ∧
      (globals.installed → services.Published globals.mHiiHandle) := by
  obtain ⟨⟨hdatabase, hhas⟩, ⟨himage, hhasimage⟩⟩ := h
  obtain ⟨database, hdb⟩ := Option.isSome_iff_exists.mp hhas
  obtain ⟨hiiImageEx, hex⟩ := Option.isSome_iff_exists.mp hhasimage
  have hassert : ∀ status, efiError status = false →
      services.assertEfiError status = .ok () := by
    intro status hstatus
    rw [BootServices.assertEfiError, hstatus, Bool.and_false]
    rfl
  unfold initializeLogo
  rw [hassert _ hdatabase, hassert _ himage, hdb, hex]
  simp only [C.ok_bind, C.deref]
  cases hopen : efiError services.packageList.1 with
  | true => exact ⟨_, _, hiiImageEx, rfl, rfl, rfl, by simp [hopen], by simp⟩
  | false =>
    simp only [Bool.false_eq_true, if_false]
    cases hnew : efiError (services.newPackageList database services.packageList.2).1 with
    | true => exact ⟨_, _, hiiImageEx, rfl, rfl, rfl, by simp [hnew], by simp⟩
    | false =>
      refine ⟨_, _, hiiImageEx, rfl, rfl, rfl, rfl, fun _ => ?_⟩
      exact ⟨hopen, database, hdb, rfl, hnew⟩

/-- **The driver and its clients.** In a build with or without asserts, the driver loads
    without a fault, and its protocol is installed exactly when its status is no error. The logos
    are published then, and however the calls of any clients are interleaved, none faults:
    each client receives one logo after another, as the database has it at the time of the
    call, and after the last one that there is none. -/
theorem logo_served {services : BootServices Ptr} (h : services.Depex)
    {logos : List (LogoEntry Attribute)} (hlogos : logos.length < 2 ^ 32) :
    ∃ status globals hiiImageEx, initializeLogo services = .ok (status, globals) ∧
      services.hiiImageEx.2 = some hiiImageEx ∧ globals.installed = !efiError status ∧
      (globals.installed → services.Published globals.mHiiHandle ∧
        ∀ calls : List (Call Client Ptr Image), ∃ s : System Client Ptr Attribute Image,
          System.initial.run logos globals calls = .ok s ∧ s.log.map Prod.fst = calls ∧
            (∀ c, s.received c = answers logos globals.mHiiHandle hiiImageEx
              (calls.filter (Call.asks c))) ∧
            ∀ entry ∈ s.log, entry.1.args.complete = false →
              entry.2 = .failure efiInvalidParameter) := by
  obtain ⟨status, globals, hiiImageEx, hload, hex, hlocated, hinstalled, hpublished⟩ :=
    initializeLogo_of_depex h
  refine ⟨status, globals, hiiImageEx, hload, hlocated, hinstalled, fun hthere => ?_⟩
  refine ⟨hpublished hthere, fun calls => ?_⟩
  obtain ⟨s, hrun, hs⟩ := System.run_represents hlogos hex calls
  exact ⟨s, hrun, hs.log, hs.received, hs.incomplete⟩

/-- A firmware in which everything is there. -/
def sampleServices : BootServices Nat where
  asserts := false
  hiiDatabase := (0, some 1)
  hiiImageEx := (0, some 2)
  packageList := (0, some 3)
  newPackageList := fun _ _ => (0, some 4)
  installMultipleProtocolInterfaces := 0

/-- Two clients take turns, and each receives the logo once. -/
def sampleCalls : List (Call Bool Nat UInt16) :=
  [false, true, false, true].map fun client =>
    ⟨client, ⟨true, true, true, true, true⟩, fun _ _ imageId => (0, some imageId)⟩

theorem logo_served_sample :
    ∃ status globals, initializeLogo sampleServices = .ok (status, globals) ∧
      ∃ s : System Bool Nat Unit UInt16,
        System.initial.run (mLogos 7 ()) globals sampleCalls = .ok s ∧
          ∀ c, (s.received c).map Reply.status = [0, efiNotFound] := by
  have hdepex : sampleServices.Depex := ⟨⟨rfl, rfl⟩, ⟨rfl, rfl⟩⟩
  obtain ⟨status, globals, hiiImageEx, hload, -, -, hserved⟩ :=
    @logo_served Unit UInt16 Nat Bool _ sampleServices hdepex (mLogos 7 ()) (by decide)
  obtain ⟨rfl, rfl⟩ := Prod.mk.inj (Except.ok.inj hload)
  obtain ⟨-, hclients⟩ := hserved rfl
  obtain ⟨s, hrun, -, hreceived, -⟩ := hclients sampleCalls
  refine ⟨_, _, hload, s, hrun, fun c => ?_⟩
  rw [hreceived c]
  cases c <;> rfl

end LogoDxe
