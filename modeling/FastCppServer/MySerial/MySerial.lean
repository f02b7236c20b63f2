import FastCppServer.MySerial.Options
import Mathlib.Data.List.Basic

/-!
# A serial port

`MySerial`: the calls of one instance, each under `mutex_`, over a serial library that may fail in
any of its calls. `Init` closes the port it has, builds a new one aside and commits it; whatever
fails on the way leaves the instance empty.

The library is not part of the repository. It is a parameter here (`Library`), with what it
documents of its calls as a hypothesis (`Library.Documented`); of a call that throws nothing is
supposed but that it does not change the settings of the port.

What a caller is told is what there is (`serial_run`): from the values its calls return it knows
whether there is a port, with which options, and whether it is open, unless the library has thrown
since it was told.
-/

namespace MySerial

open Bytes

/-! ## The library -/

/-- `serial::Timeout`. -/
inductive Timeout where
  | simpleTimeout (timeout : UInt32)
  | full (interByte readConstant readMultiplier writeConstant writeMultiplier : UInt32)
  deriving DecidableEq

/-- What the setters of `serial::Serial` are given. -/
structure Settings where
  port : Text
  baudrate : UInt32
  timeout : Timeout
  bytesize : Bytesize
  parity : Parity
  stopbits : Stopbits
  flowcontrol : Flowcontrol
  deriving DecidableEq

/-- A call for input or output, with the type of what it returns. -/
inductive Request : Type → Type where
  | write (data : List UInt8) : Request Nat
  | read (size : Nat) : Request (List UInt8)
  | readline (size : Nat) (eol : Text) : Request Text
  | available : Request Nat

/-- The serial library: the objects of `serial::Serial`, and what its calls do to them. A call
returns, or throws a text; what the environment does in it is `ε`. -/
structure Library (σ ε : Type) where
  /-- The constructor, and the setters. -/
  make : ε → Settings → Except Text σ
  /-- The getters. -/
  settings : σ → Settings
  isOpen : σ → Bool
  openPort : ε → σ → σ × Except Text Unit
  closePort : ε → σ → σ × Except Text Unit
  io : {α : Type} → ε → Request α → σ → σ × Except Text α

/-- What the library documents. -/
structure Library.Documented {σ ε : Type} (lib : Library σ ε) : Prop where
  /-- A port has the settings it was given, and is not opened by the constructor without a port. -/
  made : ∀ e settings p, lib.make e settings = .ok p →
    lib.settings p = settings ∧ lib.isOpen p = false
  /-- `isOpen` tells that the port was opened. -/
  opened : ∀ e p q, lib.openPort e p = (q, .ok ()) → lib.isOpen q = true
  /-- `isOpen` tells that the port was closed. -/
  closed : ∀ e p q, lib.closePort e p = (q, .ok ()) → lib.isOpen q = false
  /-- Input and output neither open nor close the port. -/
  io : ∀ {α : Type} e (r : Request α) p q a, lib.io e r p = (q, .ok a) → lib.isOpen q = lib.isOpen p
  /-- Only the setters set. -/
  settings_openPort : ∀ e p, lib.settings (lib.openPort e p).1 = lib.settings p
  settings_closePort : ∀ e p, lib.settings (lib.closePort e p).1 = lib.settings p
  settings_io : ∀ {α : Type} e (r : Request α) p, lib.settings (lib.io e r p).1 = lib.settings p

/-- `BuildTimeout`. -/
def buildTimeout (options : SerialInitOptions) : Timeout :=
  if options.interByteTimeoutMs = 0 ∧ options.readTimeoutConstantMs = options.timeoutMs ∧
      options.readTimeoutMultiplierMs = 0 ∧ options.writeTimeoutConstantMs = options.timeoutMs ∧
      options.writeTimeoutMultiplierMs = 0 then
    .simpleTimeout options.timeoutMs
  else
    .full options.interByteTimeoutMs options.readTimeoutConstantMs options.readTimeoutMultiplierMs
      options.writeTimeoutConstantMs options.writeTimeoutMultiplierMs

/-! ## The instance -/

/-- `MySerial`. -/
structure Instance (σ : Type) where
  initialized : Bool := false
  serial : Option σ := none
  options : SerialInitOptions := {}
  lastError : Text := []

/-- What the environment does in an `Init`: whether `cfg.dump(4)` throws, and in the calls of the
library. -/
structure InitEnvironment (ε : Type) where
  dump : Option Text := none
  close : ε
  make : ε
  openPort : ε

section
variable {σ ε : Type} (lib : Library σ ε)
-- `dump()` of a floating-point number, and `what()` of an exception of the libraries
variable (dumpFloat : UInt64 → Text) (what : OptionsError → Text)

/-- `IsOpen`. -/
def Instance.isOpen (s : Instance σ) : Bool :=
  match s.serial with
  | some p => lib.isOpen p
  | none => false

/-- The steps of `Init` that build the new object. The line settings are parsed between the setters;
that has been done before, and does not fail (`configure_cases`). -/
def configure (options : SerialInitOptions) (e : ε) : Except Text σ := do
  let bytesize ← (parseBytesize options.bytesize).mapError what
  let parity ← (parseParity options.parity).mapError what
  let stopbits ← (parseStopbits options.stopbits).mapError what
  let flowcontrol ← (parseFlowcontrol options.flowcontrol).mapError what
  lib.make e
    { port := options.port, baudrate := options.baudrate, timeout := buildTimeout options
      bytesize, parity, stopbits, flowcontrol }

/-- `serial_->close()` where the port is open. -/
def Instance.closePort (s : Instance σ) (e : ε) : Instance σ × Except Text Unit :=
  match s.serial with
  | some p =>
    if lib.isOpen p then
      let (p, result) := lib.closePort e p
      ({ s with serial := some p }, result)
    else (s, .ok ())
  | none => (s, .ok ())

/-- The new object takes the place of the old one. -/
def Instance.commit (p : σ) (options : SerialInitOptions) : Instance σ :=
  { serial := some p, options, initialized := true, lastError := [] }

/-- The `try` block of `Init`, with what it throws. -/
def Instance.initBody (s : Instance σ) (cfg : Json) (e : InitEnvironment ε) :
    Instance σ × Except Text Unit :=
  match e.dump with
  | some what => (s, .error what)
  | none =>
    match s.closePort lib e.close with
    | (s, .error what) => (s, .error what)
    | (s, .ok ()) =>
      let s := { s with initialized := false }
      match parseOptions dumpFloat cfg with
      | .error err => (s, .error (what err))
      | .ok options =>
        match configure lib what options e.make with
        | .error what => (s, .error what)
        | .ok p =>
          if options.autoOpen then
            match lib.openPort e.openPort p with
            | (_, .error what) => (s, .error what)
            | (p, .ok ()) => (.commit p options, .ok ())
          else (.commit p options, .ok ())

/-- What a call tells its caller: it has succeeded, or the text in `err`. -/
inductive Told where
  | ok
  | failed (what : Text)
  deriving DecidableEq

/-- `Init`. Whatever is thrown leaves an instance that is not initialised. -/
def Instance.init (s : Instance σ) (cfg : Json) (e : InitEnvironment ε) : Instance σ × Told :=
  match s.initBody lib dumpFloat what cfg e with
  | (s, .ok ()) => (s, .ok)
  | (_, .error what) =>
    ({ initialized := false, serial := none, options := {}, lastError := what }, .failed what)

/-- The error of a call before `Init`. -/
def notInitialized : Text := ofText "MySerial is not initialized"

/-- The error of a call on a port that is not open. -/
def notOpen : Text := ofText "Serial port is not open"

/-- `ExecuteWithError`: what is thrown is kept in `last_error_`. -/
def Instance.report (s : Instance σ) (told : Told) : Instance σ × Told :=
  match told with
  | .ok => ({ s with lastError := [] }, .ok)
  | .failed what => ({ s with lastError := what }, .failed what)

/-- `Open`. -/
def Instance.open (s : Instance σ) (e : ε) : Instance σ × Told :=
  match s.initialized, s.serial with
  | true, some p =>
    if lib.isOpen p then s.report .ok
    else
      match lib.openPort e p with
      | (p, .ok ()) => { s with serial := some p }.report .ok
      | (p, .error what) => { s with serial := some p }.report (.failed what)
  | _, _ => s.report (.failed notInitialized)

/-- `Close`; what the library throws is not caught. -/
def Instance.close (s : Instance σ) (e : ε) : Instance σ × Told :=
  match s.closePort lib e with
  | (s, .ok ()) => (s, .ok)
  | (s, .error what) => (s, .failed what)

/-- The shape of `Write`, `Read`, `ReadBytes`, `ReadLine` and `Available`: the call into the library
on an open port, with what is returned where the port is not open, and where the library throws. -/
def Instance.io {α : Type} (s : Instance σ) (unopened thrown : α) (e : ε) (r : Request α) :
    (Instance σ × Told) × α :=
  match s.initialized, s.serial with
  | true, some p =>
    if lib.isOpen p then
      match lib.io e r p with
      | (p, .ok a) => ({ s with serial := some p }.report .ok, a)
      | (p, .error what) => ({ s with serial := some p }.report (.failed what), thrown)
    else (s.report (.failed notOpen), unopened)
  | _, _ => (s.report (.failed notInitialized), unopened)

/-- `Write`, with what it returns. -/
def Instance.write (s : Instance σ) (data : List UInt8) (e : ε) : (Instance σ × Told) × Nat :=
  s.io lib 0 0 e (.write data)

/-- `Read`, with what it returns. -/
def Instance.read (s : Instance σ) (size : Nat) (e : ε) : (Instance σ × Told) × Text :=
  s.io lib [] [] e (.read size)

/-- The buffer is made as long as asked for before the library fills it. -/
def Instance.readBytes (s : Instance σ) (size : Nat) (e : ε) :
    (Instance σ × Told) × List UInt8 :=
  s.io lib [] (List.replicate size 0) e (.read size)

/-- `ReadLine`, with what it returns. -/
def Instance.readLine (s : Instance σ) (size : Nat) (eol : Text) (e : ε) :
    (Instance σ × Told) × Text :=
  s.io lib [] [] e (.readline size eol)

/-- `Available`, with what it returns. -/
def Instance.available (s : Instance σ) (e : ε) : (Instance σ × Told) × Nat :=
  s.io lib 0 0 e .available

/-- A call, with what the environment does in it. -/
inductive Call (ε : Type) where
  | init (cfg : Json) (e : InitEnvironment ε)
  | open (e : ε)
  | close (e : ε)
  | write (data : List UInt8) (e : ε)
  | read (size : Nat) (e : ε)
  | readBytes (size : Nat) (e : ε)
  | readLine (size : Nat) (eol : Text) (e : ε)
  | available (e : ε)

/-- A call, and what it tells. -/
def Instance.step (s : Instance σ) : Call ε → Instance σ × Told
  | .init cfg e => s.init lib dumpFloat what cfg e
  | .open e => s.open lib e
  | .close e => s.close lib e
  | .write data e => (s.write lib data e).1
  | .read size e => (s.read lib size e).1
  | .readBytes size e => (s.readBytes lib size e).1
  | .readLine size eol e => (s.readLine lib size eol e).1
  | .available e => (s.available lib e).1

/-- The calls one by one, with what each has told. -/
def Instance.run (s : Instance σ) : List (Call ε) → Instance σ × List (Call ε × Told)
  | [] => (s, [])
  | call :: calls =>
    let (s, told) := s.step lib dumpFloat what call
    let (s, history) := s.run calls
    (s, (call, told) :: history)

/-! ## What the caller knows -/

/-- A port as its caller sees it; whether it is open may not be known. -/
inductive Port where
  | none
  | ready (options : SerialInitOptions) (isOpen : Option Bool)

/-- What the caller knows of a port whose call has told this much of it. -/
def Port.told (port : Port) (isOpen : Option Bool) : Port :=
  match port with
  | .ready options _ => .ready options isOpen
  | .none => .none

/-- An input or output has failed: if the port was closed it still is, and otherwise the library has
thrown. -/
def Port.doubted : Port → Port
  | .ready options (some false) => .ready options (some false)
  | .ready options _ => .ready options Option.none
  | .none => .none

/-- What a call has told about the port. -/
def Port.after (port : Port) : Call ε × Told → Port
  | (.init cfg _, .ok) =>
    match parseOptions dumpFloat cfg with
    | .ok options => .ready options (some options.autoOpen)
    | .error _ => .none
  | (.init _ _, .failed _) => .none
  | (.open _, .ok) => port.told (some true)
  | (.close _, .ok) => port.told (some false)
  | (.open _, .failed _) | (.close _, .failed _) => port.told Option.none
  | (_, .ok) => port.told (some true)
  | (_, .failed _) => port.doubted

/-- The text of the last error told, unless a call has succeeded since. `Close` counts for neither.
-/
def lastTold (last : Text) : Call ε × Told → Text
  | (.close _, _) => last
  | (_, .ok) => []
  | (_, .failed what) => what

/-- The object is made with these options. -/
structure Settings.Made (settings : Settings) (options : SerialInitOptions) : Prop where
  port : settings.port = options.port
  baudrate : settings.baudrate = options.baudrate
  timeout : settings.timeout = buildTimeout options
  bytesize : settings.bytesize.toText = options.bytesize
  parity : settings.parity.toText = options.parity
  stopbits : settings.stopbits.toText = options.stopbits
  flowcontrol : settings.flowcontrol.toText = options.flowcontrol

/-- The instance is as its caller sees it. -/
inductive Instance.Is (s : Instance σ) : Port → Prop
  | none : s.initialized = false → s.serial = .none → s.options = {} → s.Is .none
  | ready {p : σ} {isOpen : Option Bool} : s.initialized = true → s.serial = some p →
      (lib.settings p).Made s.options → (∀ b, isOpen = some b → lib.isOpen p = b) →
      s.Is (.ready s.options isOpen)

/-! ## Every call keeps it -/

variable {lib} {s : Instance σ} {port : Port}

/-- The last error is not part of it. -/
theorem Instance.Is.report (h : s.Is lib port) (told : Told) :
    (s.report told).1.Is lib port ∧ (s.report told).2 = told := by
  cases told with
  | ok | failed what =>
    refine ⟨?_, rfl⟩
    cases h with
    | none hinit hserial hoptions => exact .none hinit hserial hoptions
    | ready hinit hserial hmade hopen => exact .ready hinit hserial hmade hopen

/-- A report is kept in `last_error_`. -/
theorem lastError_report (s : Instance σ) (told : Told) {call : Call ε}
    (hc : ∀ e, call ≠ .close e) (last : Text) :
    (s.report told).1.lastError = lastTold last (call, told) := by
  cases call with
  | close e => exact absurd rfl (hc e)
  | _ => cases told <;> rfl

/-- A call has told of a port what is so. -/
theorem Instance.Is.told {p : σ} (h : s.Is lib port) (hinit : s.initialized = true)
    (hserial : s.serial = some p) {q : σ} (hsettings : lib.settings q = lib.settings p)
    {isOpen : Option Bool} (hopen : ∀ b, isOpen = some b → lib.isOpen q = b) :
    Instance.Is lib { s with serial := some q } (port.told isOpen) := by
  cases h with
  | none hno _ _ => cases hno.symm.trans hinit
  | @ready p' _ _ hserial' hmade _ =>
    obtain rfl := Option.some.inj (hserial'.symm.trans hserial)
    exact .ready hinit rfl (by rw [hsettings]; exact hmade) hopen

/-- A call that tells whether the port is open. -/
theorem Instance.Is.known {p q : σ} (h : s.Is lib port) (hinit : s.initialized = true)
    (hserial : s.serial = some p) (hsettings : lib.settings q = lib.settings p) {b : Bool}
    (hopen : lib.isOpen q = b) :
    Instance.Is lib { s with serial := some q } (port.told (some b)) :=
  h.told hinit hserial hsettings fun _ hb => hopen.trans (Option.some.inj hb)

/-- After a call that threw it is not known whether the port is open. -/
theorem Instance.Is.doubt {p q : σ} (h : s.Is lib port) (hinit : s.initialized = true)
    (hserial : s.serial = some p) (hsettings : lib.settings q = lib.settings p) :
    Instance.Is lib { s with serial := some q } (port.told Option.none) :=
  h.told hinit hserial hsettings fun _ hb => (by cases hb)

/-- Closing leaves the port closed, or throws. -/
theorem closePort_cases (hlib : lib.Documented) (h : s.Is lib port) (e : ε) :
    (∃ t w, s.closePort lib e = (t, .error w) ∧ t.Is lib (port.told none) ∧
        t.lastError = s.lastError) ∨
      ∃ t, s.closePort lib e = (t, .ok ()) ∧ t.Is lib (port.told (some false)) ∧
        t.lastError = s.lastError := by
  cases h with
  | none hinit hserial hoptions =>
    refine .inr ⟨s, ?_, .none hinit hserial hoptions, rfl⟩
    rw [Instance.closePort, hserial]
  | @ready p told hinit hserial hmade hopen =>
    have his : s.Is lib (.ready s.options told) := .ready hinit hserial hmade hopen
    by_cases hp : lib.isOpen p = true
    · have hthis : s.closePort lib e =
          ({ s with serial := some (lib.closePort e p).1 }, (lib.closePort e p).2) := by
        rw [Instance.closePort, hserial]
        exact if_pos hp
      rw [hthis]
      have hsettings := hlib.settings_closePort e p
      rcases hclose : lib.closePort e p with ⟨q, w | ⟨⟩⟩
      · rw [hclose] at hsettings
        exact .inl ⟨{ s with serial := some q }, w, rfl, his.doubt hinit hserial hsettings, rfl⟩
      · rw [hclose] at hsettings
        exact .inr ⟨{ s with serial := some q }, rfl,
          his.known hinit hserial hsettings (hlib.closed e p q hclose), rfl⟩
    · refine .inr ⟨s, ?_, .ready hinit hserial hmade fun b hb => ?_, rfl⟩
      · rw [Instance.closePort, hserial]
        exact if_neg hp
      cases hb
      exact Bool.eq_false_iff.2 hp

/-- The line settings of parsed options are parsed a second time, which does not fail: only the
library can throw. -/
theorem configure_cases (hlib : lib.Documented) {options : SerialInitOptions} (h : options.Normal)
    (e : ε) : (∃ w, configure lib what options e = .error w) ∨
      ∃ p, configure lib what options e = .ok p ∧ (lib.settings p).Made options ∧
        lib.isOpen p = false := by
  obtain ⟨b, hb⟩ := h.bytesize
  obtain ⟨q, hq⟩ := h.parity
  obtain ⟨s, hs⟩ := h.stopbits
  obtain ⟨f, hf⟩ := h.flowcontrol
  have hb' : parseBytesize options.bytesize = .ok b := by rw [hb]; cases b <;> rfl
  have hq' : parseParity options.parity = .ok q := by rw [hq]; cases q <;> rfl
  have hs' : parseStopbits options.stopbits = .ok s := by rw [hs]; cases s <;> rfl
  have hf' : parseFlowcontrol options.flowcontrol = .ok f := by rw [hf]; cases f <;> rfl
  let settings : Settings :=
    { port := options.port, baudrate := options.baudrate, timeout := buildTimeout options
      bytesize := b, parity := q, stopbits := s, flowcontrol := f }
  have hmake : configure lib what options e = lib.make e settings := by
    simp only [configure, hb', hq', hs', hf']
    rfl
  have hmade : settings.Made options := ⟨rfl, rfl, rfl, hb.symm, hq.symm, hs.symm, hf.symm⟩
  rw [hmake]
  cases hp : lib.make e settings with
  | error w => exact .inl ⟨w, rfl⟩
  | ok p =>
    obtain ⟨hsettings, hopen⟩ := hlib.made e settings p hp
    exact .inr ⟨p, rfl, hsettings ▸ hmade, hopen⟩

/-- After `Init` the caller knows its options, and whether the port is open. -/
theorem commit_is {p : σ} {options : SerialInitOptions} (hmade : (lib.settings p).Made options) :
    (Instance.commit p options).Is lib (.ready options (some (lib.isOpen p))) :=
  .ready (s := Instance.commit p options) rfl rfl hmade fun _ hb => Option.some.inj hb

/-- **`Init`.** The `try` block throws, or it leaves a port made with the options of the
configuration. -/
theorem initBody_cases (hlib : lib.Documented) (h : s.Is lib port) (cfg : Json)
    (e : InitEnvironment ε) :
    (∃ t w, s.initBody lib dumpFloat what cfg e = (t, .error w)) ∨
    ∃ t, s.initBody lib dumpFloat what cfg e = (t, .ok ()) ∧
      t.Is lib (port.after dumpFloat (.init cfg e, .ok)) ∧ t.lastError = [] := by
  unfold Instance.initBody
  cases e.dump with
  | some w => exact .inl ⟨s, w, rfl⟩
  | none =>
    obtain ⟨t, w, hclose, -, -⟩ | ⟨t, hclose, -, -⟩ := closePort_cases hlib h e.close
    · rw [hclose]
      exact .inl ⟨t, w, rfl⟩
    rw [hclose]
    dsimp only
    cases hparse : parseOptions dumpFloat cfg with
    | error err => exact .inl ⟨_, _, rfl⟩
    | ok options =>
      have hnormal : options.Normal := by
        cases cfg with
        | object fields => exact parseFields_normal dumpFloat hparse
        | _ => cases hparse
      dsimp only
      obtain ⟨w, hw⟩ | ⟨p, hp, hmade, hclosed⟩ := configure_cases what hlib hnormal e.make
      · exact .inl ⟨{ t with initialized := false }, w, by rw [hw]⟩
      have hafter : port.after dumpFloat (.init cfg e, .ok) =
          .ready options (some options.autoOpen) := by rw [Port.after, hparse]
      rw [hafter, hp]
      dsimp only
      cases hauto : options.autoOpen with
      | false =>
        refine .inr ⟨_, rfl, ?_, rfl⟩
        have his := commit_is hmade
        rwa [hclosed] at his
      | true =>
        have hsettings := hlib.settings_openPort e.openPort p
        rcases hopen : lib.openPort e.openPort p with ⟨q, w | ⟨⟩⟩
        · exact .inl ⟨{ t with initialized := false }, w, rfl⟩
        · rw [hopen] at hsettings
          refine .inr ⟨.commit q options, rfl, ?_, rfl⟩
          have his := commit_is (p := q) (by rw [hsettings]; exact hmade)
          rwa [hlib.opened _ _ _ hopen] at his

/-- **What an `Init` tells.** -/
theorem init_is (hlib : lib.Documented) (h : s.Is lib port) (cfg : Json)
    (e : InitEnvironment ε) :
    (s.init lib dumpFloat what cfg e).1.Is lib
        (port.after dumpFloat (.init cfg e, (s.init lib dumpFloat what cfg e).2)) ∧
      (s.init lib dumpFloat what cfg e).1.lastError =
        lastTold s.lastError (.init cfg e, (s.init lib dumpFloat what cfg e).2) := by
  obtain ⟨t, w, hbody⟩ | ⟨t, hbody, ht, hlast⟩ :=
    initBody_cases dumpFloat what hlib h cfg e
  · have hinit : s.init lib dumpFloat what cfg e =
        ({ initialized := false, serial := none, options := {}, lastError := w }, .failed w) := by
      rw [Instance.init, hbody]
    rw [hinit]
    exact ⟨.none rfl rfl rfl, rfl⟩
  · have hinit : s.init lib dumpFloat what cfg e = (t, .ok) := by rw [Instance.init, hbody]
    rw [hinit]
    exact ⟨ht, hlast⟩

/-- `Open` tells that the port is open, or throws. -/
theorem open_is (hlib : lib.Documented) (h : s.Is lib port) (e : ε) :
    (s.open lib e).1.Is lib (port.after dumpFloat (.open e, (s.open lib e).2)) ∧
      (s.open lib e).1.lastError = lastTold s.lastError (.open e, (s.open lib e).2) := by
  cases h with
  | none hinit hserial hoptions =>
    have hopen : s.open lib e = s.report (.failed notInitialized) := by
      rw [Instance.open, hinit]
    rw [hopen]
    exact ⟨.none hinit hserial hoptions, rfl⟩
  | @ready p told hinit hserial hmade hknown =>
    have his : s.Is lib (.ready s.options told) := .ready hinit hserial hmade hknown
    by_cases hp : lib.isOpen p = true
    · have hthis : s.open lib e = s.report .ok := by simp [Instance.open, hinit, hserial, hp]
      rw [hthis]
      refine ⟨.ready hinit hserial hmade fun b hb => ?_, rfl⟩
      cases hb
      exact hp
    have hsettings := hlib.settings_openPort e p
    rcases hopen : lib.openPort e p with ⟨q, w | ⟨⟩⟩
    · have hthis : s.open lib e = { s with serial := some q }.report (.failed w) := by
        simp [Instance.open, hinit, hserial, hp, hopen]
      rw [hopen] at hsettings
      rw [hthis]
      exact ⟨((his.doubt hinit hserial hsettings).report (.failed w)).1, rfl⟩
    · have hthis : s.open lib e = { s with serial := some q }.report .ok := by
        simp [Instance.open, hinit, hserial, hp, hopen]
      rw [hopen] at hsettings
      rw [hthis]
      exact ⟨((his.known hinit hserial hsettings (hlib.opened e p q hopen)).report .ok).1, rfl⟩

/-- **What a `Close` tells.** -/
theorem close_is (hlib : lib.Documented) (h : s.Is lib port) (e : ε) :
    (s.close lib e).1.Is lib (port.after dumpFloat (.close e, (s.close lib e).2)) ∧
      (s.close lib e).1.lastError = s.lastError := by
  obtain ⟨t, w, hclose, ht, hlast⟩ | ⟨t, hclose, ht, hlast⟩ := closePort_cases hlib h e
  · have hthis : s.close lib e = (t, .failed w) := by rw [Instance.close, hclose]
    rw [hthis]
    exact ⟨ht, hlast⟩
  · have hthis : s.close lib e = (t, .ok) := by rw [Instance.close, hclose]
    rw [hthis]
    exact ⟨ht, hlast⟩

/-- What a call for input or output tells. -/
def Port.afterIo (port : Port) : Told → Port
  | .ok => port.told (some true)
  | .failed _ => port.doubted

/-- Input and output. Without an open port the library is not called. -/
theorem io_is (hlib : lib.Documented) (h : s.Is lib port) {α : Type} (unopened thrown : α) (e : ε)
    (r : Request α) :
    (s.io lib unopened thrown e r).1.1.Is lib (port.afterIo (s.io lib unopened thrown e r).1.2) ∧
      (∀ call : Call ε, (∀ e, call ≠ .close e) →
        (s.io lib unopened thrown e r).1.1.lastError =
          lastTold s.lastError (call, (s.io lib unopened thrown e r).1.2)) ∧
      (s.isOpen lib = false → (s.io lib unopened thrown e r).2 = unopened ∧
        (s.io lib unopened thrown e r).1.1.serial = s.serial) := by
  cases h with
  | none hinit hserial hoptions =>
    have hthis : s.io lib unopened thrown e r = (s.report (.failed notInitialized), unopened) := by
      simp [Instance.io, hinit]
    rw [hthis]
    exact ⟨.none hinit hserial hoptions, fun call hc => lastError_report s _ hc _,
      fun _ => ⟨rfl, rfl⟩⟩
  | @ready p told hinit hserial hmade hknown =>
    have his : s.Is lib (.ready s.options told) := .ready hinit hserial hmade hknown
    by_cases hp : lib.isOpen p = true
    · -- the library is called
      have hisOpen : s.isOpen lib ≠ false := by
        rw [Instance.isOpen, hserial]
        exact Bool.eq_false_iff.not_left.2 hp
      have hsettings := hlib.settings_io e r p
      rcases hio : lib.io e r p with ⟨q, w | a⟩
      · have hthis : s.io lib unopened thrown e r =
            ({ s with serial := some q }.report (.failed w), thrown) := by
          simp [Instance.io, hinit, hserial, hp, hio]
        rw [hio] at hsettings
        rw [hthis]
        have hdoubted : (Port.ready s.options told).doubted = .ready s.options none := by
          cases told with
          | none => rfl
          | some b =>
            obtain rfl : b = true := (hknown b rfl).symm.trans hp
            rfl
        have htold := ((his.doubt hinit hserial hsettings).report (.failed w)).1
        refine ⟨?_, fun call hc => lastError_report _ (.failed w) hc _,
          fun hno => absurd hno hisOpen⟩
        show Instance.Is lib _ (Port.ready s.options told).doubted
        rw [hdoubted]
        exact htold
      · have hthis : s.io lib unopened thrown e r =
            ({ s with serial := some q }.report .ok, a) := by
          simp [Instance.io, hinit, hserial, hp, hio]
        rw [hio] at hsettings
        rw [hthis]
        have hopen : lib.isOpen q = true := (hlib.io e r p q a hio).trans hp
        exact ⟨((his.known hinit hserial hsettings hopen).report .ok).1,
          fun call hc => lastError_report _ .ok hc _, fun hno => absurd hno hisOpen⟩
    · have hthis : s.io lib unopened thrown e r = (s.report (.failed notOpen), unopened) := by
        simp [Instance.io, hinit, hserial, hp]
      rw [hthis]
      have hdoubted : s.Is lib (Port.ready s.options told).doubted := by
        cases told with
        | none => exact his
        | some b =>
          obtain rfl : b = false := (hknown b rfl).symm.trans (Bool.eq_false_iff.2 hp)
          exact his
      exact ⟨(hdoubted.report (.failed notOpen)).1, fun call hc => lastError_report s _ hc _,
        fun _ => ⟨rfl, rfl⟩⟩

/-- **A call keeps it.** -/
theorem step_is (hlib : lib.Documented) (h : s.Is lib port) (call : Call ε) :
    (s.step lib dumpFloat what call).1.Is lib
        (port.after dumpFloat (call, (s.step lib dumpFloat what call).2)) ∧
      (s.step lib dumpFloat what call).1.lastError =
        lastTold s.lastError (call, (s.step lib dumpFloat what call).2) := by
  -- the five calls of one shape
  have hio : ∀ {α : Type} (unopened thrown : α) (e : ε) (r : Request α) (call : Call ε),
      (∀ e, call ≠ .close e) →
      (∀ told, port.after dumpFloat (call, told) = port.afterIo told) →
      (s.io lib unopened thrown e r).1.1.Is lib
          (port.after dumpFloat (call, (s.io lib unopened thrown e r).1.2)) ∧
        (s.io lib unopened thrown e r).1.1.lastError =
          lastTold s.lastError (call, (s.io lib unopened thrown e r).1.2) := by
    intro α unopened thrown e r call hc hafter
    obtain ⟨his, hlast, -⟩ := io_is hlib h unopened thrown e r
    rw [hafter]
    exact ⟨his, hlast call hc⟩
  cases call with
  | init cfg e => exact init_is dumpFloat what hlib h cfg e
  | «open» e => exact open_is dumpFloat hlib h e
  | close e => exact close_is dumpFloat hlib h e
  | write | read | readBytes | readLine | available =>
    refine hio _ _ _ _ _ nofun fun told => ?_
    cases told <;> rfl

/-- **The caller knows its port all along.** -/
theorem run_is (hlib : lib.Documented) (h : s.Is lib port) (calls : List (Call ε)) :
    (s.run lib dumpFloat what calls).1.Is lib
        ((s.run lib dumpFloat what calls).2.foldl (Port.after dumpFloat) port) ∧
      (s.run lib dumpFloat what calls).1.lastError =
        (s.run lib dumpFloat what calls).2.foldl lastTold s.lastError := by
  induction calls generalizing s port with
  | nil => exact ⟨h, rfl⟩
  | cons call calls ih =>
    obtain ⟨his, hlast⟩ := step_is dumpFloat what hlib h call
    obtain ⟨his', hlast'⟩ := ih his
    refine ⟨his', ?_⟩
    rw [hlast] at hlast'
    exact hlast'

/-- **A serial port is what its calls have told.** Over any library that does what it documents, and
whatever it throws, the instance after any calls is the port that follows from what they have told:
there is one exactly after an `Init` that has succeeded, made with the options of its configuration,
and open or closed as the last call has said that told it, unless the library has thrown since.
While it is not open, no call for input or output gets to the library. `last_error_` is the last
text told. -/
theorem serial_run (hlib : lib.Documented) (calls : List (Call ε)) :
    ∃ s history, Instance.run lib dumpFloat what {} calls = (s, history) ∧
      s.Is lib (history.foldl (Port.after dumpFloat) .none) ∧
      s.lastError = history.foldl lastTold [] ∧
      (s.isOpen lib = false → ∀ {α : Type} (unopened thrown : α) (e : ε) (r : Request α),
        (s.io lib unopened thrown e r).2 = unopened ∧
          (s.io lib unopened thrown e r).1.1.serial = s.serial) := by
  have hinit : Instance.Is lib {} .none := .none rfl rfl rfl
  obtain ⟨his, hlast⟩ := run_is dumpFloat what hlib hinit calls
  exact ⟨_, _, rfl, his, hlast, fun hclosed _ unopened thrown e r =>
    (io_is hlib his unopened thrown e r).2.2 hclosed⟩

end

/-! ## A device that obeys -/

/-- A port is its settings and whether it is open; a call throws where it is told a text. -/
def obedient : Library (Settings × Bool) (Option Text) where
  make e settings :=
    match e with
    | some what => .error what
    | none => .ok (settings, false)
  settings := Prod.fst
  isOpen := Prod.snd
  openPort e p :=
    match e with
    | some what => (p, .error what)
    | none => ((p.1, true), .ok ())
  closePort e p :=
    match e with
    | some what => (p, .error what)
    | none => ((p.1, false), .ok ())
  io e r p :=
    match e, r with
    | some what, _ => (p, .error what)
    | none, .write data => (p, .ok data.length)
    | none, .read size => (p, .ok (List.replicate size 0))
    | none, .readline _ eol => (p, .ok eol)
    | none, .available => (p, .ok 0)

/-- Such a library does what it documents. -/
theorem obedient_documented : obedient.Documented where
  made e settings p h := by
    cases e with
    | some what => cases h
    | none =>
      cases h
      exact ⟨rfl, rfl⟩
  opened e p q h := by
    cases e with
    | some what => cases h
    | none =>
      cases h
      rfl
  closed e p q h := by
    cases e with
    | some what => cases h
    | none =>
      cases h
      rfl
  io e r p q a h := by
    cases e with
    | some what => cases h
    | none =>
      cases r <;>
      · cases h
        rfl
  settings_openPort e p := by cases e <;> rfl
  settings_closePort e p := by cases e <;> rfl
  settings_io e r p := by
    cases e with
    | some what => rfl
    | none => cases r <;> rfl

/-- A port is opened by `Init`, written to and closed; it is opened again, and an `Init` over it
fails because the open port does not close. -/
def obedientCalls : List (Call (Option Text)) :=
  [.init deviceConfig { close := none, make := none, openPort := none }, .write [1, 2] none,
    .close none, .write [3] none, .open none,
    .init deviceConfig { close := some (ofText "busy"), make := none, openPort := none }]

/-- These calls, on such a library: the last `Init` leaves nothing. -/
theorem serial_run_obedient :
    ∃ s history,
      Instance.run obedient (fun _ => []) (fun _ => []) {} obedientCalls = (s, history) ∧
      history.map Prod.snd = [.ok, .ok, .ok, .failed notOpen, .ok, .failed (ofText "busy")] ∧
      s.Is obedient .none ∧ s.lastError = ofText "busy" ∧ (s.write obedient [4] none).2 = 0 := by
  obtain ⟨s, history, hrun, his, hlast, hio⟩ :=
    serial_run (fun _ => []) (fun _ => []) obedient_documented obedientCalls
  obtain rfl : (Instance.run obedient (fun _ => []) (fun _ => []) {} obedientCalls).2 = history :=
    congrArg Prod.snd hrun
  have htold : (Instance.run obedient (fun _ => []) (fun _ => []) {} obedientCalls).2.map Prod.snd =
      [.ok, .ok, .ok, .failed notOpen, .ok, .failed (ofText "busy")] := by with_unfolding_all rfl
  have hport : (Instance.run obedient (fun _ => []) (fun _ => []) {} obedientCalls).2.foldl
      (Port.after fun _ => []) .none = .none := by with_unfolding_all rfl
  have hwhat : (Instance.run obedient (fun _ => []) (fun _ => []) {} obedientCalls).2.foldl
      lastTold [] = ofText "busy" := by with_unfolding_all rfl
  rw [hport] at his
  have hclosed : s.isOpen obedient = false := by
    cases his with
    | none _ hserial _ => rw [Instance.isOpen, hserial]
  exact ⟨s, _, hrun, htold, his, hlast.trans hwhat, (hio hclosed 0 0 none (.write [4])).1⟩

end MySerial
