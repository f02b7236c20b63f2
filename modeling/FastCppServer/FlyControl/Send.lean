import FastCppServer.Lib.Transition
import FastCppServer.FlyControl.Codec
import Mathlib.Logic.Function.Basic
import Mathlib.Data.List.Nodup
import Mathlib.Data.List.Perm.Subperm
import Mathlib.Data.List.Range

/-!
# Concurrent senders

The `Send*` methods of `MyFlyControl.cpp`, called by any number of clients at once. A call checks
its arguments, takes a number from the atomic counter (`NextCnt`), encodes its frame, and then,
under `send_mutex_`, hands it to the serial port byte by byte (`SendRawData`); the port may stop
early. Each of these is a step of its own, so every interleaving is a run.

The lock keeps the bytes of a frame together, and the counter gives every frame a number of its own;
this is what every run keeps (`Inv`). The two are taken at different points, so the order on the
wire is not the order of the numbers (`overtaking_not_consecutive`): it is when no client takes a
number while another has still to write (`send_wire`).
-/

namespace FlyControl

open Transition

/-! ## The calls -/

/-- A call of a `Send*` method with its arguments. -/
inductive Send where
  | setDestination (lon lat : Int32) (alt : UInt16)
  | setRoute (points : List RoutePoint)
  | setAngle (pitch : Int16) (yaw : UInt16)
  | setSpeed (speed : UInt16)
  | setAltitude (altType : Byte) (altitude : UInt16)
  | powerSwitch (command : Byte)
  | parachute (parachuteType : Byte)
  | buttonCommand (button : Byte)
  | setOriginReturn (pointType : Byte) (lon lat : Int32) (alt : UInt16)
  | setGeofence (points : List GeofencePoint)
  | switchMode (mode : Byte)
  | guidance (data : GuidanceData)
  | guidanceNew (data : GuidanceNewData)
  | gimbalAngRate (data : GimbalAngRateData)
  | gimbalAngle (data : GimbalAngleData)
  | targetState (data : TargetStateData)

/-- What a `Send*` method does before it takes a number: the check of its arguments, whose failure
is the text in `err`, and the structure it fills. -/
def Send.command : Send → Except String Command
  | .setDestination lon lat alt =>
    .ok (.setDestination { longitude := lon, latitude := lat, altitude := alt })
  | .setRoute points =>
    if points = [] ∨ points.length > 50 then .error "航线点数量必须在 1~50 之间"
    else .ok (.setRoute { points })
  | .setAngle pitch yaw => .ok (.setAngle { pitch, yaw })
  | .setSpeed speed => .ok (.setSpeed { speed })
  | .setAltitude altType altitude => .ok (.setAltitude { altitudeType := altType, altitude })
  | .powerSwitch command => .ok (.powerSwitch { command })
  | .parachute parachuteType => .ok (.parachute { parachuteType })
  | .buttonCommand button => .ok (.buttonCommand { button })
  | .setOriginReturn pointType lon lat alt =>
    .ok (.setOriginReturn { pointType, longitude := lon, latitude := lat, altitude := alt })
  | .setGeofence points =>
    if points.length < 3 ∨ points.length > 50 then .error "电子围栏点数量必须在 3~50 之间"
    else .ok (.setGeofence { points })
  | .switchMode mode => .ok (.switchMode { mode })
  | .guidance data => .ok (.guidance data)
  | .guidanceNew data => .ok (.guidanceNew data)
  | .gimbalAngRate data => .ok (.gimbalAngRate data)
  | .gimbalAngle data => .ok (.gimbalAngle data)
  | .targetState data => .ok (.targetState data)

/-! ## The steps -/

/-- Where a client stands in its call. `number` counts the calls of `NextCnt` before its own. -/
inductive Phase where
  | idle
  | checked (command : Command)
  | counted (command : Command) (cnt : Byte) (number : Nat)
  | encoded (command : Command) (frame : List Byte) (number : Nat)
  /-- In `SendRawData`, with `rest` still to be written. -/
  | writing (command : Command) (rest : List Byte) (number : Nat)

/-- What the calls of all the clients share, and where each client stands. `issued` is history. -/
structure State (ι : Type) where
  /-- `cnt_`. -/
  cnt : Byte := 0
  /-- The owner of `send_mutex_`. -/
  sendMutex : Option ι := none
  phase : ι → Phase := fun _ => .idle
  /-- The bytes the serial port has taken. -/
  wire : List Byte := []
  /-- How often `NextCnt` was called. -/
  issued : Nat := 0

/-- A step of a client, in the order in which a call of a `Send*` function makes them; the port
takes a byte at a time. -/
inductive Label (ι : Type) where
  | call (i : ι) (send : Send)
  | nextCnt (i : ι)
  | encode (i : ι)
  | lock (i : ι)
  | write (i : ι)
  /-- `serial_.Write` returns, with all bytes written or not, and the lock is released. -/
  | unlock (i : ι)

section
variable {ι : Type} [DecidableEq ι]

/-- A client goes on to its next step. -/
def State.setPhase (s : State ι) (i : ι) (p : Phase) : State ι :=
  { s with phase := Function.update s.phase i p }

/-- One step of one client. Nothing else is locked than the write: the counter and the frame come
before it. -/
def step (s : State ι) : Label ι → Option (State ι)
  | .call i send =>
    match s.phase i with
    | .idle =>
      match send.command with
      | .error _ => some s
      | .ok command => some (s.setPhase i (.checked command))
    | _ => none
  | .nextCnt i =>
    match s.phase i with
    | .checked command =>
      some { s.setPhase i (.counted command s.cnt s.issued) with
        cnt := s.cnt + 1, issued := s.issued + 1 }
    | _ => none
  | .encode i =>
    match s.phase i with
    | .counted command cnt number =>
      some (s.setPhase i (.encoded command (FlyControl.encode cnt command) number))
    | _ => none
  | .lock i =>
    match s.phase i, s.sendMutex with
    | .encoded command frame number, none =>
      some { s.setPhase i (.writing command frame number) with sendMutex := some i }
    | _, _ => none
  | .write i =>
    match s.phase i with
    | .writing command (b :: rest) number =>
      some { s.setPhase i (.writing command rest number) with wire := s.wire ++ [b] }
    | _ => none
  | .unlock i =>
    match s.phase i with
    | .writing _ _ _ => some { s.setPhase i .idle with sendMutex := none }
    | _ => none

/-- A step, one constructor for each way one is taken. -/
inductive Steps (s : State ι) : Label ι → State ι → Prop
  | rejected {i send e} : s.phase i = .idle → send.command = .error e → Steps s (.call i send) s
  | accepted {i send command} : s.phase i = .idle → send.command = .ok command →
      Steps s (.call i send) (s.setPhase i (.checked command))
  | nextCnt {i command} : s.phase i = .checked command →
      Steps s (.nextCnt i) { s.setPhase i (.counted command s.cnt s.issued) with
        cnt := s.cnt + 1, issued := s.issued + 1 }
  | encode {i command cnt number} : s.phase i = .counted command cnt number →
      Steps s (.encode i) (s.setPhase i (.encoded command (FlyControl.encode cnt command) number))
  | lock {i command frame number} : s.phase i = .encoded command frame number →
      s.sendMutex = none →
      Steps s (.lock i) { s.setPhase i (.writing command frame number) with sendMutex := some i }
  | write {i command b rest number} : s.phase i = .writing command (b :: rest) number →
      Steps s (.write i) { s.setPhase i (.writing command rest number) with wire := s.wire ++ [b] }
  | unlock {i command rest number} : s.phase i = .writing command rest number →
      Steps s (.unlock i) { s.setPhase i .idle with sendMutex := none }

/-- A step is taken in one of these ways. -/
theorem step_steps {s t : State ι} {l : Label ι} (h : step s l = some t) : Steps s l t := by
  cases l with
  | call i send =>
    simp only [step] at h
    split at h
    · next hi =>
      split at h
      · next e he => cases h; exact .rejected hi he
      · next command hc => cases h; exact .accepted hi hc
    · cases h
  | nextCnt i =>
    simp only [step] at h
    split at h
    · next hi => cases h; exact .nextCnt hi
    · cases h
  | encode i =>
    simp only [step] at h
    split at h
    · next hi => cases h; exact .encode hi
    · cases h
  | lock i =>
    simp only [step] at h
    split at h
    · next hi hm => cases h; exact .lock hi hm
    · cases h
  | write i =>
    simp only [step] at h
    split at h
    · next hi => cases h; exact .write hi
    · cases h
  | unlock i =>
    simp only [step] at h
    split at h
    · next hi => cases h; exact .unlock hi
    · cases h

end

/-! ## What every run keeps -/

/-- One call of `serial_.Write`: the bytes of a frame the port has taken. -/
structure Write where
  command : Command
  number : Nat
  bytes : List Byte

/-- The frame that carries this number. -/
def numbered (number : Nat) (command : Command) : List Byte :=
  FlyControl.encode (UInt8.ofNat number) command

/-- The number of a client between `NextCnt` and its write. -/
def Phase.pending : Phase → Option Nat
  | .counted _ _ number | .encoded _ _ number => some number
  | _ => none

section
variable {ι : Type}

/-- What is known of a client that stands there, with these writes on the wire. -/
def Phase.Ok (sendMutex : Option ι) (writes : List Write) (i : ι) : Phase → Prop
  | .idle | .checked _ => True
  | .counted _ cnt number => cnt = UInt8.ofNat number
  | .encoded command frame number => frame = numbered number command
  | .writing command rest number => sendMutex = some i ∧ ∃ front bytes,
      writes = front ++ [⟨command, number, bytes⟩] ∧ bytes ++ rest = numbered number command

/-- The wire carries the writes one behind the other, and every number ever taken is that of one
write, or of one client that has still to write. -/
structure Inv (s : State ι) (writes : List Write) : Prop where
  cnt : s.cnt = UInt8.ofNat s.issued
  wire : s.wire = (writes.map Write.bytes).flatten
  ok : ∀ i, (s.phase i).Ok s.sendMutex writes i
  frames : ∀ w ∈ writes, w.bytes <+: numbered w.number w.command
  nodup : (writes.map Write.number).Nodup
  pending_inj : ∀ i j n, (s.phase i).pending = some n → (s.phase j).pending = some n → i = j
  pending_new : ∀ i n, (s.phase i).pending = some n → n ∉ writes.map Write.number
  covered : ∀ n, n < s.issued ↔
    n ∈ writes.map Write.number ∨ ∃ i, (s.phase i).pending = some n

/-- Before the first call nothing has been counted and nothing is on the wire. -/
theorem inv_init : Inv ({} : State ι) [] where
  cnt := rfl
  wire := rfl
  ok := fun _ => trivial
  frames := by simp
  nodup := List.nodup_nil
  pending_inj := fun _ _ _ h => by cases h
  pending_new := fun _ _ h => by cases h
  covered := by simp [Phase.pending]

/-- At most one client has a number still to write. -/
def OnePending (s : State ι) : Prop :=
  ∀ i j n m, (s.phase i).pending = some n → (s.phase j).pending = some m → i = j

/-- The only number that can follow is the next one. -/
theorem Inv.number_eq {s : State ι} {writes : List Write} (hi : Inv s writes) (h1 : OnePending s)
    (ho : writes.map Write.number = List.range writes.length) {i : ι} {n : Nat}
    (hn : (s.phase i).pending = some n) : n = writes.length := by
  have hcov : ∀ m, m < s.issued ↔ m < writes.length ∨ m = n := by
    intro m
    rw [hi.covered, ho, List.mem_range]
    constructor
    · rintro (h | ⟨j, hj⟩)
      · exact .inl h
      · obtain rfl := h1 i j n m hn hj
        exact .inr (Option.some.inj (hj.symm.trans hn))
    · rintro (h | rfl)
      · exact .inl h
      · exact .inr ⟨i, hn⟩
  have hnew := hi.pending_new i n hn
  rw [ho, List.mem_range] at hnew
  have hlt := (hcov n).2 (.inr rfl)
  have := hcov writes.length
  omega

end

/-! ## Every step keeps it -/

section
variable {ι : Type} [DecidableEq ι]

/-- Only the one client has gone on. -/
@[simp] theorem setPhase_phase (s : State ι) (i j : ι) (p : Phase) :
    (s.setPhase i p).phase j = if j = i then p else s.phase j := Function.update_apply _ _ _ _

/-- Going on issues no number. -/
@[simp] theorem setPhase_issued (s : State ι) (i : ι) (p : Phase) :
    (s.setPhase i p).issued = s.issued := rfl

/-- A step inside a client that neither takes a number nor writes. -/
theorem Inv.setPhase {s : State ι} {writes : List Write} (hi : Inv s writes) {i : ι} {p : Phase}
    (hok : p.Ok s.sendMutex writes i) (hp : p.pending = (s.phase i).pending) :
    Inv (s.setPhase i p) writes := by
  have hpending : ∀ j, ((s.setPhase i p).phase j).pending = (s.phase j).pending := by
    intro j
    rw [setPhase_phase]
    split
    · next hj => rw [hj, hp]
    · rfl
  refine { hi with ok := ?_, pending_inj := ?_, pending_new := ?_, covered := ?_ }
  · intro j
    rw [setPhase_phase]
    split
    · next hj => exact hj ▸ hok
    · exact hi.ok j
  · simpa only [hpending] using hi.pending_inj
  · simpa only [hpending] using hi.pending_new
  · simpa only [hpending, setPhase_issued] using hi.covered

/-- A client takes the next number. Nobody has it yet, so it stays with this client until its frame
is written. -/
theorem Inv.nextCnt {s : State ι} {writes : List Write} (hi : Inv s writes) {i : ι}
    {command : Command} (hp : s.phase i = .checked command) :
    Inv { s.setPhase i (.counted command s.cnt s.issued) with
      cnt := s.cnt + 1, issued := s.issued + 1 } writes where
  cnt := by
    show s.cnt + 1 = UInt8.ofNat (s.issued + 1)
    rw [hi.cnt, UInt8.ofNat_add]
    rfl
  wire := hi.wire
  ok := by
    intro j
    show ((s.setPhase i _).phase j).Ok s.sendMutex writes j
    rw [setPhase_phase]
    split
    · exact hi.cnt
    · exact hi.ok j
  frames := hi.frames
  nodup := hi.nodup
  pending_inj := by
    -- the new number is greater than every number taken before
    intro j k n hj hk
    have hfresh : ∀ j n, (s.phase j).pending = some n → n < s.issued :=
      fun j n h => (hi.covered n).2 (.inr ⟨j, h⟩)
    simp only [setPhase_phase] at hj hk
    grind [hi.pending_inj, Phase.pending]
  pending_new := by
    intro j n hj
    have hfresh : s.issued ∉ writes.map Write.number :=
      fun h => Nat.lt_irrefl _ ((hi.covered s.issued).2 (.inl h))
    simp only [setPhase_phase] at hj
    grind [hi.pending_new, Phase.pending]
  covered := by
    intro n
    simp only [setPhase_phase, Nat.lt_succ_iff_lt_or_eq, hi.covered]
    grind [Phase.pending]

/-- A client begins to write. There is no other one that writes, so its frame is the last on the
wire. -/
theorem Inv.lock {s : State ι} {writes : List Write} (hi : Inv s writes) {i : ι}
    {command : Command} {frame : List Byte} {number : Nat}
    (hp : s.phase i = .encoded command frame number) (hm : s.sendMutex = none) :
    Inv { s.setPhase i (.writing command frame number) with sendMutex := some i }
      (writes ++ [⟨command, number, []⟩]) where
  cnt := hi.cnt
  wire := by
    show s.wire = _
    simp [hi.wire]
  ok := by
    intro j
    have hj := hi.ok j
    show ((s.setPhase i _).phase j).Ok (some i) (writes ++ [⟨command, number, []⟩]) j
    rw [setPhase_phase]
    split
    · next hji =>
      subst hji
      rw [hp] at hj
      exact ⟨rfl, writes, [], rfl, hj⟩
    · -- nobody else is writing: the lock was free
      cases hph : s.phase j with
      | writing c rest n =>
        rw [hph] at hj
        cases hm.symm.trans hj.1
      | _ => rw [hph] at hj; exact hj
  frames := by
    intro w hw
    rcases List.mem_append.1 hw with hw | hw
    · exact hi.frames w hw
    · rw [List.mem_singleton.1 hw]
      exact List.nil_prefix
  nodup := by
    rw [List.map_append]
    refine hi.nodup.append (List.nodup_singleton _) ?_
    rw [List.map_singleton, List.disjoint_singleton]
    exact hi.pending_new i number (by rw [hp]; rfl)
  pending_inj := by
    intro j k n hj hk
    simp only [setPhase_phase] at hj hk
    grind [hi.pending_inj, Phase.pending]
  pending_new := by
    intro j n hj
    have hne : ∀ j, (s.phase j).pending = some number → j = i :=
      fun j h => hi.pending_inj j i number h (by rw [hp]; rfl)
    simp only [setPhase_phase] at hj
    grind [hi.pending_new, Phase.pending]
  covered := by
    intro n
    have hn : (s.phase i).pending = some number := by rw [hp]; rfl
    simp only [setPhase_phase]
    show n < s.issued ↔ _
    rw [hi.covered]
    grind [Phase.pending]

/-- A byte goes out: it is the next one of the frame under write. -/
theorem Inv.write {s : State ι} {writes : List Write} (hi : Inv s writes) {i : ι}
    {command : Command} {b : Byte} {rest : List Byte} {number : Nat}
    (hp : s.phase i = .writing command (b :: rest) number) :
    ∃ writes', Inv { s.setPhase i (.writing command rest number) with wire := s.wire ++ [b] }
        writes' ∧ writes'.map Write.number = writes.map Write.number := by
  have hok := hi.ok i
  rw [hp] at hok
  obtain ⟨hm, front, bytes, rfl, hb⟩ := hok
  have hpending : ∀ j, ((s.setPhase i (.writing command rest number)).phase j).pending =
      (s.phase j).pending := by
    intro j
    rw [setPhase_phase]
    split
    · next hj => rw [hj, hp]; rfl
    · rfl
  have hnum : (front ++ [Write.mk command number (bytes ++ [b])]).map Write.number =
      (front ++ [Write.mk command number bytes]).map Write.number := by simp
  refine ⟨front ++ [⟨command, number, bytes ++ [b]⟩], ⟨hi.cnt, ?_, ?_, ?_, ?_, ?_, ?_, ?_⟩, hnum⟩
  · show s.wire ++ [b] = _
    simp [hi.wire]
  · intro j
    have hj := hi.ok j
    show ((s.setPhase i _).phase j).Ok s.sendMutex _ j
    rw [setPhase_phase]
    split
    · next hji =>
      subst hji
      exact ⟨hm, front, bytes ++ [b], rfl, by rw [List.append_assoc]; exact hb⟩
    · next hji =>
      cases hph : s.phase j with
      | writing c r n =>
        rw [hph] at hj
        exact absurd (Option.some.inj (hj.1.symm.trans hm)) hji
      | _ => rw [hph] at hj; exact hj
  · intro w hw
    rcases List.mem_append.1 hw with hw | hw
    · exact hi.frames w (List.mem_append_left _ hw)
    · rw [List.mem_singleton.1 hw]
      exact ⟨rest, by rw [List.append_assoc]; exact hb⟩
  · rw [hnum]
    exact hi.nodup
  · simpa only [hpending] using hi.pending_inj
  · simpa only [hpending, hnum] using hi.pending_new
  · simpa only [hpending, hnum, setPhase_issued] using hi.covered

/-- A client has done writing, and another one may begin. -/
theorem Inv.unlock {s : State ι} {writes : List Write} (hi : Inv s writes) {i : ι}
    {command : Command} {rest : List Byte} {number : Nat}
    (hp : s.phase i = .writing command rest number) :
    Inv { s.setPhase i .idle with sendMutex := none } writes := by
  have hpending : ∀ j, ((s.setPhase i .idle).phase j).pending = (s.phase j).pending := by
    intro j
    rw [setPhase_phase]
    split
    · next hj => rw [hj, hp]; rfl
    · rfl
  have hok := hi.ok i
  rw [hp] at hok
  refine ⟨hi.cnt, hi.wire, ?_, hi.frames, hi.nodup, ?_, ?_, ?_⟩
  · intro j
    have hj := hi.ok j
    show ((s.setPhase i _).phase j).Ok none writes j
    rw [setPhase_phase]
    split
    · trivial
    · next hji =>
      cases hph : s.phase j with
      | writing c r n =>
        rw [hph] at hj
        exact absurd (Option.some.inj (hj.1.symm.trans hok.1)) hji
      | _ => rw [hph] at hj; exact hj
  · simpa only [hpending] using hi.pending_inj
  · simpa only [hpending] using hi.pending_new
  · simpa only [hpending, setPhase_issued] using hi.covered

/-- **A step keeps the invariant.** What it adds to the order on the wire, if anything, is the
number of a client that had still to write. -/
theorem Inv.step {s t : State ι} {writes : List Write} (hi : Inv s writes) {l : Label ι}
    (h : step s l = some t) : ∃ writes', Inv t writes' ∧
      (writes'.map Write.number = writes.map Write.number ∨ ∃ i n, (s.phase i).pending = some n ∧
        writes'.map Write.number = writes.map Write.number ++ [n]) := by
  cases step_steps h with
  | rejected => exact ⟨writes, hi, .inl rfl⟩
  | accepted hp => exact ⟨writes, hi.setPhase trivial (by rw [hp]; rfl), .inl rfl⟩
  | nextCnt hp => exact ⟨writes, hi.nextCnt hp, .inl rfl⟩
  | @encode i command cnt number hp =>
    have hok := hi.ok i
    rw [hp] at hok
    obtain rfl : cnt = UInt8.ofNat number := hok
    exact ⟨writes, hi.setPhase rfl (by rw [hp]; rfl), .inl rfl⟩
  | lock hp hm => exact ⟨_, hi.lock hp hm, .inr ⟨_, _, by rw [hp]; rfl, List.map_append⟩⟩
  | write hp =>
    obtain ⟨writes', h', hn⟩ := hi.write hp
    exact ⟨writes', h', .inl hn⟩
  | unlock hp => exact ⟨writes, hi.unlock hp, .inl rfl⟩

/-- A client comes to have a number still to write only by `NextCnt`. -/
theorem pending_of_step {s t : State ι} {l : Label ι} (h : FlyControl.step s l = some t) {j : ι}
    {n : Nat} (hj : (t.phase j).pending = some n) :
    (s.phase j).pending = some n ∨ l = .nextCnt j := by
  cases step_steps h with
  | rejected => exact .inl hj
  | nextCnt =>
    simp only [setPhase_phase] at hj
    split at hj
    · next hji => exact .inr (hji ▸ rfl)
    · exact .inl hj
  | encode hp =>
    simp only [setPhase_phase] at hj
    split at hj
    · next hji => exact .inl (by rw [hji, hp]; exact hj)
    · exact .inl hj
  | accepted | lock | write | unlock =>
    simp only [setPhase_phase] at hj
    split at hj
    · cases hj
    · exact .inl hj

/-! ## Runs -/

/-- The step takes a number. -/
def Label.isNextCnt : Label ι → Bool
  | .nextCnt _ => true
  | _ => false

/-- Every call of `NextCnt` is counted, and nothing else is. -/
theorem issued_run {ls : List (Label ι)} {s : State ι} (h : run FlyControl.step {} ls = some s) :
    s.issued = ls.countP Label.isNextCnt := by
  refine run_induction (P := fun ls s => s.issued = ls.countP Label.isNextCnt) rfl ?_ h
  intro ls s l t _ ih hl
  rw [List.countP_append, ← ih]
  cases step_steps hl <;> rfl

/-- Whoever calls `NextCnt` calls it when no client has a number still to write. -/
def Unhurried (ls : List (Label ι)) : Prop :=
  ∀ front i back s, ls = front ++ .nextCnt i :: back → run FlyControl.step {} front = some s →
    ∀ j, (s.phase j).pending = none

/-- Every run keeps the invariant, and in a run in which each client writes before the next one
counts, the frames are in the order of their numbers. -/
theorem inv_run {ls : List (Label ι)} {s : State ι} (h : run FlyControl.step {} ls = some s) :
    ∃ writes, Inv s writes ∧ (Unhurried ls →
      writes.map Write.number = List.range writes.length ∧ OnePending s) := by
  refine run_induction (P := fun ls s => ∃ writes, Inv s writes ∧ (Unhurried ls →
    writes.map Write.number = List.range writes.length ∧ OnePending s)) ?_ ?_ h
  · exact ⟨[], inv_init, fun _ => ⟨rfl, fun _ _ _ _ h => by cases h⟩⟩
  intro ls s l t hrun ⟨writes, hi, hord⟩ hl
  obtain ⟨writes', hi', hw⟩ := hi.step hl
  refine ⟨writes', hi', fun hu => ?_⟩
  have hu' : Unhurried ls := by
    intro front i back s' hls hs'
    exact hu front i (back ++ [l]) s' (by rw [hls]; simp) hs'
  obtain ⟨ho, h1⟩ := hord hu'
  constructor
  · have hlen : ∀ ws : List Write, ws.length = (ws.map Write.number).length := by simp
    rcases hw with hw | ⟨i, n, hn, hw⟩
    · rw [hlen writes', hw, ← hlen, ho]
    · rw [hlen writes', hw, ho, hi.number_eq h1 ho hn, ← List.range_succ]
      simp
  · intro j k n m hj hk
    have hnone : ∀ i, l = .nextCnt i → ∀ j, (s.phase j).pending = none :=
      fun i hli => hu ls i [] s (by rw [hli]) hrun
    rcases pending_of_step hl hj with hj' | hj' <;> rcases pending_of_step hl hk with hk' | hk'
    · exact h1 j k n m hj' hk'
    · cases (hnone k hk' j).symm.trans hj'
    · cases (hnone j hj' k).symm.trans hk'
    · exact Label.nextCnt.inj (hj'.symm.trans hk')

/-! ## The counters on the wire -/

/-- The `cnt` byte of the frame. -/
def Write.cnt (w : Write) : Byte := UInt8.ofNat w.number

/-- Each counter is one more than the one before it, modulo 256. -/
def Consecutive (cnts : List Byte) : Prop :=
  ∀ k c d, cnts[k]? = some c → cnts[k + 1]? = some d → d = c + 1

/-- No counter comes again within 256 writes. -/
def NoRepeat (cnts : List Byte) : Prop :=
  ∀ j k c, j < k → k < j + 256 → cnts[j]? = some c → cnts[k]? ≠ some c

/-- The counter behind `k` frames is `k`, cut to a byte. -/
theorem getElem?_counters {n k : Nat} {c : Byte}
    (h : ((List.range n).map UInt8.ofNat)[k]? = some c) : c = UInt8.ofNat k := by
  obtain ⟨hk, rfl⟩ := List.getElem?_eq_some_iff.1 h
  simp

/-- Counters that are taken one by one are consecutive, also where the byte wraps. -/
theorem consecutive_range (n : Nat) : Consecutive ((List.range n).map UInt8.ofNat) := by
  intro k c d hc hd
  rw [getElem?_counters hc, getElem?_counters hd]
  exact UInt8.ofNat_add k 1

/-- No counter comes twice among 256 that follow each other. -/
theorem noRepeat_range (n : Nat) : NoRepeat ((List.range n).map UInt8.ofNat) := by
  intro j k c hjk hk hc hd
  have hjk' := (getElem?_counters hc).symm.trans (getElem?_counters hd)
  have := congrArg UInt8.toNat hjk'
  rw [UInt8.toNat_ofNat', UInt8.toNat_ofNat'] at this
  omega

/-- **The wire of concurrent senders.** Whatever the interleaving, a call whose arguments fail the
check changes nothing, the wire carries one frame (or the start of one, where the port stopped
early) behind the other, and each carries a number of its own; once every call has returned, these
are all the numbers taken. Where no client takes a number while another has still to write, the
counters follow one another. -/
theorem send_wire {ls : List (Label ι)} {s : State ι} (h : run FlyControl.step {} ls = some s) :
    (∀ i send e t, send.command = .error e → FlyControl.step s (.call i send) = some t → t = s) ∧
    ∃ writes : List Write,
      s.wire = (writes.map Write.bytes).flatten ∧
      (∀ w ∈ writes, w.bytes <+: numbered w.number w.command) ∧
      (writes.map Write.number).Nodup ∧
      (∀ w ∈ writes, w.number < ls.countP Label.isNextCnt) ∧
      ((∀ i, s.phase i = .idle) →
        (writes.map Write.number).Perm (List.range (ls.countP Label.isNextCnt))) ∧
      (Unhurried ls → Consecutive (writes.map Write.cnt) ∧ NoRepeat (writes.map Write.cnt)) := by
  constructor
  · intro i send e t he ht
    cases step_steps ht with
    | rejected => rfl
    | accepted _ hc => cases he.symm.trans hc
  obtain ⟨writes, hi, hord⟩ := inv_run h
  have hissued := issued_run h
  refine ⟨writes, hi.wire, hi.frames, hi.nodup, ?_, ?_, ?_⟩
  · intro w hw
    rw [← hissued]
    exact (hi.covered _).2 (.inl (List.mem_map_of_mem hw))
  · intro hidle
    refine (List.perm_ext_iff_of_nodup hi.nodup List.nodup_range).2 fun n => ?_
    rw [List.mem_range, ← hissued, hi.covered]
    simp [hidle, Phase.pending]
  · intro hu
    have hcnt : writes.map Write.cnt = (List.range writes.length).map UInt8.ofNat := by
      rw [← (hord hu).1, List.map_map]
      rfl
    rw [hcnt]
    exact ⟨consecutive_range _, noRepeat_range _⟩

end

/-- The condition, step by step. -/
theorem unhurried_of_along {ι : Type} [DecidableEq ι] {ls : List (Label ι)}
    (h : Along step (fun s l => l.isNextCnt = true → ∀ j, (s.phase j).pending = none) {} ls) :
    Unhurried ls := by
  intro front i back s hls hs
  exact along_iff.1 h front (.nextCnt i) back hls s hs rfl

/-- Two clients send a speed. The second one takes its number and encodes its frame while the first
one is writing, and waits for the lock. -/
def inTurn : List (Label Bool) :=
  [.call false (.setSpeed 1), .call true (.setSpeed 2), .nextCnt false, .encode false,
    .lock false] ++ List.replicate 5 (.write false) ++ [.nextCnt true, .encode true] ++
    List.replicate 5 (.write false) ++ [.unlock false, .lock true] ++
    List.replicate 10 (.write true) ++ [.unlock true]

/-- Two clients send one behind the other: both frames are on the wire whole, with the counters 0
and 1. -/
theorem send_wire_inTurn : ∃ s : State Bool, run step {} inTurn = some s ∧
    (drain s.wire).1.map ParsedFrame.cnt = [0, 1] ∧
    ∃ writes : List Write, writes.length = 2 ∧ s.wire = (writes.map Write.bytes).flatten ∧
      Consecutive (writes.map Write.cnt) ∧ NoRepeat (writes.map Write.cnt) := by
  have hrun : (run step {} inTurn).map (fun s => ((drain s.wire).1.map ParsedFrame.cnt,
      decide (∀ i, (s.phase i matches .idle) = true))) = some ([0, 1], true) := by decide
  obtain ⟨s, hs, hend⟩ := Option.map_eq_some_iff.1 hrun
  obtain ⟨hcnt, hidle⟩ := Prod.mk.inj hend
  have hall : ∀ i, s.phase i = .idle := by
    intro i
    have := of_decide_eq_true hidle i
    cases hp : s.phase i <;> simp [hp] at this ⊢
  obtain ⟨-, writes, hw, -, -, -, hnumbers, hu⟩ := send_wire hs
  have hlength := (hnumbers hall).length_eq
  rw [List.length_map, List.length_range] at hlength
  exact ⟨s, hs, hcnt, writes, hlength, hw, hu (unhurried_of_along (by decide))⟩

/-- Two clients send a speed; the first to take a number is the second to write. -/
def overtaking : List (Label Bool) :=
  [.call false (.setSpeed 0), .call true (.setSpeed 0), .nextCnt false, .nextCnt true,
    .encode false, .encode true, .lock true] ++ List.replicate 10 (.write true) ++
    [.unlock true, .lock false] ++ List.replicate 10 (.write false) ++ [.unlock false]

/-- The frames of `overtaking` arrive with counters 1, 0. -/
theorem overtaking_not_consecutive :
    ¬ ∀ (ls : List (Label Bool)) (s : State Bool), run step {} ls = some s →
      Consecutive ((drain s.wire).1.map ParsedFrame.cnt) := by
  intro h
  have hrun : (run step {} overtaking).map (fun s => (drain s.wire).1.map ParsedFrame.cnt) =
      some [1, 0] := by decide
  obtain ⟨s, hs, hcnt⟩ := Option.map_eq_some_iff.1 hrun
  have hc := h overtaking s hs
  rw [hcnt] at hc
  exact absurd (hc 0 1 0 rfl rfl) (by decide)

end FlyControl
