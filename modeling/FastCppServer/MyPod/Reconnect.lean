import FastCppServer.Lib.Parties
import FastCppServer.MyPod.Pod

/-!
# Connection attempts of a `PinlingPod`

`connect`, `disconnect`, `refreshDeviceStatus` and the operations of the PTZ, on any number of
threads, access by access. `ensureSdkConnection` takes the flag `reconnecting_` for an attempt, but
what it has checked before may no longer hold when it gets it: the enabling flag, the time of the
last attempt and the clock have been read one by one. And `connect` makes its attempt without the
flag. So attempts exclude each other and keep the cool-down as long as `connect` comes when nobody
else makes one, and nothing of what a thread has checked is changed by others until its attempt
starts (`safe_of_careful`).

What the world answers is open: whether `BasePod::connect` succeeds, whether the device is reached
and linked, and how an attempt ends. A thread counts as being in `connectFromConfig` from the store
before the call on, which is the start of the attempt.
-/

namespace PodModule

namespace Reconnect

open Function Parties Transition

universe u

/-- Where a thread is. -/
inductive Location where
  | idle
  /-- In `BasePod::connect`. -/
  | connectingBase
  | enabling
  /-- In `connectFromConfig`, called by `connect`. -/
  | connecting
  | disabling
  /-- In `refreshDeviceStatus`, before the ping. -/
  | refreshing
  | deciding
  /-- In `ensureSdkConnection`. -/
  | entering
  | checkingOnline
  | checkingEnabled
  | readingClock
  | readingLast (nowMs : UInt64)
  | takingFlag (nowMs : UInt64)
  | stamping (nowMs : UInt64)
  /-- In `connectFromConfig`, called by `ensureSdkConnection`. -/
  | reconnecting
  | releasing
  deriving DecidableEq

namespace Location

/-- In `connectFromConfig`. -/
def inside : Location → Bool
  | connecting | reconnecting => true
  | _ => false

/-- Between taking the flag and giving it back. -/
def holds : Location → Bool
  | stamping _ | reconnecting | releasing => true
  | _ => false

/-- What should exclude each other: an attempt, and what comes to one at once. -/
def busy : Location → Bool
  | connecting | stamping _ | reconnecting => true
  | _ => false

/-- The enabling flag has been found set, and the attempt has not started. -/
def foundEnabled : Location → Bool
  | readingClock | readingLast _ | takingFlag _ | stamping _ => true
  | _ => false

/-- The time that has been read, and that the attempt is to start at. -/
def time : Location → Option UInt64
  | readingLast nowMs | takingFlag nowMs | stamping nowMs => some nowMs
  | _ => none

/-- The time at which the cool-down has been found to be over. -/
def foundCool : Location → Option UInt64
  | takingFlag nowMs | stamping nowMs => some nowMs
  | _ => none

end Location

/-- What happens to the attempts. -/
inductive Event where
  /-- `connect` enables the automatic attempts. -/
  | enabled
  /-- `disconnect` disables them. -/
  | disabled
  /-- An automatic attempt starts. -/
  | attempt (nowMs : UInt64)
  deriving DecidableEq

/-- What has happened since a thread has looked. -/
structure Since where
  /-- The automatic attempts have been disabled, and not enabled again. -/
  disabled : Bool := false
  /-- An automatic attempt has started. -/
  attempted : Bool := false
  /-- The clock has gone on. -/
  ticked : Bool := false
  deriving DecidableEq

/-- The device with its threads, and the history that the promise is about. -/
structure Pinling (ι : Type u) where
  threads : ι → Location := fun _ => .idle
  steadyMs : UInt64 := 0
  ptzEnabled : Bool := true
  /-- `cached_status_.state` is `CONNECTED`. -/
  online : Bool := false
  sdkReconnectEnabled : Bool := false
  reconnecting : Bool := false
  lastReconnectAttemptMs : UInt64 := 0
  events : List Event := []
  /-- A history, for the threads in `ensureSdkConnection`; the code has nothing of it. -/
  since : ι → Since := fun _ => {}

/-- The calls. -/
inductive Call where
  | connect
  | disconnect
  | refreshDeviceStatus
  /-- An operation of the PTZ. -/
  | operation
  deriving DecidableEq

/-- The clock goes on, a thread makes a call, or it comes to its next access or answer. -/
inductive Label (ι : Type u) where
  | tick (nowMs : UInt64)
  | call (i : ι) (c : Call)
  /-- The next access of the thread. -/
  | go (i : ι)
  /-- The thread gets an answer. -/
  | answer (i : ι) (b : Bool)

section
variable {ι : Type u} [DecidableEq ι]

namespace Pinling

/-- A thread goes to another place. -/
def put (m : Pinling ι) (i : ι) (p : Location) : Pinling ι :=
  { m with threads := update m.threads i p }

/-- What all threads are to know that have looked before. -/
def note (m : Pinling ι) (f : Since → Since) : Pinling ι :=
  { m with since := fun j => f (m.since j) }

/-- The thread looks. -/
def look (m : Pinling ι) (i : ι) (f : Since → Since) : Pinling ι :=
  { m with since := update m.since i (f (m.since i)) }

/-- A call begins. -/
def call (m : Pinling ι) (i : ι) (c : Call) : Pinling ι :=
  m.put i <|
    match c with
    | .connect => .connectingBase
    | .disconnect => .disabling
    | .refreshDeviceStatus => .refreshing
    | .operation => .entering

/-- The cool-down is over, as a thread sees it that has read the time. -/
def cooledDown (m : Pinling ι) (nowMs : UInt64) : Prop :=
  m.lastReconnectAttemptMs = 0 ∨
    Pod.kReconnectCooldownMs ≤ (nowMs - m.lastReconnectAttemptMs).toNat

instance (m : Pinling ι) (nowMs : UInt64) : Decidable (m.cooledDown nowMs) :=
  inferInstanceAs (Decidable (_ ∨ _))

/-- The store of the enabling flag. -/
def enable (m : Pinling ι) (i : ι) : Pinling ι :=
  { (m.put i .connecting).note fun n => { n with disabled := false } with
    sdkReconnectEnabled := true, events := m.events ++ [.enabled] }

/-- `disconnect`, or a `connect` without a PTZ. -/
def disable (m : Pinling ι) (i : ι) (events : List Event) : Pinling ι :=
  { (m.put i .idle).note fun n => { n with disabled := true } with
    sdkReconnectEnabled := false, events := m.events ++ events }

/-- The store of the time, with which an attempt starts. -/
def stamp (m : Pinling ι) (i : ι) (nowMs : UInt64) : Pinling ι :=
  { (m.put i .reconnecting).note fun n => { n with attempted := true } with
    lastReconnectAttemptMs := nowMs, events := m.events ++ [.attempt m.steadyMs] }

/-- The next access of a thread to what they share. -/
def go (m : Pinling ι) (i : ι) : Location → Option (Pinling ι)
  | .enabling => some (if m.ptzEnabled then m.enable i else m.disable i [])
  | .disabling => some (m.disable i [.disabled])
  | .checkingOnline => some (m.put i (if m.online then .checkingEnabled else .idle))
  | .checkingEnabled =>
    some ((m.put i (if m.sdkReconnectEnabled then .readingClock else .idle)).look i
      fun n => { n with disabled := false })
  | .readingClock =>
    some ((m.put i (.readingLast m.steadyMs)).look i
      fun n => { n with attempted := false, ticked := false })
  | .readingLast nowMs => some (m.put i (if m.cooledDown nowMs then .takingFlag nowMs else .idle))
  | .takingFlag nowMs =>
    some (if m.reconnecting then m.put i .idle
    else { m.put i (.stamping nowMs) with reconnecting := true })
  | .stamping nowMs => some (m.stamp i nowMs)
  | .releasing => some { m.put i .idle with reconnecting := false }
  | _ => none

/-- The answers: `BasePod::connect` succeeds; the device is reached; the SDK is linked; an attempt
returns, or throws past the store that gives the flag back. -/
def answer (m : Pinling ι) (i : ι) (b : Bool) : Location → Option (Pinling ι)
  | .connectingBase => some (m.put i (if b then .enabling else .idle))
  | .connecting => some (m.put i .idle)
  | .refreshing => some { m.put i (if b then .deciding else .idle) with online := b }
  | .deciding => some (m.put i (if m.sdkReconnectEnabled && !b then .entering else .idle))
  | .entering => some (m.put i (if m.ptzEnabled && !b then .checkingOnline else .idle))
  | .reconnecting => some (m.put i (if b then .releasing else .idle))
  | _ => none

end Pinling

/-- One step. A thread whose turn it is not has no successor. -/
def step (m : Pinling ι) : Label ι → Option (Pinling ι)
  | .tick nowMs =>
    if m.steadyMs ≤ nowMs then
      some { m.note fun n => { n with ticked := n.ticked || nowMs != m.steadyMs } with
        steadyMs := nowMs }
    else none
  | .call i c => if m.threads i = .idle then some (m.call i c) else none
  | .go i => m.go i (m.threads i)
  | .answer i b => m.answer i b (m.threads i)

/-! ## The property and the condition -/

/-- The times at which automatic attempts have started. -/
def attempts (events : List Event) : List UInt64 :=
  events.filterMap fun
    | .attempt nowMs => some nowMs
    | _ => none

/-- Since the automatic attempts were disabled last, they have been enabled. -/
def EnabledIn (events : List Event) : Prop :=
  ∀ pre post, events = pre ++ .disabled :: post → .enabled ∈ post

/-- **The promise**: one attempt at a time, the cool-down between two, and none after a
disconnection. -/
structure Safe (m : Pinling ι) : Prop where
  exclusive : AtMostOne (fun p : Location => p.inside = true) m.threads
  apart : (attempts m.events).Pairwise fun s t => s.toNat + Pod.kReconnectCooldownMs ≤ t.toNat
  enabled : ∀ pre nowMs post, m.events = pre ++ .attempt nowMs :: post → EnabledIn pre

/-- `connect` comes when no other thread is in `connectFromConfig` or has just taken the flag for
it, and the flag is not taken while `connect` is in there. From where a thread has read the enabling
flag, nobody disables the attempts until its own starts, unless they are enabled again; and from
where it has read the clock, no attempt starts and the clock does not go on. -/
def CarefulAt (m : Pinling ι) (i : ι) : Location → Prop
  | .enabling => m.ptzEnabled = true → ∀ j, (m.threads j).busy = false
  | .takingFlag _ => m.reconnecting = false → ∀ j, m.threads j ≠ .connecting
  | .stamping nowMs => m.since i = {} ∧ nowMs ≠ 0
  | _ => True

/-- What a step has to respect, which is a matter of the access that comes next. -/
def Careful (m : Pinling ι) : Label ι → Prop
  | .go i => CarefulAt m i (m.threads i)
  | _ => True

instance [Fintype ι] (m : Pinling ι) (i : ι) : ∀ p, Decidable (CarefulAt m i p)
  | .enabling => inferInstanceAs (Decidable (_ → _))
  | .takingFlag _ => inferInstanceAs (Decidable (_ → _))
  | .stamping _ => inferInstanceAs (Decidable (_ ∧ _))
  | .idle | .connectingBase | .connecting | .disabling | .refreshing | .deciding | .entering
  | .checkingOnline | .checkingEnabled | .readingClock | .readingLast _ | .reconnecting
  | .releasing => isTrue trivial

instance [Fintype ι] (m : Pinling ι) : ∀ l, Decidable (Careful m l)
  | .go i => inferInstanceAs (Decidable (CarefulAt m i (m.threads i)))
  | .tick _ | .call _ _ | .answer _ _ => isTrue trivial

/-! ## The events -/

omit [DecidableEq ι]

/-- The attempts of a longer history. -/
theorem attempts_concat (events : List Event) (e : Event) :
    attempts (events ++ [e]) = attempts events ++ attempts [e] := List.filterMap_append

/-- A place in a list that has grown is its new end, or was there before. -/
theorem split_concat {events pre post : List Event} {e x : Event}
    (h : events ++ [e] = pre ++ x :: post) :
    events = pre ∧ e = x ∨ ∃ post', post = post' ++ [e] ∧ events = pre ++ x :: post' := by
  cases post using List.reverseRecOn with
  | nil =>
    obtain ⟨hpre, hx⟩ := List.append_inj' h rfl
    exact .inl ⟨hpre, (List.cons.inj hx).1⟩
  | append_singleton post' y =>
    rw [← List.cons_append, ← List.append_assoc] at h
    obtain ⟨hpre, hy⟩ := List.append_inj' h rfl
    obtain rfl : e = y := (List.cons.inj hy).1
    exact .inr ⟨post', rfl, hpre⟩

/-- After `enabled` reconnecting is enabled. -/
theorem enabledIn_enabled (events : List Event) : EnabledIn (events ++ [.enabled]) := by
  intro pre post h
  rcases split_concat h with ⟨-, hx⟩ | ⟨post', rfl, -⟩
  · cases hx
  · exact List.mem_append_right _ List.mem_cons_self

/-- An attempt does not disable it. -/
theorem EnabledIn.attempt {events : List Event} (h : EnabledIn events) (nowMs : UInt64) :
    EnabledIn (events ++ [.attempt nowMs]) := by
  intro pre post hevents
  rcases split_concat hevents with ⟨-, hx⟩ | ⟨post', rfl, hpre⟩
  · cases hx
  · exact List.mem_append_left _ (h pre post' hpre)

/-- An event that is no attempt, behind events whose attempts were all enabled. -/
theorem enabled_concat {events : List Event} {e : Event}
    (h : ∀ pre nowMs post, events = pre ++ .attempt nowMs :: post → EnabledIn pre)
    (he : ∀ nowMs, e = .attempt nowMs → EnabledIn events) :
    ∀ pre nowMs post, events ++ [e] = pre ++ .attempt nowMs :: post → EnabledIn pre := by
  intro pre nowMs post hevents
  rcases split_concat hevents with ⟨rfl, hx⟩ | ⟨post', -, hpre⟩
  · exact he nowMs hx
  · exact h pre nowMs post' hpre

/-! ## What a thread has checked -/

/-- What a thread has found is still so, unless somebody has changed it since. -/
structure Watched (m : Pinling ι) : Prop where
  enabled : ∀ i, (m.threads i).foundEnabled = true → (m.since i).disabled = false →
    m.sdkReconnectEnabled = true
  clock : ∀ i nowMs, (m.threads i).time = some nowMs → (m.since i).ticked = false →
    nowMs = m.steadyMs
  cool : ∀ i nowMs, (m.threads i).foundCool = some nowMs → (m.since i).attempted = false →
    m.cooledDown nowMs

section
variable [DecidableEq ι] {m m' : Pinling ι} {i : ι} {p : Location}

/-- Looking without a note changes nothing. -/
theorem Pinling.look_id : m.look i id = m := by
  rw [Pinling.look, id_eq, update_eq_self]

/-- A thread takes a step, and may look; the flag `reconnecting_` does not matter. -/
theorem Watched.look (h : Watched m) (f : Since → Since)
    (henabled : p.foundEnabled = true → (f (m.since i)).disabled = false →
      m.sdkReconnectEnabled = true)
    (hclock : ∀ nowMs, p.time = some nowMs → (f (m.since i)).ticked = false → nowMs = m.steadyMs)
    (hcool : ∀ nowMs, p.foundCool = some nowMs → (f (m.since i)).attempted = false →
      m.cooledDown nowMs) :
    Watched ((m.put i p).look i f) where
  enabled j hj := by
    change (update m.threads i p j).foundEnabled = true at hj
    change (update m.since i (f (m.since i)) j).disabled = false → _
    rcases eq_or_ne j i with rfl | hne
    · rw [update_self] at hj ⊢
      exact henabled hj
    · rw [update_of_ne hne] at hj ⊢
      exact h.enabled j hj
  clock j nowMs hj := by
    change (update m.threads i p j).time = some nowMs at hj
    change (update m.since i (f (m.since i)) j).ticked = false → _
    rcases eq_or_ne j i with rfl | hne
    · rw [update_self] at hj ⊢
      exact hclock nowMs hj
    · rw [update_of_ne hne] at hj ⊢
      exact h.clock j nowMs hj
  cool j nowMs hj := by
    change (update m.threads i p j).foundCool = some nowMs at hj
    change (update m.since i (f (m.since i)) j).attempted = false → _
    rcases eq_or_ne j i with rfl | hne
    · rw [update_self] at hj ⊢
      exact hcool nowMs hj
    · rw [update_of_ne hne] at hj ⊢
      exact h.cool j nowMs hj

/-- A thread goes on, knowing no more than before. -/
theorem Watched.put (h : Watched m)
    (henabled : p.foundEnabled = true → (m.threads i).foundEnabled = true)
    (hclock : ∀ nowMs, p.time = some nowMs → (m.threads i).time = some nowMs)
    (hcool : ∀ nowMs, p.foundCool = some nowMs → (m.threads i).foundCool = some nowMs) :
    Watched (m.put i p) := by
  have hlook := h.look (p := p) id (fun hp => h.enabled i (henabled hp))
    (fun nowMs hp => h.clock i nowMs (hclock nowMs hp))
    (fun nowMs hp => h.cool i nowMs (hcool nowMs hp))
  rwa [Pinling.look_id] at hlook

/-- A thread leaves `ensureSdkConnection`, or is not yet at the enabling flag. -/
theorem Watched.leave (h : Watched m) (hp : p.foundEnabled = false) (htime : p.time = none)
    (hcool : p.foundCool = none) :
    Watched (m.put i p) :=
  h.put (fun hp' => by rw [hp] at hp'; cases hp') (fun _ hp' => by rw [htime] at hp'; cases hp')
    fun _ hp' => by rw [hcool] at hp'; cases hp'

/-- Enabling keeps the watch. -/
theorem Watched.enable (h : Watched m) : Watched (m.enable i) := by
  have hput : Watched (m.put i .connecting) := h.leave rfl rfl rfl
  exact ⟨fun _ _ _ => rfl, hput.clock, hput.cool⟩

/-- Disabling keeps the watch: who has seen the flag up knows that it is down now. -/
theorem Watched.disable (h : Watched m) (events : List Event) : Watched (m.disable i events) := by
  have hput : Watched (m.put i .idle) := h.leave rfl rfl rfl
  exact ⟨fun _ _ hd => (by cases hd), hput.clock, hput.cool⟩

/-- Storing the time keeps the watch. -/
theorem Watched.stamp (h : Watched m) (nowMs : UInt64) : Watched (m.stamp i nowMs) := by
  have hput : Watched (m.put i .reconnecting) := h.leave rfl rfl rfl
  exact ⟨hput.enabled, hput.clock, fun _ _ _ ha => by cases ha⟩

/-- **A step of a thread keeps the watch.** -/
theorem Watched.go (h : Watched m) (hs : m.go i (m.threads i) = some m') : Watched m' := by
  cases hp : m.threads i with
  | enabling =>
    rw [hp] at hs
    rw [← Option.some.inj hs]
    split
    · exact h.enable
    · exact h.disable []
  | disabling =>
    rw [hp] at hs
    rw [← Option.some.inj hs]
    exact h.disable _
  | checkingOnline =>
    rw [hp] at hs
    rw [← Option.some.inj hs]
    split
    · exact h.leave rfl rfl rfl
    · exact h.leave rfl rfl rfl
  | checkingEnabled =>
    rw [hp] at hs
    rw [← Option.some.inj hs]
    -- the check itself
    refine h.look _ (fun hfound _ => ?_) (fun nowMs ht => ?_) fun nowMs ht => ?_
    · by_contra hoff
      rw [if_neg hoff] at hfound
      cases hfound
    all_goals
      split at ht
      all_goals cases ht
  | readingClock =>
    rw [hp] at hs
    rw [← Option.some.inj hs]
    refine h.look _ (fun _ hd => h.enabled i (by rw [hp]; rfl) hd) (fun nowMs ht _ => ?_) nofun
    exact (Option.some.inj ht).symm
  | readingLast nowMs =>
    rw [hp] at hs
    rw [← Option.some.inj hs]
    -- the check of the cool-down
    split
    next hcool =>
      have hlook := h.look (p := .takingFlag nowMs) id
        (fun _ hd => h.enabled i (by rw [hp]; rfl) hd)
        (fun nowMs' ht => h.clock i nowMs' (by rw [hp]; exact ht))
        fun nowMs' ht _ => Option.some.inj ht ▸ hcool
      rwa [Pinling.look_id] at hlook
    next => exact h.leave rfl rfl rfl
  | takingFlag nowMs =>
    rw [hp] at hs
    rw [← Option.some.inj hs]
    split
    next => exact h.leave rfl rfl rfl
    next =>
      have hput : Watched (m.put i (.stamping nowMs)) :=
        h.put (fun _ => by rw [hp]; rfl) (fun _ ht => by rw [hp]; exact ht)
          fun _ ht => by rw [hp]; exact ht
      exact ⟨hput.enabled, hput.clock, hput.cool⟩
  | stamping nowMs =>
    rw [hp] at hs
    rw [← Option.some.inj hs]
    exact h.stamp nowMs
  | releasing =>
    rw [hp] at hs
    rw [← Option.some.inj hs]
    have hput : Watched (m.put i .idle) := h.leave rfl rfl rfl
    exact ⟨hput.enabled, hput.clock, hput.cool⟩
  | idle | connectingBase | connecting | refreshing | deciding | entering | reconnecting =>
    rw [hp] at hs
    cases hs

/-- An answer from the device keeps the watch. -/
theorem Watched.answer {b : Bool} (h : Watched m) (hs : m.answer i b (m.threads i) = some m') :
    Watched m' := by
  cases hp : m.threads i with
  | connectingBase | deciding | entering | reconnecting =>
    rw [hp] at hs
    rw [← Option.some.inj hs]
    split
    · exact h.leave rfl rfl rfl
    · exact h.leave rfl rfl rfl
  | connecting =>
    rw [hp] at hs
    rw [← Option.some.inj hs]
    exact h.leave rfl rfl rfl
  | refreshing =>
    rw [hp] at hs
    rw [← Option.some.inj hs]
    have hput : Watched (m.put i (if b then .deciding else .idle)) := by
      split
      · exact h.leave rfl rfl rfl
      · exact h.leave rfl rfl rfl
    exact ⟨hput.enabled, hput.clock, hput.cool⟩
  | idle | enabling | disabling | checkingOnline | checkingEnabled | readingClock | readingLast _
  | takingFlag _ | stamping _ | releasing =>
    rw [hp] at hs
    cases hs

/-- **Every step keeps the watch.** -/
theorem Watched.step {l : Label ι} (h : Watched m) (hs : Reconnect.step m l = some m') :
    Watched m' := by
  cases l with
  | tick nowMs =>
    obtain ⟨-, heq⟩ := Option.ite_none_right_eq_some.1 hs
    rw [← Option.some.inj heq]
    refine ⟨h.enabled, fun i nowMs' ht hticked => ?_, h.cool⟩
    change ((m.since i).ticked || nowMs != m.steadyMs) = false at hticked
    rw [Bool.or_eq_false_iff, bne_eq_false_iff_eq] at hticked
    exact (h.clock i nowMs' ht hticked.1).trans hticked.2.symm
  | call i c =>
    obtain ⟨-, heq⟩ := Option.ite_none_right_eq_some.1 hs
    rw [← Option.some.inj heq]
    cases c <;> exact h.leave rfl rfl rfl
  | go i => exact h.go hs
  | answer i b => exact h.answer hs

end

/-! ## What careful steps keep -/

/-- **What careful steps keep**: one attempt at a time, the last attempt in the clock's past, and
the cool-down between any two. -/
structure Inv (m : Pinling ι) : Prop where
  busy : AtMostOne (fun p : Location => p.busy = true) m.threads
  holder : AtMostOne (fun p : Location => p.holds = true) m.threads
  holds : ∀ i, (m.threads i).holds = true → m.reconnecting = true
  clock : m.lastReconnectAttemptMs ≤ m.steadyMs
  last : ∀ t ∈ attempts m.events, m.lastReconnectAttemptMs ≠ 0 ∧ t ≤ m.lastReconnectAttemptMs
  apart : (attempts m.events).Pairwise fun s t => s.toNat + Pod.kReconnectCooldownMs ≤ t.toNat
  enabledIn : m.sdkReconnectEnabled = true → EnabledIn m.events
  enabled : ∀ pre nowMs post, m.events = pre ++ .attempt nowMs :: post → EnabledIn pre

/-- Who connects is busy. -/
theorem Location.busy_of_inside {p : Location} (h : p.inside = true) : p.busy = true := by
  cases p with
  | connecting | reconnecting => rfl
  | _ => cases h

variable {m m' : Pinling ι} {i : ι} {p : Location}

/-- **What is kept is safe.** -/
theorem Inv.safe (h : Inv m) : Safe m where
  exclusive i j hi hj := h.busy i j (Location.busy_of_inside hi) (Location.busy_of_inside hj)
  apart := h.apart
  enabled := h.enabled

variable [DecidableEq ι]

/-- A thread goes on, without becoming busy. -/
theorem Inv.put (h : Inv m) (hb : p.busy = true → (m.threads i).busy = true)
    (hh : p.holds = true → (m.threads i).holds = true) : Inv (m.put i p) where
  busy := h.busy.stay hb
  holder := h.holder.stay hh
  holds j hj := by
    change (update m.threads i p j).holds = true at hj
    rcases eq_or_ne j i with rfl | hne
    · rw [update_self] at hj
      exact h.holds j (hh hj)
    · rw [update_of_ne hne] at hj
      exact h.holds j hj
  clock := h.clock
  last := h.last
  apart := h.apart
  enabledIn := h.enabledIn
  enabled := h.enabled

/-- The histories do not matter. -/
theorem Inv.look (h : Inv m) (f : Since → Since) : Inv (m.look i f) :=
  ⟨h.busy, h.holder, h.holds, h.clock, h.last, h.apart, h.enabledIn, h.enabled⟩

/-- A thread goes home. -/
theorem Inv.idle (h : Inv m) (i : ι) : Inv (m.put i .idle) :=
  h.put (fun hb => by cases hb) (fun hh => by cases hh)

/-- The first connection enables reconnecting. -/
theorem Inv.enable (h : Inv m) (hb : ∀ j, (m.threads j).busy = false) : Inv (m.enable i) where
  busy := h.busy.enter fun _ j _ hj => by rw [hb j] at hj; cases hj
  holder := h.holder.stay fun hh => by cases hh
  holds j hj := by
    change (update m.threads i .connecting j).holds = true at hj
    rcases eq_or_ne j i with rfl | hne
    · rw [update_self] at hj
      cases hj
    · rw [update_of_ne hne] at hj
      exact h.holds j hj
  clock := h.clock
  last t ht := by
    rw [Pinling.enable, attempts_concat, List.mem_append] at ht
    exact ht.elim (h.last t) fun ht => by cases ht
  apart := by
    show (attempts (m.events ++ [Event.enabled])).Pairwise _
    rw [attempts_concat]
    exact (List.append_nil (attempts m.events)).symm ▸ h.apart
  enabledIn _ := enabledIn_enabled m.events
  enabled := enabled_concat h.enabled fun _ hx => by cases hx

/-- A disconnection disables it. -/
theorem Inv.disable (h : Inv m) : Inv (m.disable i [.disabled]) where
  busy := (h.idle i).busy
  holder := (h.idle i).holder
  holds := (h.idle i).holds
  clock := h.clock
  last t ht := by
    rw [Pinling.disable, attempts_concat, List.mem_append] at ht
    exact ht.elim (h.last t) fun ht => by cases ht
  apart := by
    show (attempts (m.events ++ [Event.disabled])).Pairwise _
    rw [attempts_concat]
    exact (List.append_nil (attempts m.events)).symm ▸ h.apart
  enabledIn he := by cases he
  enabled := enabled_concat h.enabled fun _ hx => by cases hx

/-- `connect` without the PTZ. -/
theorem Inv.skip (h : Inv m) : Inv (m.disable i []) where
  busy := (h.idle i).busy
  holder := (h.idle i).holder
  holds := (h.idle i).holds
  clock := h.clock
  last t ht := h.last t (by rwa [Pinling.disable, List.append_nil] at ht)
  apart := by
    rw [Pinling.disable, List.append_nil]
    exact h.apart
  enabledIn he := by cases he
  enabled := by
    rw [Pinling.disable, List.append_nil]
    exact h.enabled

/-- The flag is taken while no `connect` is in `connectFromConfig`. -/
theorem Inv.takeFlag (h : Inv m) (hflag : m.reconnecting = false)
    (hc : ∀ j, m.threads j ≠ .connecting) (nowMs : UInt64) :
    Inv { m.put i (.stamping nowMs) with reconnecting := true } := by
  have hno : ∀ j, (m.threads j).holds = false := by
    intro j
    by_contra hh
    rw [h.holds j (Bool.not_eq_false _ ▸ hh)] at hflag
    cases hflag
  exact {
    busy := h.busy.enter fun _ j _ hj => by
      have hnoj := hno j
      cases hp : m.threads j with
      | connecting => exact hc j hp
      | reconnecting | stamping _ => rw [hp] at hnoj; cases hnoj
      | _ => rw [hp] at hj; cases hj
    holder := h.holder.enter fun _ j _ hj => by rw [hno j] at hj; cases hj
    holds := fun _ _ => rfl
    clock := h.clock
    last := h.last
    apart := h.apart
    enabledIn := h.enabledIn
    enabled := h.enabled }

/-- An attempt starts while what was checked for it holds. -/
theorem Inv.stamp (h : Inv m) (hi : ∃ nowMs, m.threads i = .stamping nowMs)
    (he : m.sdkReconnectEnabled = true) (hne : m.steadyMs ≠ 0) (hcool : m.cooledDown m.steadyMs) :
    Inv (m.stamp i m.steadyMs) := by
  obtain ⟨nowMs, hi⟩ := hi
  have hput : Inv (m.put i .reconnecting) :=
    h.put (fun _ => by rw [hi]; rfl) (fun _ => by rw [hi]; rfl)
  have hafter : ∀ t ∈ attempts m.events,
      t.toNat + Pod.kReconnectCooldownMs ≤ m.steadyMs.toNat := by
    intro t ht
    obtain ⟨hlast, hle⟩ := h.last t ht
    have hsub := UInt64.toNat_sub_of_le _ _ h.clock
    have hclock := UInt64.le_iff_toNat_le.1 h.clock
    rw [UInt64.le_iff_toNat_le] at hle
    rcases hcool with hzero | hcool
    · exact absurd hzero hlast
    · omega
  refine ⟨hput.busy, hput.holder, hput.holds, UInt64.le_refl _, fun t ht => ⟨hne, ?_⟩, ?_, ?_, ?_⟩
  · rw [Pinling.stamp, attempts_concat, List.mem_append] at ht
    rcases ht with ht | ht
    · exact UInt64.le_trans (h.last t ht).2 h.clock
    · rw [List.mem_singleton.1 ht]
      exact UInt64.le_refl _
  · show (attempts (m.events ++ [Event.attempt m.steadyMs])).Pairwise _
    rw [attempts_concat]
    refine List.pairwise_append.2 ⟨h.apart, List.pairwise_singleton _ _, fun s hs t ht => ?_⟩
    rw [List.mem_singleton.1 ht]
    exact hafter s hs
  · exact fun _ => (h.enabledIn he).attempt m.steadyMs
  · exact enabled_concat h.enabled fun _ _ => h.enabledIn he

/-- The flag is given back. -/
theorem Inv.release (h : Inv m) (hi : m.threads i = .releasing) :
    Inv { m.put i .idle with reconnecting := false } where
  busy := (h.idle i).busy
  holder := (h.idle i).holder
  holds j hj := by
    change (update m.threads i .idle j).holds = true at hj
    rcases eq_or_ne j i with rfl | hne
    · rw [update_self] at hj
      cases hj
    · rw [update_of_ne hne] at hj
      exact absurd (h.holder j i hj (by rw [hi]; rfl)) hne
  clock := h.clock
  last := h.last
  apart := h.apart
  enabledIn := h.enabledIn
  enabled := h.enabled

/-- **A careful step of a thread keeps it.** -/
theorem Inv.go (h : Inv m) (hw : Watched m) (hc : Careful m (.go i))
    (hs : m.go i (m.threads i) = some m') :
    Inv m' := by
  change CarefulAt m i (m.threads i) at hc
  cases hp : m.threads i with
  | enabling =>
    rw [hp] at hc hs
    rw [← Option.some.inj hs]
    cases hptz : m.ptzEnabled with
    | true => exact h.enable (hc hptz)
    | false => exact h.skip
  | disabling =>
    rw [hp] at hs
    rw [← Option.some.inj hs]
    exact h.disable
  | checkingOnline | readingLast nowMs =>
    rw [hp] at hs
    rw [← Option.some.inj hs]
    split
    · exact h.put (fun hb => by cases hb) (fun hh => by cases hh)
    · exact h.idle i
  | checkingEnabled =>
    rw [hp] at hs
    rw [← Option.some.inj hs]
    refine Inv.look ?_ _
    split
    · exact h.put (fun hb => by cases hb) (fun hh => by cases hh)
    · exact h.idle i
  | readingClock =>
    rw [hp] at hs
    rw [← Option.some.inj hs]
    exact (h.put (fun hb => by cases hb) (fun hh => by cases hh)).look _
  | takingFlag nowMs =>
    rw [hp] at hc hs
    rw [← Option.some.inj hs]
    cases hflag : m.reconnecting with
    | true => exact h.idle i
    | false => exact h.takeFlag hflag (hc hflag) nowMs
  | stamping nowMs =>
    rw [hp] at hc hs
    obtain ⟨hsince, hne⟩ := hc
    -- what the thread has found when it checked is still so
    have henabled := hw.enabled i (by rw [hp]; rfl) (by rw [hsince])
    have hcool := hw.cool i nowMs (by rw [hp]; rfl) (by rw [hsince])
    obtain rfl := hw.clock i nowMs (by rw [hp]; rfl) (by rw [hsince])
    rw [← Option.some.inj hs]
    exact h.stamp ⟨_, hp⟩ henabled hne hcool
  | releasing =>
    rw [hp] at hs
    rw [← Option.some.inj hs]
    exact h.release hp
  | idle | connectingBase | connecting | refreshing | deciding | entering | reconnecting =>
    rw [hp] at hs
    cases hs

/-- An answer from the device keeps it. -/
theorem Inv.answer {b : Bool} (h : Inv m) (hs : m.answer i b (m.threads i) = some m') : Inv m' := by
  cases hp : m.threads i with
  | connectingBase | deciding | entering =>
    rw [hp] at hs
    rw [← Option.some.inj hs]
    split
    · exact h.put (fun hb => by cases hb) (fun hh => by cases hh)
    · exact h.idle i
  | connecting =>
    rw [hp] at hs
    rw [← Option.some.inj hs]
    exact h.idle i
  | refreshing =>
    rw [hp] at hs
    rw [← Option.some.inj hs]
    have hput : Inv (m.put i (if b then .deciding else .idle)) := by
      split
      · exact h.put (fun hb => by cases hb) (fun hh => by cases hh)
      · exact h.idle i
    exact ⟨hput.busy, hput.holder, hput.holds, hput.clock, hput.last, hput.apart, hput.enabledIn,
      hput.enabled⟩
  | reconnecting =>
    rw [hp] at hs
    rw [← Option.some.inj hs]
    split
    · exact h.put (fun _ => by rw [hp]; rfl) (fun _ => by rw [hp]; rfl)
    · exact h.idle i
  | idle | enabling | disabling | checkingOnline | checkingEnabled | readingClock | readingLast _
  | takingFlag _ | stamping _ | releasing =>
    rw [hp] at hs
    cases hs

/-- **Every careful step keeps it.** -/
theorem Inv.step {l : Label ι} (h : Inv m) (hw : Watched m) (hc : Careful m l)
    (hs : Reconnect.step m l = some m') : Inv m' := by
  cases l with
  | tick nowMs =>
    obtain ⟨hle, heq⟩ := Option.ite_none_right_eq_some.1 hs
    rw [← Option.some.inj heq]
    exact ⟨h.busy, h.holder, h.holds, UInt64.le_trans h.clock hle, h.last, h.apart, h.enabledIn,
      h.enabled⟩
  | call i c =>
    obtain ⟨-, heq⟩ := Option.ite_none_right_eq_some.1 hs
    rw [← Option.some.inj heq]
    cases c <;> exact h.put (fun hb => by cases hb) (fun hh => by cases hh)
  | go i => exact h.go hw hc hs
  | answer i b => exact h.answer hs

omit [DecidableEq ι] in
/-- At first nobody has tried. -/
theorem inv_init (ptzEnabled : Bool) : Inv ({ ptzEnabled } : Pinling ι) where
  busy _ _ hi := by cases hi
  holder _ _ hi := by cases hi
  holds _ hi := by cases hi
  clock := UInt64.le_refl _
  last _ ht := by cases ht
  apart := List.Pairwise.nil
  enabledIn he := by cases he
  enabled pre nowMs post hevents := by
    have := congrArg List.length hevents
    simp at this

omit [DecidableEq ι] in
/-- At first nobody has looked. -/
theorem watched_init (ptzEnabled : Bool) : Watched ({ ptzEnabled } : Pinling ι) :=
  ⟨fun _ hi => (by cases hi), fun _ _ hi => (by cases hi), fun _ _ hi => (by cases hi)⟩

/-- **Attempts.** In every run of any number of threads whose steps are all careful, and in every
state of it, no two threads are in `connectFromConfig`, automatic attempts have started no closer
than the cool-down, and each of them while they were enabled. -/
theorem safe_of_careful (ptzEnabled : Bool) (ls : List (Label ι))
    (hc : Along Reconnect.step Careful ({ ptzEnabled } : Pinling ι) ls) :
    ∀ pre post m, ls = pre ++ post →
      run Reconnect.step ({ ptzEnabled } : Pinling ι) pre = some m → Safe m := by
  intro pre post m hls hrun
  rw [hls] at hc
  have hinv : Inv m ∧ Watched m :=
    run_along (P := fun m => Inv m ∧ Watched m)
      (fun _ _ _ hc hm hs => ⟨hm.1.step hm.2 hc hs, hm.2.step hs⟩)
      ⟨inv_init ptzEnabled, watched_init ptzEnabled⟩ (along_append_left hc) hrun
  exact hinv.1.safe

end

/-! ## Two threads -/

/-- `connect`, whose attempt fails, and a `refreshDeviceStatus` that comes to the flag. -/
def toTheFlag : List (Label Bool) :=
  [.tick 9000, .call true .connect, .answer true true, .go true, .answer true true,
    .call true .refreshDeviceStatus, .answer true true, .answer true false, .answer true false,
    .go true, .go true, .go true, .go true]

/-- The attempt it makes. -/
def attemptOf (i : Bool) : List (Label Bool) := [.go i, .go i, .answer i true, .go i]

/-- A thread reconnects after the first connection was lost. -/
theorem safe_of_careful_attempt :
    ∃ m, run Reconnect.step ({} : Pinling Bool) (toTheFlag ++ attemptOf true) = some m ∧ Safe m :=
  ⟨_, rfl, safe_of_careful true (toTheFlag ++ attemptOf true) (by decide)
    (toTheFlag ++ attemptOf true) [] _ (List.append_nil _).symm rfl⟩

/-- An operation that comes to the flag too. -/
def operation : List (Label Bool) :=
  [.call false .operation, .answer false false, .go false, .go false, .go false, .go false]

/-- A second `connect` comes to its attempt during the first one. -/
def secondConnect : List (Label Bool) :=
  [.go true, .go true, .call false .connect, .answer false true, .go false]

/-- `disconnect` comes between the check and the attempt. -/
def disconnectFirst : List (Label Bool) :=
  [.call false .disconnect, .go false, .go true, .go true]

/-- A second `connect` during an attempt; an attempt at once after another, by a thread that has
checked before it; and one after `disconnect`. -/
theorem attempts_not_safe :
    (¬ ∀ ls m, run Reconnect.step ({} : Pinling Bool) ls = some m →
        AtMostOne (fun p : Location => p.inside = true) m.threads) ∧
      (¬ ∀ ls m, run Reconnect.step ({} : Pinling Bool) ls = some m →
        (attempts m.events).Pairwise fun s t => s.toNat + Pod.kReconnectCooldownMs ≤ t.toNat) ∧
      ¬ ∀ ls m, run Reconnect.step ({} : Pinling Bool) ls = some m →
        ∀ pre nowMs post, m.events = pre ++ .attempt nowMs :: post → EnabledIn pre := by
  refine ⟨fun h => ?_, fun h => ?_, fun h => ?_⟩
  · have hinside := h (toTheFlag ++ secondConnect) _ rfl true false (by decide) (by decide)
    cases hinside
  · have happart := h (toTheFlag ++ operation ++ attemptOf true ++ attemptOf false) _ rfl
    exact absurd happart (by decide)
  · have henabled := h (toTheFlag ++ disconnectFirst) _ rfl [.enabled, .disabled] 9000 [] rfl
      [.enabled] [] rfl
    cases henabled

end Reconnect

end PodModule
