import FastCppServer.Lib.Condvar
import FastCppServer.Lib.Fifo
import FastCppServer.Lib.Transition

/-!
# The thread-safe queue

`ThreadSafeQueue`, with any number of threads in `push` and `pop`. A step is what a thread does with
`mutex_` in one go: it gets the mutex, and goes on until it returns or waits. A wait ends with a
notification, with the time of a timed `pop`, or for no reason.

The history of the queue is that of a bounded queue whatever the schedule (`Fifo.Legal`). Who waits
is woken as long as there is, for each item, a popper on its way, and for each free place a pusher
(`Awake`). This is lost in two ways: when a larger bound makes places that nobody is notified of,
and when a popper that has been notified returns because its time is over.
-/

namespace ThreadSafeQueue

open Condvar Fifo Function Parties Transition

/-- Where a thread stands: it has returned from its last call; it is at the mutex for the first
time; it waits; it has been woken and is at the mutex again; its time is over. -/
inductive Client (T : Type) where
  | returned
  | pushed (ok : Bool)
  | popped (item : Option T)
  | pushing (item : T) (block : Bool)
  | notFull (item : T)
  | notFullWoken (item : T)
  | popping (block timed : Bool)
  | notEmpty (timed : Bool)
  | notEmptyWoken (timed : Bool)
  | expired
  deriving DecidableEq

namespace Client

variable {T : Type}

/-- In `cond_not_full_.wait`. -/
def waitsNotFull : Client T → Bool
  | .notFull _ => true
  | _ => false

/-- In a wait on `cond_not_empty_`. -/
def waitsNotEmpty : Client T → Bool
  | .notEmpty _ => true
  | _ => false

/-- Woken from a wait on `cond_not_full_`. -/
def wokenNotFull : Client T → Bool
  | .notFullWoken _ => true
  | _ => false

/-- Woken from a wait on `cond_not_empty_`. -/
def wokenNotEmpty : Client T → Bool
  | .notEmptyWoken _ => true
  | _ => false

/-- A waiting thread is woken. -/
def wake : Client T → Client T
  | .notFull item => .notFullWoken item
  | .notEmpty timed => .notEmptyWoken timed
  | c => c

end Client

/-- `waitsNotFull`, as a proposition. -/
abbrev WaitsNotFull {T : Type} (c : Client T) : Prop := c.waitsNotFull = true

/-- `waitsNotEmpty`, as a proposition. -/
abbrev WaitsNotEmpty {T : Type} (c : Client T) : Prop := c.waitsNotEmpty = true

/-- `wokenNotFull`, as a proposition. -/
abbrev WokenNotFull {T : Type} (c : Client T) : Prop := c.wokenNotFull = true

/-- `wokenNotEmpty`, as a proposition. -/
abbrev WokenNotEmpty {T : Type} (c : Client T) : Prop := c.wokenNotEmpty = true

/-- The queue, what its clients are doing, and what has been done to it. -/
structure System (ι T : Type) where
  items : List T := []
  maxSize : Nat := 1000
  shutdown : Bool := false
  client : ι → Client T := fun _ => .returned
  /-- What has been pushed, popped and cleared. -/
  log : List (Event T) := []

/-- Which condition variable a thread notifies before it returns. -/
inductive Signal where
  | silent
  | notFull
  | notEmpty
  deriving DecidableEq

/-- The items, and the places, that it tells of. -/
def Signal.items : Signal → Nat
  | .notEmpty => 1
  | _ => 0

/-- The places that it tells of. -/
def Signal.places : Signal → Nat
  | .notFull => 1
  | _ => 0

variable {ι T : Type}

/-- `push` from the mutex on, with the wait taken as one more way to leave. -/
def pushStep (s : System ι T) (item : T) (block : Bool) : System ι T × Client T × Signal :=
  if s.maxSize ≤ s.items.length ∧ ¬ block then (s, .pushed false, .silent)
  else if s.maxSize ≤ s.items.length ∧ ¬ s.shutdown then (s, .notFull item, .silent)
  else if s.shutdown then (s, .pushed false, .silent)
  else
    ({ s with items := s.items ++ [item], log := s.log ++ [.push item] }, .pushed true, .notEmpty)

/-- `pop` from the mutex on. -/
def popStep (s : System ι T) (block timed : Bool) : System ι T × Client T × Signal :=
  match s.items with
  | [] =>
    if block ∧ ¬ s.shutdown then (s, .notEmpty timed, .silent) else (s, .popped none, .silent)
  | item :: items =>
    ({ s with items, log := s.log ++ [.pop item] }, .popped (some item), .notFull)

/-- What a thread does when it gets the mutex. A timed wait that has been notified may find that its
time is over (`late`); then `pop` returns without another look at the queue. -/
def enter (s : System ι T) (late : Bool) : Client T → Option (System ι T × Client T × Signal)
  | .pushing item block => some (pushStep s item block)
  | .notFullWoken item => some (pushStep s item true)
  | .popping block timed => some (popStep s block timed)
  | .notEmptyWoken timed =>
    if timed ∧ late then some (s, .popped none, .silent) else some (popStep s true timed)
  | .expired => some (s, .popped none, .silent)
  | .returned | .pushed _ | .popped _ | .notFull _ | .notEmpty _ => none

/-- The calls; what a thread does next, with the one that it notifies; the end of a wait without a
notification; and the operations of one step. `init` is `setMaxSize`. -/
inductive Label (ι T : Type) where
  | push (i : ι) (item : T) (block : Bool)
  | pop (i : ι) (block timed : Bool)
  | enter (i : ι) (late : Bool) (notified : Option ι)
  | wake (i : ι)
  | expire (i : ι)
  | setMaxSize (maxSize : Nat)
  | clear
  | shutdown

section
variable [Fintype ι] [DecidableEq ι]

/-- A thread calls when its last call has returned. -/
def call (s : System ι T) (i : ι) (p : Client T) : Option (System ι T) :=
  match s.client i with
  | .returned | .pushed _ | .popped _ => some { s with client := update s.client i p }
  | _ => none

/-- The notification that is due, with the thread that it wakes. -/
def notify (c : ι → Client T) (notified : Option ι) : Signal → Option (ι → Client T)
  | .silent => if notified.isNone then some c else none
  | .notFull => notifyOne WaitsNotFull Client.wake c notified
  | .notEmpty => notifyOne WaitsNotEmpty Client.wake c notified

/-- One step. A label that cannot come in this state has no successor. -/
def step (s : System ι T) : Label ι T → Option (System ι T)
  | .push i item block => call s i (.pushing item block)
  | .pop i block timed => call s i (.popping block timed)
  | .enter i late notified =>
    (enter s late (s.client i)).bind fun (s', p, signal) =>
      (notify (update s.client i p) notified signal).map fun client => { s' with client }
  | .wake i =>
    if WaitsNotFull (s.client i) ∨ WaitsNotEmpty (s.client i) then
      some { s with client := update s.client i (s.client i).wake }
    else none
  | .expire i =>
    match s.client i with
    | .notEmpty true => some { s with client := update s.client i .expired }
    | _ => none
  | .setMaxSize maxSize => some { s with maxSize }
  | .clear =>
    some
      { s with
        items := [], log := s.log ++ [.clear]
        client := notifyAll WaitsNotFull Client.wake s.client }
  | .shutdown =>
    some
      { s with
        shutdown := true
        client := notifyAll WaitsNotEmpty Client.wake
          (notifyAll WaitsNotFull Client.wake s.client) }

/-- No place is made that no pusher has been told of, and a popper that has been told of an item
does not leave it to one that has not. -/
def Careful (s : System ι T) : Label ι T → Prop
  | .setMaxSize maxSize => (∃ i, WaitsNotFull (s.client i)) →
    maxSize ≤ s.items.length + count WokenNotFull s.client
  | .enter i late _ => s.client i = .notEmptyWoken true → late = true →
    (∃ j, s.client j = .notEmpty false) → s.items.length < count WokenNotEmpty s.client
  | _ => True

instance decidableCareful [DecidableEq T] (s : System ι T) :
    (l : Label ι T) → Decidable (Careful s l)
  | .setMaxSize maxSize =>
    inferInstanceAs (Decidable ((∃ i, WaitsNotFull (s.client i)) →
      maxSize ≤ s.items.length + count WokenNotFull s.client))
  | .enter i late _ =>
    inferInstanceAs (Decidable (s.client i = .notEmptyWoken true → late = true →
      (∃ j, s.client j = .notEmpty false) → s.items.length < count WokenNotEmpty s.client))
  | .push .. | .pop .. | .wake _ | .expire _ | .clear | .shutdown => isTrue trivial

/-- Nobody has a notification that has not been dealt with. -/
def Quiescent (s : System ι T) : Prop :=
  ∀ i, ¬ WokenNotFull (s.client i) ∧ ¬ WokenNotEmpty (s.client i)

instance decidableQuiescent (s : System ι T) : Decidable (Quiescent s) :=
  inferInstanceAs (Decidable (∀ i, ¬ WokenNotFull (s.client i) ∧ ¬ WokenNotEmpty (s.client i)))

/-- Nobody waits for what is there. -/
def NoneStuck (s : System ι T) : Prop :=
  ((∃ i, WaitsNotFull (s.client i)) → s.maxSize ≤ s.items.length ∧ s.shutdown = false) ∧
    ((∃ i, s.client i = .notEmpty false) → s.items = [] ∧ s.shutdown = false)

/-! ## What is kept -/

/-- For each item that somebody waits for, a popper is on its way, and for each place a pusher; but
for so many items and places that a notification is still due for. -/
structure Awake (dueItems duePlaces : Nat) (items : List T) (maxSize : Nat) (shutdown : Bool)
    (c : ι → Client T) : Prop where
  down : shutdown = true → ∀ i, ¬ WaitsNotFull (c i) ∧ ¬ WaitsNotEmpty (c i)
  popper : (∃ i, c i = .notEmpty false) → items.length ≤ count WokenNotEmpty c + dueItems
  pusher : (∃ i, WaitsNotFull (c i)) →
    maxSize ≤ items.length + count WokenNotFull c + duePlaces

/-- Nothing is due. -/
abbrev Kept (s : System ι T) : Prop := Awake 0 0 s.items s.maxSize s.shutdown s.client

section
variable {items items' : List T} {maxSize m n : Nat} {shutdown : Bool} {c c' : ι → Client T} {i : ι}
  {p : Client T} {o : Option ι}

omit [Fintype ι] [DecidableEq ι] in
/-- A wait without a time limit is a wait for an item. -/
theorem waitsNotEmpty_of_eq (h : c i = .notEmpty false) : WaitsNotEmpty (c i) := by
  rw [h]
  rfl

/-- Who waits for an item is woken for an item. -/
theorem wake_notEmpty (p : Client T) (h : WaitsNotEmpty p) :
    ¬ WokenNotEmpty p ∧ WokenNotEmpty p.wake := by
  cases p with
  | notEmpty timed => exact ⟨nofun, rfl⟩
  | _ => cases h

/-- Who waits for a place is woken for a place. -/
theorem wake_notFull (p : Client T) (h : WaitsNotFull p) :
    ¬ WokenNotFull p ∧ WokenNotFull p.wake := by
  cases p with
  | notFull item => exact ⟨nofun, rfl⟩
  | _ => cases h

/-- Who has been woken does not wait. -/
theorem wake_waits (p : Client T) (h : WaitsNotFull p ∨ WaitsNotEmpty p) :
    ¬ WaitsNotFull p.wake ∧ ¬ WaitsNotEmpty p.wake := by
  cases p with
  | notFull | notEmpty => exact ⟨nofun, nofun⟩
  | _ => rcases h with h | h <;> cases h

/-- Who has been woken waits no longer. -/
theorem wake_ne (p : Client T) (h : WaitsNotFull p ∨ WaitsNotEmpty p) :
    p.wake ≠ .notEmpty false := by
  intro hp
  exact (wake_waits p h).2 (hp ▸ rfl)

/-- Waking one that waits for a place wakes nobody for an item. -/
theorem woken_notEmpty_iff (p : Client T) (h : WaitsNotFull p) :
    WokenNotEmpty p ↔ WokenNotEmpty p.wake := by
  cases p with
  | notFull item => exact Iff.rfl
  | _ => cases h

/-- Waking one that waits for an item wakes nobody for a place. -/
theorem woken_notFull_iff (p : Client T) (h : WaitsNotEmpty p) :
    WokenNotFull p ↔ WokenNotFull p.wake := by
  cases p with
  | notEmpty timed => exact Iff.rfl
  | _ => cases h

omit [DecidableEq ι] in
/-- After a shutdown nobody waits. -/
theorem Awake.running (h : Awake m n items maxSize shutdown c)
    (hw : (∃ j, c j = .notEmpty false) ∨ ∃ j, WaitsNotFull (c j)) : shutdown = false := by
  cases hs : shutdown with
  | false => rfl
  | true =>
    rcases hw with ⟨j, hj⟩ | ⟨j, hj⟩
    · exact absurd (waitsNotEmpty_of_eq hj) (h.down hs j).2
    · exact absurd hj (h.down hs j).1

/-- A thread goes from its phase to another one: what this does to the account. -/
theorem Awake.update (h : Awake 0 0 items maxSize shutdown c)
    (hdown : shutdown = true → ¬ WaitsNotFull p ∧ ¬ WaitsNotEmpty p)
    (hpopper : p = .notEmpty false ∨ (∃ j, c j = .notEmpty false) →
      items'.length + one WokenNotEmpty (c i) ≤ count WokenNotEmpty c + one WokenNotEmpty p + m)
    (hpusher : WaitsNotFull p ∨ (∃ j, WaitsNotFull (c j)) →
      maxSize + one WokenNotFull (c i) ≤
        items'.length + count WokenNotFull c + one WokenNotFull p + n) :
    Awake m n items' maxSize shutdown (update c i p) where
  down hs j := by
    rcases eq_or_ne j i with rfl | hne
    · rw [update_self]
      exact hdown hs
    · rw [update_of_ne hne]
      exact h.down hs j
  popper hw := by
    have hcount := count_update (P := WokenNotEmpty) (c := c) i p
    have hle := hpopper (exists_of_update (P := fun q : Client T => q = .notEmpty false) hw)
    omega
  pusher hw := by
    have hcount := count_update (P := WokenNotFull) (c := c) i p
    have hle := hpusher (exists_of_update (P := WaitsNotFull) hw)
    omega

/-- The notification that was due for an item. -/
theorem Awake.notEmpty (h : Awake 1 0 items maxSize shutdown c)
    (hn : notifyOne WaitsNotEmpty Client.wake c o = some c') :
    Awake 0 0 items maxSize shutdown c' where
  down hs j := by
    refine ⟨fun hw => (h.down hs j).1 ?_, fun hw => (h.down hs j).2 ?_⟩
    · exact notifyOne_waits hn (fun p hp hw => absurd hw (wake_waits p (.inr hp)).1) hw
    · exact notifyOne_waits hn (fun p hp _ => hp) hw
  popper := by
    rintro ⟨j, hj⟩
    have hcount := notifyOne_count hn wake_notEmpty (waitsNotEmpty_of_eq hj)
    have hold : c j = .notEmpty false :=
      notifyOne_waits (P := fun q => q = .notEmpty false) hn
        (fun p hp hw => absurd hw (wake_ne p (.inr hp))) hj
    have hle := h.popper ⟨j, hold⟩
    omega
  pusher := by
    rintro ⟨j, hj⟩
    have hcount := notifyOne_count_other hn woken_notFull_iff
    have hold : WaitsNotFull (c j) :=
      notifyOne_waits hn (fun p hp hw => absurd hw (wake_waits p (.inr hp)).1) hj
    have hle := h.pusher ⟨j, hold⟩
    omega

/-- The notification that was due for a place. -/
theorem Awake.notFull (h : Awake 0 1 items maxSize shutdown c)
    (hn : notifyOne WaitsNotFull Client.wake c o = some c') :
    Awake 0 0 items maxSize shutdown c' where
  down hs j := by
    refine ⟨fun hw => (h.down hs j).1 ?_, fun hw => (h.down hs j).2 ?_⟩
    · exact notifyOne_waits hn (fun p hp _ => hp) hw
    · exact notifyOne_waits hn (fun p hp hw => absurd hw (wake_waits p (.inl hp)).2) hw
  popper := by
    rintro ⟨j, hj⟩
    have hcount := notifyOne_count_other hn woken_notEmpty_iff
    have hold : c j = .notEmpty false :=
      notifyOne_waits (P := fun q => q = .notEmpty false) hn
        (fun p hp hw => absurd hw (wake_ne p (.inl hp))) hj
    have hle := h.popper ⟨j, hold⟩
    omega
  pusher := by
    rintro ⟨j, hj⟩
    have hcount := notifyOne_count hn wake_notFull hj
    have hold : WaitsNotFull (c j) := notifyOne_waits hn (fun p hp _ => hp) hj
    have hle := h.pusher ⟨j, hold⟩
    omega

/-- The notification wakes those that it is due for. -/
theorem notify_awake {signal : Signal} (hn : ThreadSafeQueue.notify c o signal = some c')
    (h : Awake signal.items signal.places items maxSize shutdown c) :
    Awake 0 0 items maxSize shutdown c' := by
  cases signal with
  | silent =>
    simp only [ThreadSafeQueue.notify] at hn
    split at hn
    · obtain rfl := Option.some.inj hn
      exact h
    · cases hn
  | notFull => exact h.notFull hn
  | notEmpty => exact h.notEmpty hn

end

/-! ## One step -/

/-- What is kept while a notification is due. -/
structure Entered (s : System ι T) (i : ι) (r : System ι T × Client T × Signal) : Prop where
  same : r.1.maxSize = s.maxSize ∧ r.1.shutdown = s.shutdown
  awake : Awake r.2.2.items r.2.2.places r.1.items s.maxSize s.shutdown (update s.client i r.2.1)

section
variable {s s' : System ι T} {i : ι}

/-- A thread that leaves the queue as it is, and is not missed. -/
theorem entered_leave (h : Kept s) {p : Client T}
    (hp : ¬ WaitsNotFull p ∧ ¬ WaitsNotEmpty p)
    (hfull : s.shutdown = false → ¬ WokenNotFull (s.client i))
    (hempty : s.shutdown = false → (∃ j, s.client j = .notEmpty false) →
      s.items.length + one WokenNotEmpty (s.client i) ≤ count WokenNotEmpty s.client) :
    Entered s i (s, p, .silent) where
  same := ⟨rfl, rfl⟩
  awake := by
    refine h.update (fun _ => hp) ?_ ?_
    · rintro (rfl | hw)
      · exact absurd rfl hp.2
      · have hle := hempty (h.running (.inl hw)) hw
        simp only [Signal.items]
        omega
    · rintro (hw | hw)
      · exact absurd hw hp.1
      · have hle := h.pusher hw
        rw [one_neg (hfull (h.running (.inr hw)))]
        simp only [Signal.places]
        omega

/-- A `push` leaves nobody asleep but those that its notification is due for. -/
theorem pushStep_entered (h : Kept s) {item : T} {block : Bool}
    (hempty : ¬ WokenNotEmpty (s.client i)) (hblock : WokenNotFull (s.client i) → block = true) :
    Entered s i (pushStep s item block) := by
  have hone := one_le_count (P := WokenNotFull) (c := s.client) i
  have hzero : one WokenNotEmpty (s.client i) = 0 := one_neg hempty
  have hpopper : s.shutdown = false → (∃ j, s.client j = .notEmpty false) →
      s.items.length + one WokenNotEmpty (s.client i) ≤ count WokenNotEmpty s.client := by
    intro _ hw
    rw [hzero]
    exact h.popper hw
  unfold pushStep
  split
  next hfull =>
    refine entered_leave h ⟨nofun, nofun⟩ (fun _ hw => ?_) hpopper
    exact hfull.2 (hblock hw)
  split
  next hwait =>
    refine ⟨⟨rfl, rfl⟩, h.update (fun hs => absurd hs hwait.2) ?_ ?_⟩
    · rintro (hw | hw)
      · cases hw
      · have hle := h.popper hw
        rw [hzero]
        simp only [Signal.items]
        omega
    · intro _
      have hle := hwait.1
      simp only [Signal.places]
      omega
  split
  next hs =>
    exact entered_leave h ⟨nofun, nofun⟩ (fun hr => absurd hs (by simp [hr])) hpopper
  next hs =>
    refine ⟨⟨rfl, rfl⟩, h.update (fun hr => absurd hr hs) ?_ ?_⟩
    · rintro (hw | hw)
      · cases hw
      · have hle := h.popper hw
        rw [hzero, List.length_append, List.length_singleton]
        simp only [Signal.items]
        omega
    · rintro (hw | hw)
      · cases hw
      · have hle := h.pusher hw
        rw [List.length_append, List.length_singleton]
        simp only [Signal.places]
        have hle' := one_le (P := WokenNotFull) (s.client i)
        omega

/-- A `pop` leaves nobody asleep but those that its notification is due for. -/
theorem popStep_entered (h : Kept s) {block timed : Bool}
    (hfull : ¬ WokenNotFull (s.client i)) : Entered s i (popStep s block timed) := by
  have hone := one_le_count (P := WokenNotEmpty) (c := s.client) i
  have hzero : one WokenNotFull (s.client i) = 0 := one_neg hfull
  unfold popStep
  split
  next hitems =>
    split
    next hwait =>
      refine ⟨⟨rfl, rfl⟩, h.update (fun hs => absurd hs hwait.2) ?_ ?_⟩
      · intro _
        rw [hitems, List.length_nil]
        simp only [Signal.items]
        omega
      · rintro (hw | hw)
        · cases hw
        · have hle := h.pusher hw
          rw [hzero]
          simp only [Signal.places]
          omega
    next =>
      refine entered_leave h ⟨nofun, nofun⟩ (fun _ => hfull) fun _ _ => ?_
      rw [hitems, List.length_nil]
      omega
  next item items hitems =>
    refine ⟨⟨rfl, rfl⟩, h.update (fun _ => ⟨nofun, nofun⟩) ?_ ?_⟩
    · rintro (hw | hw)
      · cases hw
      · have hle := h.popper hw
        rw [hitems, List.length_cons] at hle
        simp only [Signal.items]
        have hle' := one_le (P := WokenNotEmpty) (s.client i)
        omega
    · rintro (hw | hw)
      · cases hw
      · have hle := h.pusher hw
        rw [hitems, List.length_cons] at hle
        rw [hzero]
        simp only [Signal.places]
        omega

/-- A timed `pop` that returns because its time is over. -/
theorem late_entered (h : Kept s) {late : Bool} {o : Option ι}
    (hi : s.client i = .notEmptyWoken true)
    (hlate : late = true) (hc : Careful s (.enter i late o)) :
    Entered s i (s, .popped none, .silent) := by
  refine entered_leave h ⟨nofun, nofun⟩ (fun _ => by rw [hi]; nofun) fun _ hw => ?_
  have hlt := hc hi hlate hw
  have hone : one WokenNotEmpty (s.client i) = 1 := one_pos (by rw [hi]; rfl)
  omega

/-- What a client does with the mutex leaves nobody asleep but those that the notification is due
for. -/
theorem enter_entered (h : Kept s) {late : Bool} {o : Option ι} {r : System ι T × Client T × Signal}
    (hc : Careful s (.enter i late o)) (hr : enter s late (s.client i) = some r) :
    Entered s i r := by
  cases hi : s.client i with
  | pushing item block =>
    rw [hi] at hr
    obtain rfl := Option.some.inj hr
    exact pushStep_entered h (by rw [hi]; nofun) (by rw [hi]; nofun)
  | notFullWoken item =>
    rw [hi] at hr
    obtain rfl := Option.some.inj hr
    exact pushStep_entered h (by rw [hi]; nofun) fun _ => rfl
  | popping block timed =>
    rw [hi] at hr
    obtain rfl := Option.some.inj hr
    exact popStep_entered h (by rw [hi]; nofun)
  | notEmptyWoken timed =>
    rw [hi] at hr
    simp only [enter] at hr
    split at hr
    next hlate =>
      obtain rfl := Option.some.inj hr
      exact late_entered h (hlate.1 ▸ hi) hlate.2 hc
    next =>
      obtain rfl := Option.some.inj hr
      exact popStep_entered h (by rw [hi]; nofun)
  | expired =>
    rw [hi] at hr
    obtain rfl := Option.some.inj hr
    refine entered_leave h ⟨nofun, nofun⟩ (fun _ => by rw [hi]; nofun) fun _ hw => ?_
    have hzero : one WokenNotEmpty (s.client i) = 0 := one_neg (by rw [hi]; nofun)
    have hle := h.popper hw
    omega
  | returned | pushed | popped | notFull | notEmpty =>
    rw [hi] at hr
    cases hr

/-- A thread that does not wait takes up another phase where it does not wait. -/
theorem Kept.move (h : Kept s) {p : Client T}
    (hp : ¬ WaitsNotFull p ∧ ¬ WaitsNotEmpty p)
    (hfull : WokenNotFull (s.client i) → WokenNotFull p)
    (hempty : WokenNotEmpty (s.client i) → WokenNotEmpty p) :
    Kept { s with client := update s.client i p } := by
  have hawake : Awake 0 0 s.items s.maxSize s.shutdown (update s.client i p) := by
    refine h.update (fun _ => hp) ?_ ?_
    · rintro (rfl | hw)
      · exact absurd rfl hp.2
      · have hle := h.popper hw
        have hone := one_mono hempty
        omega
    · rintro (hw | hw)
      · exact absurd hw hp.1
      · have hle := h.pusher hw
        have hone := one_mono hfull
        omega
  exact hawake

omit [Fintype ι] in
/-- A thread that calls has not been woken. -/
theorem call_cases {p : Client T} (hs : call s i p = some s') :
    s' = { s with client := update s.client i p } ∧
      ¬ WokenNotFull (s.client i) ∧ ¬ WokenNotEmpty (s.client i) := by
  unfold call at hs
  split at hs
  case h_4 => cases hs
  all_goals
    next hi =>
      rw [hi]
      exact ⟨(Option.some.inj hs).symm, nofun, nofun⟩

/-- A call does not wait yet. -/
theorem call_kept (h : Kept s) {p : Client T} (hs : call s i p = some s')
    (hp : ¬ WaitsNotFull p ∧ ¬ WaitsNotEmpty p) : Kept s' := by
  obtain ⟨rfl, hfull, hempty⟩ := call_cases hs
  exact h.move hp (fun hw => absurd hw hfull) (fun hw => absurd hw hempty)

/-- A wait that ends without a notification is one with a notification too many. -/
theorem wake_kept (h : Kept s) (hw : WaitsNotFull (s.client i) ∨ WaitsNotEmpty (s.client i)) :
    Kept { s with client := update s.client i (s.client i).wake } := by
  rcases hw with hw | hw
  · have hdue : Awake 0 1 s.items s.maxSize s.shutdown s.client :=
      { h with pusher := fun hj => Nat.le_add_right_of_le (h.pusher hj) }
    exact hdue.notFull (o := some i) (if_pos hw)
  · have hdue : Awake 1 0 s.items s.maxSize s.shutdown s.client :=
      { h with popper := fun hj => Nat.le_add_right_of_le (h.popper hj) }
    exact hdue.notEmpty (o := some i) (if_pos hw)

omit [Fintype ι] [DecidableEq ι] in
/-- Nobody waits for a place any more. -/
theorem not_waitsNotFull (c : ι → Client T) (j : ι) :
    ¬ WaitsNotFull (notifyAll WaitsNotFull Client.wake c j) :=
  notifyAll_waits (fun p hp => (wake_waits p (.inl hp)).1) j

omit [DecidableEq ι] in
/-- `clear` wakes every `push` that waits. -/
theorem clear_kept (h : Kept s) :
    Kept { s with
      items := [], log := s.log ++ [.clear]
      client := notifyAll WaitsNotFull Client.wake s.client } where
  down hs j :=
    ⟨not_waitsNotFull s.client j, fun hw => (h.down hs j).2
      (notifyAll_other (fun p hp hw => absurd hw (wake_waits p (.inl hp)).2) hw)⟩
  popper _ := Nat.zero_le _
  pusher := fun ⟨j, hj⟩ => absurd hj (not_waitsNotFull s.client j)

omit [DecidableEq ι] in
/-- `shutdown` wakes everybody. -/
theorem shutdown_kept (s : System ι T) :
    Kept { s with
      shutdown := true
      client := notifyAll WaitsNotEmpty Client.wake
        (notifyAll WaitsNotFull Client.wake s.client) } := by
  have hfull : ∀ j, ¬ WaitsNotFull (notifyAll WaitsNotEmpty Client.wake
      (notifyAll WaitsNotFull Client.wake s.client) j) := fun j hw =>
    not_waitsNotFull s.client j
      (notifyAll_other (fun p hp hw => absurd hw (wake_waits p (.inr hp)).1) hw)
  have hempty : ∀ j, ¬ WaitsNotEmpty (notifyAll WaitsNotEmpty Client.wake
      (notifyAll WaitsNotFull Client.wake s.client) j) :=
    notifyAll_waits fun p hp => (wake_waits p (.inr hp)).2
  refine ⟨fun _ j => ⟨hfull j, hempty j⟩, ?_, ?_⟩
  · rintro ⟨j, hj⟩
    exact absurd (waitsNotEmpty_of_eq hj) (hempty j)
  · rintro ⟨j, hj⟩
    exact absurd hj (hfull j)

/-- **Every step keeps the queue awake**, where it is careful. -/
theorem step_kept {l : Label ι T} (hc : Careful s l) (h : Kept s) (hs : step s l = some s') :
    Kept s' := by
  cases l with
  | push i item block => exact call_kept h hs ⟨nofun, nofun⟩
  | pop i block timed => exact call_kept h hs ⟨nofun, nofun⟩
  | enter i late o =>
    obtain ⟨r, hr, hs⟩ := Option.bind_eq_some_iff.1 hs
    obtain ⟨client, hn, rfl⟩ := Option.map_eq_some_iff.1 hs
    have he := enter_entered h hc hr
    have hkept := notify_awake hn he.awake
    rwa [← he.same.1, ← he.same.2] at hkept
  | wake i =>
    simp only [step] at hs
    split at hs
    next hw =>
      obtain rfl := Option.some.inj hs
      exact wake_kept h hw
    next => cases hs
  | expire i =>
    simp only [step] at hs
    split at hs
    next hi =>
      obtain rfl := Option.some.inj hs
      exact h.move ⟨nofun, nofun⟩ (by rw [hi]; nofun) (by rw [hi]; nofun)
    next => cases hs
  | setMaxSize maxSize =>
    obtain rfl := Option.some.inj hs
    exact ⟨h.down, h.popper, hc⟩
  | clear =>
    obtain rfl := Option.some.inj hs
    exact clear_kept h
  | shutdown =>
    obtain rfl := Option.some.inj hs
    exact shutdown_kept s

/-! ## The history and the bound -/

omit [Fintype ι] [DecidableEq ι] in
/-- A `push` that succeeds puts its item at the end of what is there. -/
theorem pushStep_legal (h : Legal s.log s.items) (item : T) (block : Bool) :
    Legal (pushStep s item block).1.log (pushStep s item block).1.items := by
  unfold pushStep
  split
  next => exact h
  split
  next => exact h
  split
  next => exact h
  next => exact h.push item

omit [Fintype ι] [DecidableEq ι] in
/-- A `pop` that succeeds takes the first item of what is there. -/
theorem popStep_legal (h : Legal s.log s.items) (block timed : Bool) :
    Legal (popStep s block timed).1.log (popStep s block timed).1.items := by
  unfold popStep
  split
  next =>
    split
    next => exact h
    next => exact h
  next item items hitems =>
    rw [hitems] at h
    exact h.pop

omit [Fintype ι] [DecidableEq ι] in
/-- What a client does with the mutex is legal for a queue. -/
theorem enter_legal (h : Legal s.log s.items) {late : Bool} {c : Client T}
    {r : System ι T × Client T × Signal} (hr : enter s late c = some r) :
    Legal r.1.log r.1.items := by
  cases c with
  | pushing item block =>
    obtain rfl := Option.some.inj hr
    exact pushStep_legal h item block
  | notFullWoken item =>
    obtain rfl := Option.some.inj hr
    exact pushStep_legal h item true
  | popping block timed =>
    obtain rfl := Option.some.inj hr
    exact popStep_legal h block timed
  | notEmptyWoken timed =>
    simp only [enter] at hr
    split at hr
    next =>
      obtain rfl := Option.some.inj hr
      exact h
    next =>
      obtain rfl := Option.some.inj hr
      exact popStep_legal h true timed
  | expired =>
    obtain rfl := Option.some.inj hr
    exact h
  | returned | pushed | popped | notFull | notEmpty => cases hr

/-- The history stays that of a queue, careful or not. -/
theorem step_legal {l : Label ι T} (h : Legal s.log s.items) (hs : step s l = some s') :
    Legal s'.log s'.items := by
  cases l with
  | push i item block =>
    obtain ⟨rfl, -⟩ := call_cases hs
    exact h
  | pop i block timed =>
    obtain ⟨rfl, -⟩ := call_cases hs
    exact h
  | enter i late o =>
    obtain ⟨r, hr, hs⟩ := Option.bind_eq_some_iff.1 hs
    obtain ⟨client, -, rfl⟩ := Option.map_eq_some_iff.1 hs
    exact enter_legal h hr
  | wake i =>
    simp only [step] at hs
    split at hs
    next =>
      obtain rfl := Option.some.inj hs
      exact h
    next => cases hs
  | expire i =>
    simp only [step] at hs
    split at hs
    next =>
      obtain rfl := Option.some.inj hs
      exact h
    next => cases hs
  | setMaxSize maxSize =>
    obtain rfl := Option.some.inj hs
    exact h
  | clear =>
    obtain rfl := Option.some.inj hs
    exact h.clear
  | shutdown =>
    obtain rfl := Option.some.inj hs
    exact h

omit [Fintype ι] [DecidableEq ι] in
/-- Only a `push` that finds a place puts an item in. -/
theorem pushStep_pushed {item : T} {block : Bool}
    (hr : (pushStep s item block).2.1 = .pushed true) : s.items.length < s.maxSize := by
  unfold pushStep at hr
  split at hr
  next => cases hr
  next hblock =>
    split at hr
    next => cases hr
    next hwait =>
      split at hr
      next => cases hr
      next hs => exact Nat.lt_of_not_le fun hfull => hwait ⟨hfull, hs⟩

omit [Fintype ι] [DecidableEq ι] in
/-- A consumer is never told that it has pushed. -/
theorem popStep_pushed (block timed ok : Bool) : (popStep s block timed).2.1 ≠ .pushed ok := by
  unfold popStep
  split
  next =>
    split
    next => nofun
    next => nofun
  next => nofun

omit [Fintype ι] [DecidableEq ι] in
/-- A producer is told that it has pushed only where there was room. -/
theorem enter_pushed {late : Bool} {c : Client T} {r : System ι T × Client T × Signal}
    (hr : enter s late c = some r) (hp : r.2.1 = .pushed true) : s.items.length < s.maxSize := by
  cases c with
  | pushing item block =>
    obtain rfl := Option.some.inj hr
    exact pushStep_pushed hp
  | notFullWoken item =>
    obtain rfl := Option.some.inj hr
    exact pushStep_pushed hp
  | popping block timed =>
    obtain rfl := Option.some.inj hr
    exact absurd hp (popStep_pushed block timed true)
  | notEmptyWoken timed =>
    simp only [enter] at hr
    split at hr
    next =>
      obtain rfl := Option.some.inj hr
      cases hp
    next =>
      obtain rfl := Option.some.inj hr
      exact absurd hp (popStep_pushed true timed true)
  | expired =>
    obtain rfl := Option.some.inj hr
    cases hp
  | returned | pushed | popped | notFull | notEmpty => cases hr

/-- Waking a client tells it nothing of a push. -/
theorem wake_pushed (p : Client T) (h : p.wake = .pushed true) : p = .pushed true := by
  cases p with
  | notFull | notEmpty => cases h
  | _ => exact h

omit [Fintype ι] [DecidableEq ι] in
/-- Waking all clients tells none of them of a push. -/
theorem notifyAll_pushed (Waits : Client T → Prop) [DecidablePred Waits] {c : ι → Client T} {j : ι}
    (hj : notifyAll Waits Client.wake c j = .pushed true) : c j = .pushed true :=
  notifyAll_other (P := fun p => p = .pushed true) (fun p _ => wake_pushed p) hj

/-- A notification tells nobody of a push. -/
theorem notify_pushed {c c' : ι → Client T} {o : Option ι} {signal : Signal}
    (hn : notify c o signal = some c') {j : ι} (hj : c' j = .pushed true) : c j = .pushed true := by
  cases signal with
  | silent =>
    simp only [notify] at hn
    split at hn
    next =>
      obtain rfl := Option.some.inj hn
      exact hj
    next => cases hn
  | notFull =>
    exact notifyOne_waits (P := fun p => p = .pushed true) hn (fun p _ => wake_pushed p) hj
  | notEmpty =>
    exact notifyOne_waits (P := fun p => p = .pushed true) hn (fun p _ => wake_pushed p) hj

omit [Fintype ι] in
/-- A phase that a thread comes to by a step is the one that the step takes it to. -/
theorem eq_of_update {c : ι → Client T} {p q : Client T} {j : ι} (h : update c i p j = q) :
    c j = q ∨ j = i ∧ p = q := by
  rcases eq_or_ne j i with rfl | hne
  · rw [update_self] at h
    exact .inr ⟨rfl, h⟩
  · rw [update_of_ne hne] at h
    exact .inl h

/-- **No push beyond the bound.** A step where a `push` comes to succeed finds a place. -/
theorem step_pushed {l : Label ι T} (hs : step s l = some s') {j : ι}
    (hj : s'.client j = .pushed true) :
    s.client j = .pushed true ∨ s.items.length < s.maxSize := by
  cases l with
  | push i item block =>
    obtain ⟨rfl, -⟩ := call_cases hs
    exact .inl ((eq_of_update hj).resolve_right fun hp => nomatch hp.2)
  | pop i block timed =>
    obtain ⟨rfl, -⟩ := call_cases hs
    exact .inl ((eq_of_update hj).resolve_right fun hp => nomatch hp.2)
  | enter i late o =>
    obtain ⟨r, hr, hs⟩ := Option.bind_eq_some_iff.1 hs
    obtain ⟨client, hn, rfl⟩ := Option.map_eq_some_iff.1 hs
    rcases eq_of_update (notify_pushed hn hj) with hold | ⟨-, hnew⟩
    · exact .inl hold
    · exact .inr (enter_pushed hr hnew)
  | wake i =>
    simp only [step] at hs
    split at hs
    next =>
      obtain rfl := Option.some.inj hs
      rcases eq_of_update hj with hold | ⟨rfl, hnew⟩
      · exact .inl hold
      · exact .inl (wake_pushed _ hnew)
    next => cases hs
  | expire i =>
    simp only [step] at hs
    split at hs
    next =>
      obtain rfl := Option.some.inj hs
      exact .inl ((eq_of_update hj).resolve_right fun hp => nomatch hp.2)
    next => cases hs
  | setMaxSize maxSize =>
    obtain rfl := Option.some.inj hs
    exact .inl hj
  | clear =>
    obtain rfl := Option.some.inj hs
    exact .inl (notifyAll_pushed WaitsNotFull hj)
  | shutdown =>
    obtain rfl := Option.some.inj hs
    exact .inl (notifyAll_pushed WaitsNotFull (notifyAll_pushed WaitsNotEmpty hj))

/-! ## What the calls tell -/

/-- What a thread is told that has come from a phase to another one: a `push` that has returned true
tells of its item, and a `pop` that has returned an item of this one. -/
def Client.told (before after : Client T) : List (Event T) :=
  match before, after with
  | .pushing item _, .pushed true | .notFullWoken item, .pushed true => [.push item]
  | _, .popped (some item) => [.pop item]
  | _, _ => []

/-- What the callers are told of in a step: the results of their calls, and a `clear`. -/
def told (s : System ι T) (l : Label ι T) (t : System ι T) : List (Event T) :=
  match l with
  | .enter i _ _ => (s.client i).told (t.client i)
  | .clear => [.clear]
  | _ => []

/-- Who waits has been told nothing, and is told nothing by being woken. -/
theorem told_of_waits (c : Client T) {p : Client T} (h : WaitsNotFull p ∨ WaitsNotEmpty p) :
    c.told p = [] ∧ c.told p.wake = [] := by
  cases p with
  | notFull item => cases c <;> exact ⟨rfl, rfl⟩
  | notEmpty timed => cases c <;> exact ⟨rfl, rfl⟩
  | _ => rcases h with h | h <;> cases h

/-- A notification tells nobody of a result. -/
theorem notify_told {c c' : ι → Client T} {o : Option ι} {signal : Signal}
    (hn : notify c o signal = some c') (before : Client T) (j : ι) :
    before.told (c' j) = before.told (c j) := by
  have hwoken {Waits : Client T → Prop} [DecidablePred Waits]
      (hwaits : ∀ p, Waits p → WaitsNotFull p ∨ WaitsNotEmpty p)
      (h : notifyOne Waits Client.wake c o = some c') :
      before.told (c' j) = before.told (c j) := by
    rcases notifyOne_cases h with ⟨k, hk, rfl⟩ | ⟨-, rfl⟩
    · rcases eq_or_ne j k with rfl | hne
      · obtain ⟨hwaiting, hwake⟩ := told_of_waits before (hwaits _ hk)
        rw [update_self, hwaiting, hwake]
      · rw [update_of_ne hne]
    · rfl
  cases signal with
  | silent =>
    simp only [notify] at hn
    split at hn
    next =>
      obtain rfl := Option.some.inj hn
      rfl
    next => cases hn
  | notFull => exact hwoken (fun _ => .inl) hn
  | notEmpty => exact hwoken (fun _ => .inr) hn

omit [Fintype ι] [DecidableEq ι] in
/-- A `push` that leaves an item in the queue returns true, and no other does. -/
theorem pushStep_told (s : System ι T) {before : Client T} {item : T} {block : Bool}
    (hbefore : before = .pushing item block ∨ before = .notFullWoken item) :
    (pushStep s item block).1.log = s.log ++ before.told (pushStep s item block).2.1 := by
  have hnone : before.told (.pushed false) = [] ∧ before.told (.notFull item) = [] := by
    rcases hbefore with rfl | rfl <;> exact ⟨rfl, rfl⟩
  have hpushed : before.told (.pushed true) = [.push item] := by
    rcases hbefore with rfl | rfl <;> rfl
  unfold pushStep
  split
  next => rw [hnone.1, List.append_nil]
  split
  next => rw [hnone.2, List.append_nil]
  split
  next => rw [hnone.1, List.append_nil]
  next => rw [hpushed]

omit [Fintype ι] [DecidableEq ι] in
/-- A `pop` that takes an item out of the queue returns it, and no other returns one. -/
theorem popStep_told (s : System ι T) (before : Client T) (block timed : Bool) :
    (popStep s block timed).1.log = s.log ++ before.told (popStep s block timed).2.1 := by
  unfold popStep
  split
  next =>
    split
    next => cases before <;> exact (List.append_nil _).symm
    next => cases before <;> exact (List.append_nil _).symm
  next => cases before <;> rfl

omit [Fintype ι] [DecidableEq ι] in
/-- **What a client is told is what the log gets**, in the same step. -/
theorem enter_told {late : Bool} {c : Client T} {r : System ι T × Client T × Signal}
    (hr : enter s late c = some r) : r.1.log = s.log ++ c.told r.2.1 := by
  cases c with
  | pushing item block =>
    obtain rfl := Option.some.inj hr
    exact pushStep_told s (.inl rfl)
  | notFullWoken item =>
    obtain rfl := Option.some.inj hr
    exact pushStep_told s (.inr rfl)
  | popping block timed =>
    obtain rfl := Option.some.inj hr
    exact popStep_told s _ block timed
  | notEmptyWoken timed =>
    simp only [enter] at hr
    split at hr
    next =>
      obtain rfl := Option.some.inj hr
      exact (List.append_nil _).symm
    next =>
      obtain rfl := Option.some.inj hr
      exact popStep_told s _ true timed
  | expired =>
    obtain rfl := Option.some.inj hr
    exact (List.append_nil _).symm
  | returned | pushed | popped | notFull | notEmpty => cases hr

/-- **The history is what the callers are told**, step by step. -/
theorem step_told (s : System ι T) (l : Label ι T) (t : System ι T) (hs : step s l = some t) :
    t.log = s.log ++ told s l t := by
  cases l with
  | push i item block =>
    obtain ⟨rfl, -⟩ := call_cases hs
    exact (List.append_nil _).symm
  | pop i block timed =>
    obtain ⟨rfl, -⟩ := call_cases hs
    exact (List.append_nil _).symm
  | enter i late o =>
    obtain ⟨r, hr, hs⟩ := Option.bind_eq_some_iff.1 hs
    obtain ⟨client, hn, rfl⟩ := Option.map_eq_some_iff.1 hs
    have htold := notify_told hn (s.client i) i
    rw [update_self] at htold
    rw [told]
    exact (enter_told hr).trans (congrArg _ htold.symm)
  | wake i =>
    simp only [step] at hs
    split at hs
    next =>
      obtain rfl := Option.some.inj hs
      exact (List.append_nil _).symm
    next => cases hs
  | expire i =>
    simp only [step] at hs
    split at hs
    next =>
      obtain rfl := Option.some.inj hs
      exact (List.append_nil _).symm
    next => cases hs
  | setMaxSize maxSize =>
    obtain rfl := Option.some.inj hs
    exact (List.append_nil _).symm
  | clear =>
    obtain rfl := Option.some.inj hs
    rfl
  | shutdown =>
    obtain rfl := Option.some.inj hs
    exact (List.append_nil _).symm

/-! ## Runs -/

omit [DecidableEq ι] in
/-- Where nobody is on its way, nobody waits for what is there. -/
theorem Kept.noneStuck (h : Kept s) (hq : Quiescent s) : NoneStuck s := by
  have hfull : count WokenNotFull s.client = 0 := count_eq_zero.2 fun j => (hq j).1
  have hempty : count WokenNotEmpty s.client = 0 := count_eq_zero.2 fun j => (hq j).2
  constructor
  · intro hw
    have hle := h.pusher hw
    exact ⟨by omega, h.running (.inr hw)⟩
  · intro hw
    have hle := h.popper hw
    exact ⟨List.eq_nil_of_length_eq_zero (by omega), h.running (.inl hw)⟩

omit [DecidableEq ι] in
/-- Nobody waits at a new queue. -/
theorem kept_init : Kept ({} : System ι T) where
  down := nofun
  popper := fun ⟨_, hj⟩ => nomatch hj
  pusher := fun ⟨_, hj⟩ => nomatch hj

/-- **The queue is a bounded one.** In every run the callers are told, by the results of their
calls, the history of a queue that has these items: what the calls of `pop` have returned has been
pushed by calls of `push` that have returned true, in their order, none twice, and all of it but
what has been cleared and what is still there; a `push` succeeds only where there is a place. When
every step has been careful, nobody waits for what is there once the notifications have been dealt
with. -/
theorem bounded_fifo {ls : List (Label ι T)} (h : run step {} ls = some s) :
    s.log = outputs step told {} ls ∧ Legal s.log s.items ∧
      (popped s.log ++ s.items).Sublist (pushed s.log) ∧
      (.clear ∉ s.log → pushed s.log = popped s.log ++ s.items) ∧
      (∀ l s' j, step s l = some s' → s'.client j = .pushed true →
        s.client j = .pushed true ∨ s.items.length < s.maxSize) ∧
      (Along step Careful {} ls → Quiescent s → NoneStuck s) := by
  have hlegal : Legal s.log s.items :=
    run_invariant (P := fun s => Legal s.log s.items) (fun _ _ _ hl hs => step_legal hl hs) .nil h
  have htold : s.log = [] ++ outputs step told {} ls := run_outputs (fun s => s.log) step_told h
  refine ⟨htold, hlegal, hlegal.popped_sublist, hlegal.pushed_eq, ?_, ?_⟩
  · intro l s' j hs hj
    exact step_pushed hs hj
  · intro hc
    have hkept : Kept s := run_along (fun _ _ _ hc hk hl => step_kept hc hk hl) kept_init hc h
    exact hkept.noneStuck

end

/-- A queue of one place: the second `push` waits until the first item is popped, and the popper
waits for the third item, which comes while it waits. -/
def handover : List (Label (Fin 3) Nat) :=
  [.setMaxSize 1, .push 0 7 true, .enter 0 false none, .push 1 8 true, .enter 1 false none,
    .pop 2 true false, .enter 2 false (some 1), .enter 1 false none, .pop 0 true false,
    .enter 0 false none, .pop 2 true false, .enter 2 false none, .push 1 9 false,
    .enter 1 false (some 2), .enter 2 false none]

/-- A consumer waits, three items are pushed, and the three are popped in their order. -/
theorem bounded_fifo_handover : ∃ s : System (Fin 3) Nat,
    run step {} handover = some s ∧ popped (outputs step told {} handover) = [7, 8, 9] ∧
      pushed (outputs step told {} handover) = [7, 8, 9] ∧
      (popped s.log ++ s.items).Sublist (pushed s.log) ∧ NoneStuck s := by
  obtain ⟨s, hs⟩ : ∃ s, run step ({} : System (Fin 3) Nat) handover = some s := ⟨_, rfl⟩
  obtain ⟨-, -, hsub, -, -, hstuck⟩ := bounded_fifo hs
  have hquiet : Quiescent s := by
    cases hs
    decide
  exact ⟨s, hs, by decide, by decide, hsub, hstuck (by decide) hquiet⟩

/-- A pusher that waits for a place is not told of the place that a larger bound makes. -/
theorem stuck_below_bound :
    ¬ ∀ (ls : List (Label (Fin 2) Nat)) (s : System (Fin 2) Nat),
      run step {} ls = some s → Quiescent s → NoneStuck s := by
  intro h
  have hstuck := h [.setMaxSize 1, .push 0 7 true, .enter 0 false none, .push 1 8 true,
    .enter 1 false none, .setMaxSize 2] _ rfl (by decide)
  have hfull := (hstuck.1 ⟨1, rfl⟩).1
  revert hfull
  decide

end

end ThreadSafeQueue
