import FastCppServer.Lib.Since
import FastCppServer.Lib.Transition
import FastCppServer.FastMqtt.Lifecycle

/-!
# The connection to the broker

The receiver thread of `FastMQTT` (`ReceiverLoop`) with the callbacks that run inside
`mosquitto_loop` (`HandleConnect`, `HandleDisconnect`), between `Start` and `Stop`. A step is one
access to what the thread shares, and the library answers as it likes.

The log is what an observer of the network sees: the calls that connect, the answers of the broker,
the losses and the waits. The waits are those of the back-off table, counted from the last accepted
connection (`waitsSince`); the three flags say, once they are all stored, whether the last thing the
log tells is an accepted connection (`connection_run`).
-/

namespace FastMqtt

namespace Connection

open Transition Function

/-! ## The steps -/

/-- `broker_connected_`, `session_connected_` and `ready_`, in the order in which they are stored.
-/
inductive Flag where
  | brokerConnected
  | sessionConnected
  | ready
  deriving DecidableEq

/-- The flags, in the order in which they are stored. -/
def allFlags : List Flag := [.brokerConnected, .sessionConnected, .ready]

/-- What the receiver thread does, and what it learns of the connection. -/
inductive Event where
  /-- `Start`. -/
  | start
  /-- `mosquitto_connect`. -/
  | connect
  /-- `mosquitto_reconnect`. -/
  | reconnect
  /-- `HandleConnect` with 0. -/
  | accepted
  /-- `HandleConnect` with an error, `HandleDisconnect`, or an error of `mosquitto_loop`. -/
  | lost
  /-- A back-off of so many seconds begins. -/
  | wait (seconds : Nat)
  /-- `Stop` returns. -/
  | stopped
  deriving DecidableEq

/-- What comes behind the stores. -/
inductive Next where
  | resetBackoff
  | inLoop
  | left
  deriving DecidableEq

/-- Where the receiver thread stands. -/
inductive Phase where
  /-- At the outer `while (running_.load())`. -/
  | top
  /-- Before `mosquitto_connect` or `mosquitto_reconnect`. -/
  | connecting
  /-- In a wait, with the sleeps that are left of it; `failed` is the wait of step 1. -/
  | sleeping (ticks : Nat) (failed : Bool)
  /-- At the inner `while (running_.load())`. -/
  | looping
  /-- In `mosquitto_loop`. -/
  | inLoop
  | storing (flags : List Flag) (value : Bool) (next : Next)
  /-- At the `if` of step 3. -/
  | left
  deriving DecidableEq

/-- The module, as far as its receiver thread is concerned. -/
structure System where
  running : Bool := false
  thread : Transition.Thread Phase := .none
  /-- `ever_connected`, of the thread. -/
  everConnected : Bool := false
  flags : Flag → Bool := fun _ => false
  backoffIndex : Nat := 0
  reconnectCount : Nat := 0
  log : List Event := []

/-- The next step, or what the library calls back. -/
inductive Label where
  | start
  /-- `Stop` clears `running_`. -/
  | stop
  /-- `Stop` has joined the thread and clears the flags. -/
  | join
  /-- The thread looks at `running_`. -/
  | check
  /-- It connects, with success or not. -/
  | connect (success : Bool)
  /-- It looks at `running_` in a wait, and sleeps. -/
  | tick
  /-- `HandleConnect`, with 0 or not. -/
  | handleConnect (accepted : Bool)
  | handleDisconnect
  /-- `mosquitto_loop` returns. -/
  | loopReturns (success : Bool)
  /-- The next of its stores, or what comes behind them. -/
  | store

/-- The waits of the back-off, in seconds. -/
def kBackoffTable : List Nat := [1, 2, 5, 10, 20, 30]

/-- `NextBackoffSeconds`: the wait, and the new `backoff_index_`. -/
def nextBackoffSeconds (index : Nat) : Nat × Nat :=
  (kBackoffTable.getD (if index < kBackoffTable.length then index else kBackoffTable.length - 1) 0,
    if index + 1 < kBackoffTable.length then index + 1 else index)

/-- A wait begins, which is counted in tenths of a second. -/
def System.wait (s : System) (failed : Bool) : System :=
  let (wait, index) := nextBackoffSeconds s.backoffIndex
  { s with
    backoffIndex := index, thread := .running (.sleeping (wait * 10) failed)
    log := s.log ++ [.wait wait] }

/-- `mosquitto_connect` the first time, `mosquitto_reconnect` from then on. -/
def System.attempt (s : System) : System :=
  if s.everConnected then
    { s with reconnectCount := s.reconnectCount + 1, log := s.log ++ [.reconnect] }
  else { s with everConnected := true, log := s.log ++ [.connect] }

/-- The three stores of one value. -/
def System.storeAll (s : System) (value : Bool) (next : Next) : System :=
  { s with
    thread := .running (.storing allFlags value next)
    log := s.log ++ [if value then .accepted else .lost] }

/-- One step. A label that cannot come in this state has no successor. -/
def step (config : Lifecycle.Config) (s : System) : Label → Option System
  | .start =>
    match s.thread with
    | .none =>
      some { s with
        running := true, thread := .running .top, everConnected := false, backoffIndex := 0
        log := s.log ++ [.start] }
    | _ => none
  | .stop => if s.running then some { s with running := false } else none
  | .join =>
    match s.thread, s.running with
    | .exited, false =>
      some { s with thread := .none, flags := fun _ => false, log := s.log ++ [.stopped] }
    | _, _ => none
  | .check =>
    match s.thread with
    | .running .top =>
      some { s with thread := if s.running then .running .connecting else .exited }
    | .running .looping =>
      some { s with thread := .running (if s.running then .inLoop else .left) }
    | .running .left =>
      if s.running then
        if config.autoReconnect then some (s.wait false) else some { s with thread := .exited }
      else some { s with thread := .running .top }
    | _ => none
  | .connect success =>
    match s.thread with
    | .running .connecting =>
      some (if success then { s.attempt with thread := .running .looping } else s.attempt.wait true)
    | _ => none
  | .tick =>
    match s.thread with
    | .running (.sleeping ticks failed) =>
      if 0 < ticks ∧ s.running then
        some { s with thread := .running (.sleeping (ticks - 1) failed) }
      else if failed ∧ ¬ config.autoReconnect then some { s with thread := .exited }
      else some { s with thread := .running .top }
    | _ => none
  | .handleConnect accepted =>
    match s.thread with
    | .running .inLoop => some (s.storeAll accepted (if accepted then .resetBackoff else .inLoop))
    | _ => none
  | .handleDisconnect =>
    match s.thread with
    | .running .inLoop => some (s.storeAll false .inLoop)
    | _ => none
  | .loopReturns success =>
    match s.thread with
    | .running .inLoop =>
      if success then some { s with thread := .running .looping }
      else some (s.storeAll false .left)
    | _ => none
  | .store =>
    match s.thread with
    | .running (.storing (flag :: flags) value next) =>
      some { s with
        thread := .running (.storing flags value next)
        flags := update s.flags flag (if flag = .ready then value && config.enable else value) }
    | .running (.storing [] _ .resetBackoff) =>
      some { s with backoffIndex := 0, thread := .running .inLoop }
    | .running (.storing [] _ .inLoop) => some { s with thread := .running .inLoop }
    | .running (.storing [] _ .left) => some { s with thread := .running .left }
    | _ => none

/-! ## What the log tells -/

/-- From here on the back-off begins anew. -/
def Event.resets : Event → Bool
  | .start | .accepted => true
  | _ => false

/-- A wait. -/
def Event.isWait : Event → Bool
  | .wait _ => true
  | _ => false

/-- An attempt to connect. -/
def Event.isAttempt : Event → Bool
  | .connect | .reconnect => true
  | _ => false

/-- The waits since the last start or the last accepted connection. -/
def waitsSince (log : List Event) : Nat :=
  (log.reverse.takeWhile fun e => !e.resets).countP Event.isWait

/-- The thread of this session has tried to connect. -/
def Attempted (log : List Event) : Prop := Since (·.isAttempt) (· = .start) log

/-- The last that is known of the connection is that it is accepted. -/
def Up (log : List Event) : Prop := Since (· = .accepted) (fun e => e = .lost ∨ e = .stopped) log

instance (log : List Event) : Decidable (Up log) := inferInstanceAs (Decidable (Since _ _ log))

/-- The waits, when one more event comes. -/
theorem waitsSince_concat (log : List Event) (e : Event) :
    waitsSince (log ++ [e]) =
      if e.resets then 0 else waitsSince log + if e.isWait then 1 else 0 := by
  rw [waitsSince, List.reverse_append, List.reverse_singleton, List.singleton_append,
    List.takeWhile_cons]
  cases e.resets with
  | true => rfl
  | false => exact List.countP_cons

/-- The thread has tried once an attempt has come since the start. -/
theorem attempted_concat {log : List Event} {e : Event} :
    Attempted (log ++ [e]) ↔ e.isAttempt = true ∨ Attempted log ∧ e ≠ .start := Since.concat

/-- The connection is up from when it is accepted until it is lost. -/
theorem up_concat {log : List Event} {e : Event} :
    Up (log ++ [e]) ↔ e = .accepted ∨ Up log ∧ ¬ (e = .lost ∨ e = .stopped) := Since.concat

/-- The flags that are still to be stored. -/
def System.pending (s : System) : List Flag :=
  match s.thread with
  | .running (.storing flags _ _) => flags
  | _ => []

/-- What a flag is to say. -/
def flagOf (config : Lifecycle.Config) (log : List Event) (flag : Flag) : Bool :=
  if flag = .ready then decide (Up log) && config.enable else decide (Up log)

/-- The log is as the calls of the thread can make it: each wait is that of the table, and the first
attempt of a session is the one that connects anew. -/
inductive Proper : List Event → Prop
  | nil : Proper []
  | connect {log : List Event} : Proper log → ¬ Attempted log → Proper (log ++ [.connect])
  | reconnect {log : List Event} : Proper log → Attempted log → Proper (log ++ [.reconnect])
  | wait {log : List Event} : Proper log →
      Proper (log ++ [.wait (kBackoffTable.getD (min (waitsSince log) 5) 0)])
  | start {log : List Event} : Proper log → Proper (log ++ [.start])
  | accepted {log : List Event} : Proper log → Proper (log ++ [.accepted])
  | lost {log : List Event} : Proper log → Proper (log ++ [.lost])
  | stopped {log : List Event} : Proper log → Proper (log ++ [.stopped])

/-! ## What every run keeps -/

/-- What is known of the thread where it stands. -/
def Phase.Ok (config : Lifecycle.Config) (s : System) : Phase → Prop
  | .top => config.autoReconnect = false → s.everConnected = true → s.running = false
  | .connecting => config.autoReconnect = false → s.everConnected = false
  | .sleeping _ failed => config.autoReconnect = false → failed = true
  | .storing _ value next =>
    value = decide (Up s.log) ∧ (next = .resetBackoff → waitsSince s.log = 0)
  | .looping | .inLoop | .left => True

/-- `ResetBackoff` is still to come. -/
def Phase.resetting : Phase → Prop
  | .storing _ _ next => next = .resetBackoff
  | _ => False

/-- **What every step keeps**: the fields are what the log says, where no store is due. -/
structure Inv (config : Lifecycle.Config) (s : System) : Prop where
  proper : Proper s.log
  index : (∀ p, s.thread = .running p → ¬ p.resetting) → s.backoffIndex = min (waitsSince s.log) 5
  ever : s.thread ≠ .none → (s.everConnected = true ↔ Attempted s.log)
  reconnects : s.reconnectCount = s.log.count .reconnect
  once : config.autoReconnect = false → Event.reconnect ∉ s.log
  phase : ∀ p, s.thread = .running p → p.Ok config s
  flags : ∀ flag, flag ∉ s.pending → s.flags flag = flagOf config s.log flag
  off : s.thread = .none → ¬ Up s.log

/-- At first nothing has been tried. -/
theorem inv_init (config : Lifecycle.Config) : Inv config {} where
  proper := .nil
  index := fun _ => rfl
  ever := fun h => absurd rfl h
  reconnects := rfl
  once := fun _ => List.not_mem_nil
  phase := nofun
  flags := by
    intro flag _
    cases flag <;> rfl
  off := by
    intro _ h
    exact absurd h (by decide)

/-- The next wait of the table, with its index. -/
theorem nextBackoffSeconds_min (k : Nat) :
    nextBackoffSeconds (min k 5) = (kBackoffTable.getD (min k 5) 0, min (k + 1) 5) := by
  have hk : min k 5 < kBackoffTable.length := by
    show min k 5 < 6
    omega
  rw [nextBackoffSeconds, if_pos hk]
  congr 1
  show (if min k 5 + 1 < 6 then min k 5 + 1 else min k 5) = min (k + 1) 5
  split <;> omega

/-- An event that is no news of the connection. -/
theorem flagOf_concat (config : Lifecycle.Config) (log : List Event) {e : Event}
    (he : e ≠ .accepted) (he' : ¬ (e = .lost ∨ e = .stopped)) (flag : Flag) :
    flagOf config (log ++ [e]) flag = flagOf config log flag := by
  have hup : Up (log ++ [e]) ↔ Up log := by simp [up_concat, he, he']
  simp only [flagOf, hup]

/-- An event that is no reconnection is not counted. -/
theorem count_concat (log : List Event) {e : Event} (he : e ≠ .reconnect) :
    (log ++ [e]).count .reconnect = log.count .reconnect := by
  rw [List.count_append, List.count_singleton]
  simp [he]

/-! ## Every step keeps it -/

/-- A step of the thread that tells the network nothing and stores no flag. -/
theorem Inv.move {config : Lifecycle.Config} {s : System} (hi : Inv config s) {p : Phase}
    (hs : s.thread = .running p) (hp : ¬ p.resetting) (hpending : s.pending = [])
    {thread : Transition.Thread Phase} (ht : thread ≠ .none)
    (hphase : ∀ q, thread = .running q → q.Ok config { s with thread }) :
    Inv config { s with thread } where
  proper := hi.proper
  index := fun _ => hi.index fun q hq => by
    cases hs.symm.trans hq
    exact hp
  ever := fun _ => hi.ever (by rw [hs]; nofun)
  reconnects := hi.reconnects
  once := hi.once
  phase := hphase
  flags := by
    intro flag _
    exact hi.flags flag (by rw [hpending]; exact List.not_mem_nil)
  off := fun h => absurd h ht

/-- The thread leaves its loop. -/
theorem Inv.exit {config : Lifecycle.Config} {s : System} (hi : Inv config s) {p : Phase}
    (hs : s.thread = .running p) (hp : ¬ p.resetting) (hpending : s.pending = []) :
    Inv config { s with thread := .exited } :=
  hi.move hs hp hpending nofun nofun

/-- `Start` keeps it. -/
theorem Inv.start {config : Lifecycle.Config} {s : System} (hi : Inv config s)
    (hs : s.thread = .none) :
    Inv config { s with
      running := true, thread := .running .top, everConnected := false, backoffIndex := 0
      log := s.log ++ [.start] } where
  proper := .start hi.proper
  index := by
    intro _
    show 0 = min (waitsSince (s.log ++ [Event.start])) 5
    rw [waitsSince_concat]
    rfl
  ever := by
    intro _
    show false = true ↔ Attempted (s.log ++ [Event.start])
    simp [attempted_concat, Event.isAttempt]
  reconnects := by
    show s.reconnectCount = (s.log ++ [Event.start]).count Event.reconnect
    rw [hi.reconnects, count_concat s.log (by simp)]
  once := by
    intro hauto
    show Event.reconnect ∉ s.log ++ [Event.start]
    simp [hi.once hauto]
  phase := by
    intro p hp
    cases hp
    intro _ h
    cases h
  flags := by
    intro flag _
    show s.flags flag = flagOf config (s.log ++ [Event.start]) flag
    rw [flagOf_concat config s.log (by simp) (by simp)]
    exact hi.flags flag (by rw [System.pending, hs]; exact List.not_mem_nil)
  off := nofun

/-- The end of `Stop` keeps it: the flags are cleared. -/
theorem Inv.join {config : Lifecycle.Config} {s : System} (hi : Inv config s)
    (hs : s.thread = .exited) :
    Inv config { s with
      thread := .none, flags := fun _ => false, log := s.log ++ [.stopped] } := by
  have hdown : ¬ Up (s.log ++ [Event.stopped]) := by simp [up_concat]
  refine ⟨.stopped hi.proper, ?_, fun h => absurd rfl h, ?_, ?_, nofun, ?_, fun _ => hdown⟩
  · intro _
    show s.backoffIndex = min (waitsSince (s.log ++ [Event.stopped])) 5
    rw [waitsSince_concat]
    exact hi.index fun p hp => by cases hs.symm.trans hp
  · show s.reconnectCount = (s.log ++ [Event.stopped]).count Event.reconnect
    rw [hi.reconnects, count_concat s.log (by simp)]
  · intro hauto
    show Event.reconnect ∉ s.log ++ [Event.stopped]
    simp [hi.once hauto]
  · intro flag _
    show false = flagOf config (s.log ++ [Event.stopped]) flag
    simp [flagOf, hdown]

/-- `Stop` clears `running_`, wherever the thread stands. -/
theorem Inv.stop {config : Lifecycle.Config} {s : System} (hi : Inv config s) :
    Inv config { s with running := false } := by
  refine ⟨hi.proper, hi.index, hi.ever, hi.reconnects, hi.once, fun p hp => ?_, hi.flags, hi.off⟩
  have hok := hi.phase p hp
  cases p with
  | top => exact fun _ _ => rfl
  | _ => exact hok

/-- The thread connects: anew the first time, and without `auto_reconnect` only then. -/
theorem Inv.attempt {config : Lifecycle.Config} {s : System} (hi : Inv config s)
    (hs : s.thread = .running .connecting) :
    Inv config { s.attempt with thread := .running .looping } := by
  have hever := hi.ever (by rw [hs]; nofun)
  have hindex : s.backoffIndex = min (waitsSince s.log) 5 :=
    hi.index fun p hp => by cases hs.symm.trans hp; exact id
  have hflags : ∀ flag, s.flags flag = flagOf config s.log flag :=
    fun flag => hi.flags flag (by rw [System.pending, hs]; exact List.not_mem_nil)
  rw [System.attempt]
  split
  · next he =>
    refine ⟨.reconnect hi.proper (hever.1 he), ?_, ?_, ?_, ?_, ?_, ?_, nofun⟩
    · intro _
      show s.backoffIndex = min (waitsSince (s.log ++ [Event.reconnect])) 5
      rw [waitsSince_concat]
      exact hindex
    · intro _
      show s.everConnected = true ↔ Attempted (s.log ++ [Event.reconnect])
      simp [attempted_concat, Event.isAttempt, he]
    · show s.reconnectCount + 1 = (s.log ++ [Event.reconnect]).count Event.reconnect
      rw [hi.reconnects, List.count_append]
      rfl
    · intro hauto
      have hfirst : s.everConnected = false := hi.phase .connecting hs hauto
      rw [he] at hfirst
      cases hfirst
    · intro p hp
      cases hp
      trivial
    · intro flag _
      show s.flags flag = flagOf config (s.log ++ [Event.reconnect]) flag
      rw [flagOf_concat config s.log (by simp) (by simp), hflags]
  · next he =>
    refine ⟨.connect hi.proper (fun h => he (hever.2 h)), ?_, ?_, ?_, ?_, ?_, ?_, nofun⟩
    · intro _
      show s.backoffIndex = min (waitsSince (s.log ++ [Event.connect])) 5
      rw [waitsSince_concat]
      exact hindex
    · intro _
      show true = true ↔ Attempted (s.log ++ [Event.connect])
      simp [attempted_concat, Event.isAttempt]
    · show s.reconnectCount = (s.log ++ [Event.connect]).count Event.reconnect
      rw [hi.reconnects, count_concat s.log (by simp)]
    · intro hauto
      show Event.reconnect ∉ s.log ++ [Event.connect]
      simp [hi.once hauto]
    · intro p hp
      cases hp
      trivial
    · intro flag _
      show s.flags flag = flagOf config (s.log ++ [Event.connect]) flag
      rw [flagOf_concat config s.log (by simp) (by simp), hflags]

/-- The thread begins a wait, which is the next of the table. -/
theorem Inv.wait {config : Lifecycle.Config} {s : System} (hi : Inv config s) {p : Phase}
    (hs : s.thread = .running p) (hp : ¬ p.resetting) (hpending : s.pending = []) {failed : Bool}
    (hfailed : config.autoReconnect = false → failed = true) : Inv config (s.wait failed) := by
  have hindex : s.backoffIndex = min (waitsSince s.log) 5 :=
    hi.index fun q hq => by cases hs.symm.trans hq; exact hp
  rw [System.wait, hindex, nextBackoffSeconds_min]
  refine ⟨.wait hi.proper, ?_, ?_, ?_, ?_, ?_, ?_, nofun⟩
  · intro _
    show min (waitsSince s.log + 1) 5 = min (waitsSince (s.log ++ [Event.wait _])) 5
    rw [waitsSince_concat]
    rfl
  · intro _
    show s.everConnected = true ↔ Attempted (s.log ++ [Event.wait _])
    simp [attempted_concat, Event.isAttempt, hi.ever (by rw [hs]; nofun)]
  · show s.reconnectCount = (s.log ++ [Event.wait _]).count Event.reconnect
    rw [hi.reconnects, count_concat s.log (by simp)]
  · intro hauto
    show Event.reconnect ∉ s.log ++ [Event.wait _]
    simp [hi.once hauto]
  · intro q hq
    cases hq
    exact hfailed
  · intro flag _
    show s.flags flag = flagOf config (s.log ++ [Event.wait _]) flag
    rw [flagOf_concat config s.log (by simp) (by simp)]
    exact hi.flags flag (by rw [hpending]; exact List.not_mem_nil)

/-- News of the connection: all three flags are to be stored. -/
theorem Inv.storeAll {config : Lifecycle.Config} {s : System} (hi : Inv config s)
    (hs : s.thread = .running .inLoop) {value : Bool} {next : Next}
    (hnext : value = true ↔ next = .resetBackoff) : Inv config (s.storeAll value next) := by
  have hindex : s.backoffIndex = min (waitsSince s.log) 5 :=
    hi.index fun q hq => by cases hs.symm.trans hq; exact id
  have hever := hi.ever (by rw [hs]; nofun)
  cases value with
  | true =>
    refine ⟨.accepted hi.proper, ?_, ?_, ?_, ?_, ?_, ?_, nofun⟩
    · intro h
      exact absurd (hnext.1 rfl) (h _ rfl)
    · intro _
      show s.everConnected = true ↔ Attempted (s.log ++ [Event.accepted])
      simp [attempted_concat, Event.isAttempt, hever]
    · show s.reconnectCount = (s.log ++ [Event.accepted]).count Event.reconnect
      rw [hi.reconnects, count_concat s.log (by simp)]
    · intro hauto
      show Event.reconnect ∉ s.log ++ [Event.accepted]
      simp [hi.once hauto]
    · intro q hq
      cases hq
      refine ⟨?_, fun _ => ?_⟩
      · show true = decide (Up (s.log ++ [Event.accepted]))
        simp [up_concat]
      · show waitsSince (s.log ++ [Event.accepted]) = 0
        rw [waitsSince_concat]
        rfl
    · intro flag h
      exact absurd (by cases flag <;> decide : flag ∈ allFlags) h
  | false =>
    refine ⟨.lost hi.proper, ?_, ?_, ?_, ?_, ?_, ?_, nofun⟩
    · intro _
      show s.backoffIndex = min (waitsSince (s.log ++ [Event.lost])) 5
      rw [waitsSince_concat]
      exact hindex
    · intro _
      show s.everConnected = true ↔ Attempted (s.log ++ [Event.lost])
      simp [attempted_concat, Event.isAttempt, hever]
    · show s.reconnectCount = (s.log ++ [Event.lost]).count Event.reconnect
      rw [hi.reconnects, count_concat s.log (by simp)]
    · intro hauto
      show Event.reconnect ∉ s.log ++ [Event.lost]
      simp [hi.once hauto]
    · intro q hq
      cases hq
      refine ⟨?_, fun h => ?_⟩
      · show false = decide (Up (s.log ++ [Event.lost]))
        simp [up_concat]
      · cases hnext.2 h
    · intro flag h
      exact absurd (by cases flag <;> decide : flag ∈ allFlags) h

/-- One more flag is stored. -/
theorem Inv.storeFlag {config : Lifecycle.Config} {s : System} (hi : Inv config s) {flag : Flag}
    {flags : List Flag} {value : Bool} {next : Next}
    (hs : s.thread = .running (.storing (flag :: flags) value next)) :
    Inv config { s with
      thread := .running (.storing flags value next)
      flags := update s.flags flag (if flag = .ready then value && config.enable else value) } := by
  obtain ⟨hvalue, hwaits⟩ := hi.phase _ hs
  refine ⟨hi.proper, ?_, fun _ => hi.ever (by rw [hs]; nofun), hi.reconnects, hi.once, ?_, ?_,
    nofun⟩
  · intro h
    refine hi.index fun q hq => ?_
    cases hs.symm.trans hq
    exact h (.storing flags value next) rfl
  · intro q hq
    cases hq
    exact ⟨hvalue, hwaits⟩
  · intro f hf
    show update s.flags flag _ f = flagOf config s.log f
    rcases eq_or_ne f flag with rfl | hne
    · rw [update_self, flagOf, hvalue]
    · rw [update_of_ne hne]
      refine hi.flags f ?_
      rw [System.pending, hs]
      exact List.not_mem_cons_of_ne_of_not_mem hne hf

/-- `ResetBackoff`, when the connection is accepted and the flags are stored. -/
theorem Inv.resetBackoff {config : Lifecycle.Config} {s : System} (hi : Inv config s) {value : Bool}
    (hs : s.thread = .running (.storing [] value .resetBackoff)) :
    Inv config { s with backoffIndex := 0, thread := .running .inLoop } := by
  obtain ⟨-, hwaits⟩ := hi.phase _ hs
  refine ⟨hi.proper, ?_, fun _ => hi.ever (by rw [hs]; nofun), hi.reconnects, hi.once, ?_, ?_,
    nofun⟩
  · intro _
    show 0 = min (waitsSince s.log) 5
    rw [hwaits rfl]
    rfl
  · intro q hq
    cases hq
    trivial
  · intro flag _
    exact hi.flags flag (by rw [System.pending, hs]; exact List.not_mem_nil)

/-- The flags are stored, and the thread goes on. -/
theorem Inv.resume {config : Lifecycle.Config} {s : System} (hi : Inv config s) {value : Bool}
    {next : Next} (hs : s.thread = .running (.storing [] value next)) (hnext : next ≠ .resetBackoff)
    {p : Phase} (hp : p.Ok config { s with thread := .running p }) :
    Inv config { s with thread := .running p } := by
  refine hi.move hs hnext (by rw [System.pending, hs]) nofun fun q hq => ?_
  cases hq
  exact hp

/-- A look at the flags, at one of the three places where the thread takes it, keeps it. -/
theorem Inv.check {config : Lifecycle.Config} {s t : System} (hi : Inv config s)
    (h : Connection.step config s .check = some t) : Inv config t := by
  simp only [Connection.step] at h
  split at h
  · next hs =>
    -- at the outer loop
    cases h
    have hok := hi.phase _ hs
    have hpending : s.pending = [] := by rw [System.pending, hs]
    rcases Bool.eq_false_or_eq_true s.running with hrun | hrun
    · rw [if_pos hrun]
      refine hi.move hs id hpending nofun fun q hq => ?_
      cases hq
      intro hauto
      show s.everConnected = false
      refine Bool.eq_false_iff.2 fun hever => ?_
      rw [hok hauto hever] at hrun
      cases hrun
    · rw [if_neg (by rw [hrun]; nofun)]
      exact hi.exit hs id hpending
  · next hs =>
    -- at the inner loop
    cases h
    refine hi.move hs id (by rw [System.pending, hs]) nofun fun q hq => ?_
    rcases Bool.eq_false_or_eq_true s.running with hrun | hrun
    · rw [hrun] at hq
      cases hq
      trivial
    · rw [hrun] at hq
      cases hq
      trivial
  · next hs =>
    -- behind it
    have hpending : s.pending = [] := by rw [System.pending, hs]
    split at h
    · split at h
      · next hauto =>
        cases h
        exact hi.wait hs id hpending fun h => by rw [hauto] at h; cases h
      · cases h
        exact hi.exit hs id hpending
    · next hrun =>
      cases h
      refine hi.move hs id hpending nofun fun q hq => ?_
      cases hq
      exact fun _ _ => Bool.eq_false_iff.2 hrun
  · cases h

/-- An attempt to connect keeps it, whether it succeeds or not. -/
theorem Inv.connect {config : Lifecycle.Config} {s t : System} (hi : Inv config s) {success : Bool}
    (h : Connection.step config s (.connect success) = some t) : Inv config t := by
  simp only [Connection.step] at h
  split at h
  · next hs =>
    have hattempt := hi.attempt hs
    cases success with
    | true =>
      cases h
      exact hattempt
    | false =>
      cases h
      exact hattempt.wait rfl id rfl fun _ => rfl
  · cases h

/-- A tick of the waiting time keeps it. -/
theorem Inv.tick {config : Lifecycle.Config} {s t : System} (hi : Inv config s)
    (h : Connection.step config s .tick = some t) : Inv config t := by
  simp only [Connection.step] at h
  split at h
  · next ticks failed hs =>
    have hok := hi.phase _ hs
    have hpending : s.pending = [] := by rw [System.pending, hs]
    split at h
    · cases h
      refine hi.move hs id hpending nofun fun q hq => ?_
      cases hq
      exact hok
    · split at h
      · cases h
        exact hi.exit hs id hpending
      · next hgo =>
        cases h
        refine hi.move hs id hpending nofun fun q hq => ?_
        cases hq
        intro hauto _
        exact absurd ⟨hok hauto, by rw [hauto]; nofun⟩ hgo
  · cases h

/-- The library's loop returns: with an error the connection is lost. -/
theorem Inv.loopReturns {config : Lifecycle.Config} {s t : System}
    (hi : Inv config s) {success : Bool}
    (h : Connection.step config s (.loopReturns success) = some t) : Inv config t := by
  simp only [Connection.step] at h
  split at h
  · next hs =>
    cases success with
    | true =>
      cases h
      refine hi.move hs id (by rw [System.pending, hs]) nofun fun q hq => ?_
      cases hq
      trivial
    | false =>
      cases h
      exact hi.storeAll hs (by simp)
  · cases h

/-- The thread stores one flag more, or goes on behind the last. -/
theorem Inv.store {config : Lifecycle.Config} {s t : System} (hi : Inv config s)
    (h : Connection.step config s .store = some t) : Inv config t := by
  simp only [Connection.step] at h
  split at h
  · next hs =>
    cases h
    exact hi.storeFlag hs
  · next hs =>
    cases h
    exact hi.resetBackoff hs
  · next hs =>
    cases h
    exact hi.resume hs nofun trivial
  · next hs =>
    cases h
    exact hi.resume hs nofun trivial
  · cases h


/-- **A step keeps it.** -/
theorem Inv.step {config : Lifecycle.Config} {s t : System} (hi : Inv config s) {l : Label}
    (h : Connection.step config s l = some t) : Inv config t := by
  cases l with
  | start =>
    simp only [Connection.step] at h
    split at h
    · next hs =>
      cases h
      exact hi.start hs
    · cases h
  | stop =>
    simp only [Connection.step] at h
    split at h
    · cases h
      exact hi.stop
    · cases h
  | join =>
    simp only [Connection.step] at h
    split at h
    · next hs _ =>
      cases h
      exact hi.join hs
    · cases h
  | check => exact hi.check h
  | connect success => exact hi.connect h
  | tick => exact hi.tick h
  | handleConnect accepted =>
    simp only [Connection.step] at h
    split at h
    · next hs =>
      cases h
      cases accepted with
      | true => exact hi.storeAll hs (by simp)
      | false => exact hi.storeAll hs (by simp)
    · cases h
  | handleDisconnect =>
    simp only [Connection.step] at h
    split at h
    · next hs =>
      cases h
      exact hi.storeAll hs (by simp)
    · cases h
  | loopReturns success => exact hi.loopReturns h
  | store => exact hi.store h

/-- What a proper log says of its entries. -/
theorem Proper.of_append {log : List Event} (h : Proper log) {front back : List Event} {e : Event}
    (hlog : log = front ++ e :: back) :
    (e = .connect → ¬ Attempted front) ∧ (e = .reconnect → Attempted front) ∧
      ∀ n, e = .wait n → n = kBackoffTable.getD (min (waitsSince front) 5) 0 := by
  have hlast : ∀ {log : List Event} {f : Event}, Proper (log ++ [f]) →
      (f = .connect → ¬ Attempted log) ∧ (f = .reconnect → Attempted log) ∧
        ∀ n, f = .wait n → n = kBackoffTable.getD (min (waitsSince log) 5) 0 := by
    intro log f hp
    generalize hl : log ++ [f] = l at hp
    cases hp with
    | nil => simp at hl
    | connect _ hno =>
      obtain ⟨rfl, hf⟩ := List.append_inj' hl rfl
      cases hf
      exact ⟨fun _ => hno, nofun, nofun⟩
    | reconnect _ ha =>
      obtain ⟨rfl, hf⟩ := List.append_inj' hl rfl
      cases hf
      exact ⟨nofun, fun _ => ha, nofun⟩
    | wait _ =>
      obtain ⟨rfl, hf⟩ := List.append_inj' hl rfl
      cases hf
      exact ⟨nofun, nofun, fun n hn => by cases hn; rfl⟩
    | start _ | accepted _ | lost _ | stopped _ =>
      obtain ⟨rfl, hf⟩ := List.append_inj' hl rfl
      cases hf
      exact ⟨nofun, nofun, nofun⟩
  have hfront : ∀ {log : List Event} {f : Event}, Proper (log ++ [f]) → Proper log := by
    intro log f hp
    generalize hl : log ++ [f] = l at hp
    cases hp with
    | nil => simp at hl
    | connect h _ | reconnect h _ | wait h | start h | accepted h | lost h | stopped h =>
      obtain ⟨rfl, -⟩ := List.append_inj' hl rfl
      exact h
  subst hlog
  induction back using List.reverseRecOn with
  | nil => exact hlast h
  | append_singleton back f ih =>
    refine ih (hfront (f := f) ?_)
    rw [List.append_assoc, List.cons_append]
    exact h

/-- **The connection.** In every run, however the library answers and whenever `Stop` is called:
each wait is that of the back-off table for the number of waits since the session has begun or a
connection was last accepted; a session connects anew the first time and reconnects from then on,
which `reconnect_count` counts, and which it never does without `auto_reconnect`. Whenever no store
is pending the three flags say whether the last known of the connection is that it is accepted,
`ready_` only if the module is enabled; while there is no thread they are false. -/
theorem connection_run {config : Lifecycle.Config} {ls : List Label} {s : System}
    (h : run (step config) {} ls = some s) :
    (∀ front e back, s.log = front ++ e :: back → (e = .connect → ¬ Attempted front) ∧
      (e = .reconnect → Attempted front) ∧
      ∀ n, e = .wait n → n = kBackoffTable.getD (min (waitsSince front) 5) 0) ∧
    s.reconnectCount = s.log.count .reconnect ∧
    (config.autoReconnect = false → s.reconnectCount = 0) ∧
    (s.pending = [] → ∀ flag, s.flags flag = flagOf config s.log flag) ∧
    (s.thread = .none → ∀ flag, s.flags flag = false) := by
  have hi : Inv config s :=
    run_invariant (P := Inv config) (fun _ _ _ hi hl => hi.step hl) (inv_init config) h
  refine ⟨fun front e back hlog => hi.proper.of_append hlog, hi.reconnects, fun hauto => ?_,
    fun hpending flag => ?_, fun hs flag => ?_⟩
  · rw [hi.reconnects]
    exact List.count_eq_zero.2 (hi.once hauto)
  · exact hi.flags flag (by rw [hpending]; exact List.not_mem_nil)
  · rw [hi.flags flag (by rw [System.pending, hs]; exact List.not_mem_nil), flagOf]
    simp [hi.off hs]

/-- Two failed attempts, an accepted connection, and a loss. -/
def twoFailures : List Label :=
  List.flatten
    [[.start, .check, .connect false], List.replicate 11 .tick, [.check, .connect false],
      List.replicate 21 .tick,
      [.check, .connect true, .check, .handleConnect true, .store, .store, .store, .store,
        .loopReturns false, .store, .store, .store, .store, .check]]

/-- After two failed attempts the connection comes up, and is lost. -/
theorem connection_run_twoFailures : ∃ s, run (step {}) {} twoFailures = some s ∧
    s.log =
      [.start, .connect, .wait 1, .reconnect, .wait 2, .reconnect, .accepted, .lost, .wait 1] ∧
    s.reconnectCount = s.log.count .reconnect ∧ ∀ flag, s.flags flag = flagOf {} s.log flag := by
  have hrun : (run (step {}) {} twoFailures).map (fun s => (s.log, s.pending)) =
      some ([.start, .connect, .wait 1, .reconnect, .wait 2, .reconnect, .accepted, .lost, .wait 1],
        []) := by decide +kernel
  obtain ⟨s, hs, hlog⟩ := Option.map_eq_some_iff.1 hrun
  obtain ⟨hlog, hpending⟩ := Prod.ext_iff.1 hlog
  obtain ⟨-, hcount, -, hflags, -⟩ := connection_run hs
  exact ⟨s, hs, hlog, hcount, hflags hpending⟩

end Connection

end FastMqtt
