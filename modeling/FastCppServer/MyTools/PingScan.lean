import FastCppServer.Lib.Transition
import FastCppServer.MyTools.PingHost
import Mathlib.Logic.Function.Basic

/-!
# Scanning a subnet

A scan pings each of its candidates from a thread of its own, at most so many at a time, and puts
those that answer on its list. The threads share the number of the next request with every other
ping of the process, and each socket receives whatever comes: `Label.receive` brings any packet to
any thread that waits.

A thread that waits keeps what it has received, and is where `PingHost` is after that much
(`Inv`). So a host on the list has a thread with a call that returned true, and where no step brings
a foreign reply to a thread (`Careful`) the host has answered the request of that thread
(`scan_answered`).
-/

namespace MyTools.MyIPTools.PingScan

open Function Transition

/-- Where a thread is, with its call and what it has received. -/
inductive Phase where
  | ready
  | receiving (call : Call) (receptions : List Reception)
  | returned (call : Call) (receptions : List Reception) (alive : Bool)
  | done (call : Call) (receptions : List Reception) (alive : Bool)

variable {ι : Type} [DecidableEq ι]

/-- The candidates, one for each thread. -/
structure Config (ι : Type) where
  candidates : ι → Text
  timeout : Int
  pid : Nat
  max_threads : Nat

/-- The scan: the counter of the process, the free places of the semaphore, where each thread is,
and the list of the active addresses. -/
structure State (ι : Type) where
  s_ping_sequence : UInt16
  sem_count : Nat
  thread : ι → Phase
  active_ips : List Text

/-- Before the first thread runs, with any value of the counter. -/
def init (cfg : Config ι) (s_ping_sequence : UInt16) : State ι where
  s_ping_sequence := s_ping_sequence
  sem_count := cfg.max_threads
  thread := fun _ => .ready
  active_ips := []

/-- What can happen next: a thread pings, is handed a packet, or finishes; or another ping takes a
number. -/
inductive Label (ι : Type) where
  /-- A thread is started and pings, with the answers of the system to its call. -/
  | ping (t : ι) (socket sent : Bool) (now : Int)
  | receive (t : ι) (reception : Reception)
  /-- The result is put on the list, and the semaphore released. -/
  | finish (t : ι)
  /-- Another ping of the process takes a number. -/
  | other

/-- The phase that the answer of `PingHost` leaves a thread in. A field behind the bytes received is
never read, so there is no phase for it. -/
def phaseOf (call : Call) (receptions : List Reception) : Option Phase :=
  match pingHost call receptions with
  | .waiting => some (.receiving call receptions)
  | .returned alive => some (.returned call receptions alive)
  | .beyond => none

/-- The call of a thread. -/
def callOf (cfg : Config ι) (s : State ι) (t : ι) (socket sent : Bool) (now : Int) : Call where
  ip := cfg.candidates t
  timeout_ms := cfg.timeout
  socket := socket
  pid := cfg.pid
  my_seq := s.s_ping_sequence
  sent := sent
  now := now

/-- The number is taken once there are a socket and an address. -/
def nextSequence (call : Call) : UInt16 :=
  if call.socket = true ∧ call.dest.isSome then call.my_seq + 1 else call.my_seq

/-- One step. A thread without a place of the semaphore waits, and a thread that is not where the
label says cannot move. -/
def step (cfg : Config ι) (s : State ι) : Label ι → Option (State ι)
  | .ping t socket sent now =>
    match s.thread t with
    | .ready =>
      if s.sem_count = 0 then none
      else
        let call := callOf cfg s t socket sent now
        (phaseOf call []).map fun phase =>
          { s with
            sem_count := s.sem_count - 1
            s_ping_sequence := nextSequence call
            thread := update s.thread t phase }
    | _ => none
  | .receive t reception =>
    match s.thread t with
    | .receiving call receptions =>
      (phaseOf call (receptions ++ [reception])).map fun phase =>
        { s with thread := update s.thread t phase }
    | _ => none
  | .finish t =>
    match s.thread t with
    | .returned call receptions alive =>
      some { s with
        sem_count := s.sem_count + 1
        thread := update s.thread t (.done call receptions alive)
        active_ips := if alive then s.active_ips ++ [cfg.candidates t] else s.active_ips }
    | _ => none
  | .other => some { s with s_ping_sequence := s.s_ping_sequence + 1 }

/-! ## What is claimed of a scan -/

/-- A candidate has answered a request of the scan: the thread with its request has received the
reply with the identifier and the number of this request from it. -/
def Answered (cfg : Config ι) (s : State ι) (ip : Text) : Prop :=
  ∃ t call receptions alive, s.thread t = .done call receptions alive ∧
    cfg.candidates t = ip ∧ call.ip = ip ∧ ∃ reception ∈ receptions, Own call reception

/-- No foreign reply is brought to a thread that waits. -/
def Careful (s : State ι) : Label ι → Prop
  | .receive t reception =>
    ∀ call receptions, s.thread t = .receiving call receptions → ¬ Foreign call reception
  | _ => True

instance (s : State ι) : (l : Label ι) → Decidable (Careful s l)
  | .receive t reception =>
    match h : s.thread t with
    | .receiving call receptions =>
      decidable_of_iff (¬ Foreign call reception) (by simp only [Careful, h]; simp)
    | .ready | .returned _ _ _ | .done _ _ _ => isTrue (by simp only [Careful, h]; simp)
  | .ping _ _ _ _ | .finish _ | .other => isTrue trivial

/-! ## The invariant -/

/-- Where a thread is, is what `PingHost` makes of what it has received, and nothing of that is
foreign. -/
def Follows (ip : Text) : Phase → Prop
  | .ready => True
  | .receiving call receptions =>
    call.ip = ip ∧ pingHost call receptions = .waiting ∧ ∀ r ∈ receptions, ¬ Foreign call r
  | .returned call receptions alive | .done call receptions alive =>
    call.ip = ip ∧ pingHost call receptions = .returned alive ∧
      ∀ r ∈ receptions, ¬ Foreign call r

/-- The invariant: each thread follows its own address, and a listed address is that of a thread
that has ended with an answer. -/
structure Inv (cfg : Config ι) (s : State ι) : Prop where
  follows : ∀ t, Follows (cfg.candidates t) (s.thread t)
  listed : ∀ ip ∈ s.active_ips, ∃ t call receptions,
    s.thread t = .done call receptions true ∧ cfg.candidates t = ip

/-- A thread whose receptions hold nothing foreign follows its address. -/
theorem follows_phaseOf {call : Call} {receptions : List Reception} {phase : Phase} {ip : Text}
    (h : phaseOf call receptions = some phase) (hip : call.ip = ip)
    (hno : ∀ r ∈ receptions, ¬ Foreign call r) : Follows ip phase := by
  rw [phaseOf] at h
  split at h
  · next hanswer =>
    cases h
    exact ⟨hip, hanswer, hno⟩
  · next alive hanswer =>
    cases h
    exact ⟨hip, hanswer, hno⟩
  · cases h

section
variable {cfg : Config ι} {s s' : State ι}

omit [DecidableEq ι] in
/-- It holds before the first step. -/
theorem inv_init (n : UInt16) : Inv cfg (init cfg n) where
  follows := fun _ => trivial
  listed := by
    intro ip h
    cases h

/-- Moving one thread keeps what the invariant says of the others. -/
theorem Inv.follows_update (h : Inv cfg s) {t : ι} {phase : Phase}
    (hfollows : Follows (cfg.candidates t) phase) (t' : ι) :
    Follows (cfg.candidates t') (update s.thread t phase t') := by
  by_cases ht : t' = t
  · subst ht
    rwa [update_self]
  · rw [update_of_ne ht]
    exact h.follows t'

/-- A host on the list has its thread still, after a step of a thread that is not done. -/
theorem Inv.listed_update (h : Inv cfg s) {t : ι} {phase : Phase}
    (hopen : ∀ call receptions, s.thread t ≠ .done call receptions true) {ip : Text}
    (hip : ip ∈ s.active_ips) :
    ∃ t' call receptions, update s.thread t phase t' = .done call receptions true ∧
      cfg.candidates t' = ip := by
  obtain ⟨t', call, receptions, hdone, hcandidate⟩ := h.listed ip hip
  have ht : t' ≠ t := by
    rintro rfl
    exact hopen call receptions hdone
  exact ⟨t', call, receptions, by rw [update_of_ne ht, hdone], hcandidate⟩

/-- It survives every careful step. -/
theorem inv_step {l : Label ι} (hl : Careful s l) (h : Inv cfg s) (hs : step cfg s l = some s') :
    Inv cfg s' := by
  cases l with
  | ping t socket sent now =>
    rw [step] at hs
    split at hs
    · next hready =>
      split at hs
      · cases hs
      · obtain ⟨phase, hphase, rfl⟩ := Option.map_eq_some_iff.1 hs
        constructor
        · refine h.follows_update (follows_phaseOf hphase rfl ?_)
          intro r hr
          cases hr
        · intro ip hip
          refine h.listed_update ?_ hip
          intro call receptions hdone
          cases hready.symm.trans hdone
    · cases hs
  | receive t reception =>
    rw [step] at hs
    split at hs
    · next call receptions hreceiving =>
      obtain ⟨phase, hphase, rfl⟩ := Option.map_eq_some_iff.1 hs
      have hfollows := h.follows t
      rw [hreceiving] at hfollows
      constructor
      · refine h.follows_update (follows_phaseOf hphase hfollows.1 ?_)
        intro r hr
        rcases List.mem_append.1 hr with hr | hr
        · exact hfollows.2.2 r hr
        · rw [List.mem_singleton.1 hr]
          exact hl call receptions hreceiving
      · intro ip hip
        refine h.listed_update ?_ hip
        intro call' receptions' hdone
        cases hreceiving.symm.trans hdone
    · cases hs
  | finish t =>
    rw [step] at hs
    split at hs
    · next call receptions alive hreturned =>
      cases hs
      have hfollows := h.follows t
      rw [hreturned] at hfollows
      constructor
      · exact h.follows_update hfollows
      · intro ip hip
        have hkeep : ip ∈ s.active_ips → ∃ t' call' receptions',
            update s.thread t (.done call receptions alive) t' = .done call' receptions' true ∧
              cfg.candidates t' = ip := by
          intro hip
          refine h.listed_update ?_ hip
          intro call' receptions' hdone
          cases hreturned.symm.trans hdone
        cases alive with
        | false => exact hkeep hip
        | true =>
          rcases List.mem_append.1 hip with hip | hip
          · exact hkeep hip
          · exact ⟨t, call, receptions, update_self .., (List.mem_singleton.1 hip).symm⟩
    · cases hs
  | other =>
    cases hs
    exact ⟨h.follows, h.listed⟩

omit [DecidableEq ι] in
/-- A host on the list has answered. -/
theorem Inv.answered (h : Inv cfg s) {ip : Text} (hip : ip ∈ s.active_ips) : Answered cfg s ip := by
  obtain ⟨t, call, receptions, hdone, rfl⟩ := h.listed ip hip
  have hfollows := h.follows t
  rw [hdone] at hfollows
  obtain ⟨hcall, hanswer, hno⟩ := hfollows
  have honly : OnlyOwn call receptions := by
    refine (onlyOwn_iff call receptions).2 ?_
    rintro ⟨-, -, pre, reception, post, rfl, -, hforeign⟩
    exact hno reception (List.mem_append_right pre (List.mem_cons_self ..)) hforeign
  exact ⟨t, call, receptions, true, hdone, rfl, hcall,
    (honly receptions [] (List.append_nil _).symm).2 hanswer⟩

end

/-- **A ping is answered by its own reply, and a host on the list has answered.** No field of a
packet is read behind the bytes received, and a call returns true for its own reply only, unless the
first packet that it does not pass over is another one's. In every run of a scan in which no such
packet is brought to a waiting thread, whatever else the sockets receive, every host on the list has
answered a request of the scan. -/
theorem scan_answered {cfg : Config ι} {n : UInt16} {ls : List (Label ι)} {s : State ι}
    (hcareful : Along (step cfg) Careful (init cfg n) ls)
    (hrun : run (step cfg) (init cfg n) ls = some s) :
    (∀ call receptions, OnlyOwn call receptions ↔ ¬ ForeignFirst call receptions) ∧
    ∀ ip ∈ s.active_ips, Answered cfg s ip := by
  refine ⟨onlyOwn_iff, fun ip hip => ?_⟩
  exact (run_along (fun _ _ _ hl hs ht => inv_step hl hs ht)
    (inv_init n) hcareful hrun).answered hip

/-! ## A scan of one host -/

/-- The address of the runs below. -/
def host : Text := "10.0.0.7".toUTF8.toList

/-- A scan of that address alone. -/
def oneHost : Config Unit where
  candidates := fun _ => host
  timeout := 800
  pid := 0x1234
  max_threads := 64

/-- The call of its thread, with a number. -/
def asked (my_seq : UInt16) : Call where
  ip := host
  timeout_ms := 800
  socket := true
  pid := 0x1234
  my_seq := my_seq
  sent := true
  now := 0

/-- The reply of the host to a request of this process. -/
def replyBytes (sequence : UInt16) : List UInt8 :=
  (0x45 :: List.replicate 19 0) ++ (ICMPHeader.bytes ⟨0, 0, 0, 0x1234, sequence⟩ ++ [])

/-- Its answer to the request with a number, within the timeout. -/
def reply (sequence : UInt16) : Reception := .packet (replyBytes sequence) ⟨10, 0, 0, 7⟩ 10

/-- The host is pinged, and this reply is received. -/
def scanWith (sequence : UInt16) : List (Label Unit) :=
  [.ping () true true 0, .receive () (reply sequence), .finish ()]

/-- The scan with its one thread in a phase. -/
def oneThread (n : UInt16) (sem_count : Nat) (phase : Phase) (active_ips : List Text) :
    State Unit where
  s_ping_sequence := n
  sem_count := sem_count
  thread := fun _ => phase
  active_ips := active_ips

/-- With one thread an update says all there is. -/
theorem update_oneThread (f : Unit → Phase) (phase : Phase) : update f () phase = fun _ => phase :=
  funext fun _ => update_self ..

section
variable {n m : UInt16} (hwaiting : pingHost (asked n) [] = .waiting)
  (hreturned : pingHost (asked n) [reply m] = .returned true)
include hwaiting

/-- The only thread sends its request. -/
theorem step_asked : step oneHost (init oneHost n) (.ping () true true 0) =
    some (oneThread (nextSequence (asked n)) 63 (.receiving (asked n) []) []) := by
  have hphase : phaseOf (asked n) [] = some (.receiving (asked n) []) := by
    rw [phaseOf, hwaiting]
  show (phaseOf (asked n) []).map (fun phase => State.mk _ 63 (update _ () phase) []) = _
  rw [hphase, Option.map_some, update_oneThread]
  rfl

include hreturned

/-- **The host is on the list** when the call returns true for the reply. -/
theorem run_scanWith : run (step oneHost) (init oneHost n) (scanWith m) =
    some (oneThread (nextSequence (asked n)) 64 (.done (asked n) [reply m] true) [host]) := by
  have hphase : phaseOf (asked n) [reply m] = some (.returned (asked n) [reply m] true) := by
    rw [phaseOf, hreturned]
  have hreceive : step oneHost (oneThread (nextSequence (asked n)) 63 (.receiving (asked n) []) [])
      (.receive () (reply m)) =
        some (oneThread (nextSequence (asked n)) 63 (.returned (asked n) [reply m] true) []) := by
    show (phaseOf (asked n) [reply m]).map (fun phase => State.mk _ 63 (update _ () phase) []) = _
    rw [hphase, Option.map_some, update_oneThread]
    rfl
  have hfinish : step oneHost (oneThread (nextSequence (asked n)) 63
      (.returned (asked n) [reply m] true) []) (.finish ()) =
        some (oneThread (nextSequence (asked n)) 64 (.done (asked n) [reply m] true) [host]) := by
    show some (State.mk _ 64 (update _ () (.done (asked n) [reply m] true)) [host]) = _
    rw [update_oneThread]
    rfl
  rw [scanWith, run_cons, step_asked hwaiting, Option.bind_some, run_cons, hreceive,
    Option.bind_some, run_cons, hfinish]
  rfl

end

/-- The reply is one to the request with its number. -/
theorem isEchoReply_iff (my_seq sequence : UInt16) :
    IsEchoReply (replyBytes sequence) (asked my_seq).icmp_req.id (asked my_seq).icmp_req.sequence ↔
      sequence = my_seq := by
  have hlength : ipHeaderLength (replyBytes sequence) = 20 := by
    show ((0x45 : UInt8) &&& 0x0F).toNat * 4 = 20
    decide
  have hread : ICMPHeader.read (replyBytes sequence) 20 = some ⟨0, 0, 0, 0x1234, sequence⟩ :=
    (read_front (0x45 :: List.replicate 19 0) _).trans (read_bytes _ [])
  have hid : (asked my_seq).icmp_req.id = 0x1234 := by
    show UInt16.ofNat (0x1234 &&& 0xFFFF) = 0x1234
    decide
  have hseq : (asked my_seq).icmp_req.sequence = my_seq := rfl
  rw [IsEchoReply, hlength, hid, hseq]
  constructor
  · rintro ⟨_, reply, hread', _, _, _, hsequence⟩
    rw [hread, Option.some.injEq] at hread'
    rw [← hread'] at hsequence
    exact hsequence
  · rintro rfl
    exact ⟨Nat.le_refl 20, _, hread, rfl, rfl, rfl, rfl⟩

/-- The first of two hosts is the one that answers. -/
def twoHosts : Config Bool where
  candidates := fun t => if t then "10.0.0.9".toUTF8.toList else host
  timeout := 800
  pid := 0x1234
  max_threads := 64

/-- Both are pinged, another ping of the process is between the two, and the reply of the one host
comes to both sockets. -/
def scanBoth : List (Label Bool) :=
  [.ping false true true 0, .other, .ping true true true 0, .receive true (reply 1),
    .receive false (reply 1), .finish false, .receive true .failed, .finish true]

/-- Two threads ping two addresses and one of them answers: that one alone is listed, by its own
reply. -/
theorem scan_answered_own : ∃ s, run (step twoHosts) (init twoHosts 1) scanBoth = some s ∧
    s.active_ips = [host] ∧ Answered twoHosts s host := by
  have hrun : (run (step twoHosts) (init twoHosts 1) scanBoth).map State.active_ips =
      some [host] := by decide +kernel
  have hcareful : Along (step twoHosts) Careful (init twoHosts 1) scanBoth := by decide +kernel
  obtain ⟨s, hs, hlist⟩ := Option.map_eq_some_iff.1 hrun
  refine ⟨s, hs, hlist, (scan_answered hcareful hs).2 host ?_⟩
  rw [hlist]
  exact List.mem_singleton_self host

/-- **The reply to an earlier ping** is taken for the reply to this one: the call returns true, and
a host that does not answer the scan is on its list. -/
theorem stale_reply :
    (¬ ∀ call receptions, OnlyOwn call receptions) ∧
    ¬ ∀ (cfg : Config Unit) (n : UInt16) (ls : List (Label Unit)) (s : State Unit),
      run (step cfg) (init cfg n) ls = some s → ∀ ip ∈ s.active_ips, Answered cfg s ip := by
  have hreturned : pingHost (asked 1) [reply 0] = .returned true := by decide +kernel
  have hnot : ¬ Own (asked 1) (reply 0) := by
    rintro ⟨data, dest, now, heq, _, hreply⟩
    cases heq
    have hseq := (isEchoReply_iff 1 0).1 hreply
    cases hseq
  constructor
  · intro h
    obtain ⟨r, hr, hown⟩ := (h (asked 1) [reply 0] [reply 0] [] rfl).2 hreturned
    rw [List.mem_singleton.1 hr] at hown
    exact hnot hown
  · intro h
    have hrun := run_scanWith (by decide +kernel) hreturned
    obtain ⟨t, call, receptions, alive, hdone, _, _, r, hr, hown⟩ :=
      h oneHost 1 (scanWith 0) _ hrun host (List.mem_singleton_self host)
    cases hdone
    rw [List.mem_singleton.1 hr] at hown
    exact hnot hown

end MyTools.MyIPTools.PingScan
