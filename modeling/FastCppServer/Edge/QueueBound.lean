import FastCppServer.Edge.BaseEdge
import FastCppServer.Lib.Parties

/-!
# How long the queues of a `UUVEdge` become

Clients call `AppendTask` and `AppendJsonTask`, all of them with `rw_mutex_` shared, so their calls
interleave. A call asks the queue for its size and pushes the task afterwards, and it returns `true`
whatever has become of the task. So what counts is what the others do to the queue in between
(`Undisturbed`): a queue becomes as long as there are clients that have found room at the same time
(`length_lt`), and a task that is pushed to a queue that has been shut down is lost.

The tables of the edge do not change while a client has the lock. The `Size` for the log changes
nothing and is no step.
-/

namespace MyEdge

namespace QueueBound

open Function Transition MyData MyControl

universe u

/-- `AppendTask` or `AppendJsonTask`. -/
inductive Call where
  | appendTask (task : Task)
  | appendJsonTask (j : Json)

namespace Call

/-- The `device_id` that the call reads. -/
def deviceId : Call → String
  | appendTask task => task.deviceId
  | appendJsonTask j => j.getStringOr "device_id" ""

/-- The task that is appended. -/
def task : Call → Task
  | appendTask task => task
  | appendJsonTask j => Task.fromJson j

end Call

/-- Where a client stands: before `Size`, and before `Push`. -/
inductive Client where
  | idle
  | sizing (deviceId : String) (task : Task)
  | pushing (deviceId : String) (task : Task)

/-- The client has found room in that queue and has not pushed yet. -/
def Client.Pushes (deviceId : String) : Client → Prop
  | .pushing deviceId' _ => deviceId' = deviceId
  | _ => False

instance (deviceId : String) : DecidablePred (Client.Pushes deviceId) := fun x => by
  cases x <;> unfold Client.Pushes <;> infer_instance

/-- What has been done to a queue since a client asked for its size, which was `found`. -/
structure Since where
  found : Nat := 0
  pushed : Nat := 0
  popped : Nat := 0

/-- A call that has returned: its task, its result and what it has added to which queue. -/
structure Report where
  task : Task
  result : Bool
  added : List (String × Task)

/-- The queues of an edge, and its clients. -/
structure Edge (ι : Type u) where
  queues : Queues
  clients : ι → Client := fun _ => .idle
  reports : List Report := []
  /-- A history, for the clients that push; nothing reads it. -/
  since : ι → Since := fun _ => {}

/-- A call, the next step of a client, or what the consumers and `Shutdown` do to a queue. -/
inductive Label (ι : Type u) where
  | call (c : ι) (call : Call)
  | client (c : ι)
  /-- A consumer pops, or finds nothing in time. -/
  | pop (deviceId : String)
  | shutdown (deviceId : String)

section
variable {ι : Type u} [DecidableEq ι]

namespace Edge

/-- The call of the client returns. -/
def report (s : Edge ι) (c : ι) (task : Task) (result : Bool) (added : List (String × Task)) :
    Edge ι :=
  { s with
    clients := update s.clients c .idle, reports := s.reports ++ [{ task, result, added }] }

/-- A call up to the `find` of `AppendTaskToTargetTaskQueue`. -/
def call (s : Edge ι) (c : ι) (call : Call) : Edge ι :=
  if call.deviceId = "" then s.report c call.task false []
  else match s.queues call.deviceId with
  | none => s.report c call.task false []
  | some _ => { s with clients := update s.clients c (.sizing call.deviceId call.task) }

/-- What a push adds to a queue. -/
def addition (q : TaskQueue) (deviceId : String) (task : Task) : List (String × Task) :=
  if q.q.length < (q.push task).q.length then [(deviceId, task)] else []

/-- The history of the clients that push to a queue, to which something is done. -/
def noted (s : Edge ι) (deviceId : String) (note : Since → Since) (c : ι) : Since :=
  if (s.clients c).Pushes deviceId then note (s.since c) else s.since c

/-- The next operation on the queue, by a client in a call. -/
def client (s : Edge ι) (c : ι) : Client → Option (Edge ι)
  | .idle => none
  | .sizing deviceId task =>
    (s.queues deviceId).map fun q =>
      if UUVEdge.maxTaskQueueSize ≤ q.q.length then s.report c task false []
      else { s with
        clients := update s.clients c (.pushing deviceId task)
        since := update s.since c { found := q.q.length } }
  | .pushing deviceId task =>
    (s.queues deviceId).map fun q =>
      { s with
        queues := update s.queues deviceId (some (q.push task))
        since := s.noted deviceId fun n => { n with pushed := n.pushed + 1 } }.report c task true
        (addition q deviceId task)

end Edge

/-- One step. A client that is in a call makes no other. -/
def step (s : Edge ι) : Label ι → Option (Edge ι)
  | .call c call =>
    match s.clients c with
    | .idle => some (s.call c call)
    | _ => none
  | .client c => s.client c (s.clients c)
  | .pop deviceId =>
    (s.queues deviceId).map fun q =>
      match q.popBlocking with
      | none => s
      | some (_, q') => { s with
        queues := update s.queues deviceId (some q')
        since := s.noted deviceId fun n => { n with popped := n.popped + 1 } }
  | .shutdown deviceId =>
    (s.queues deviceId).map fun q =>
      { s with queues := update s.queues deviceId (some { q with shutdown := true }) }

/-- The edge with empty queues for the ids. -/
def init (ids : String → Bool) : Edge ι where
  queues deviceId := if ids deviceId then some {} else none

/-! ## What is promised -/

/-- The result is `true` where the task is in the queue of its device, once, and `false` where no
queue has changed. -/
def Report.Right (r : Report) : Prop :=
  (r.result = true ↔ r.added = [(r.task.deviceId, r.task)]) ∧ (r.result = false ↔ r.added = [])

/-- No queue holds more than the bound, and all results are right. -/
structure Safe (s : Edge ι) : Prop where
  bounded : ∀ deviceId q, s.queues deviceId = some q → q.q.length ≤ UUVEdge.maxTaskQueueSize
  right : ∀ r ∈ s.reports, r.Right

/-- Between a client's `Size` and its `Push`, the others push to that queue no more tasks than there
was room for besides the client's own, and than are popped; and nobody has shut it down. -/
def Undisturbed (s : Edge ι) : Label ι → Prop
  | .client c => ∀ deviceId task q, s.clients c = .pushing deviceId task →
      s.queues deviceId = some q →
      (s.since c).pushed ≤
          (s.since c).popped + (UUVEdge.maxTaskQueueSize - 1 - (s.since c).found) ∧
        q.shutdown = false
  | _ => True

/-! ## One step -/

variable {s t : Edge ι} {c : ι}

/-- Both calls read the `device_id` of their task. -/
theorem Call.deviceId_eq (call : Call) : call.deviceId = call.task.deviceId := by
  cases call <;> rfl

/-- A client has the id of its task. -/
def Named (s : Edge ι) : Prop :=
  ∀ c deviceId task, s.clients c = .sizing deviceId task ∨ s.clients c = .pushing deviceId task →
    deviceId = task.deviceId

/-- A client has taken a step that keeps its id and its task, or none of them is there any more. -/
theorem Named.update_client {x : Client} (h : Named s)
    (hx : ∀ deviceId task, x = .sizing deviceId task ∨ x = .pushing deviceId task →
      deviceId = task.deviceId)
    (ht : t.clients = update s.clients c x) : Named t := by
  intro c' deviceId task hc'
  rw [ht] at hc'
  rcases eq_or_ne c' c with rfl | hne
  · rw [update_self] at hc'
    exact hx deviceId task hc'
  · rw [update_of_ne hne] at hc'
    exact h c' deviceId task hc'

/-- A call that returns pushes no more. -/
theorem Named.report (h : Named s) (task : Task) (result : Bool) (added : List (String × Task)) :
    Named (s.report c task result added) :=
  h.update_client (fun _ _ hx => by rcases hx with hx | hx <;> cases hx) rfl

/-- **Every step keeps the names.** -/
theorem Named.step {l : Label ι} (h : Named s) (hs : step s l = some t) : Named t := by
  cases l with
  | call c call =>
    simp only [QueueBound.step] at hs
    split at hs
    next =>
      cases hs
      unfold Edge.call
      split
      next => exact h.report _ _ _
      next =>
        split
        next => exact h.report _ _ _
        next =>
          refine h.update_client (c := c) (fun deviceId task hx => ?_) rfl
          rcases hx with hx | hx
          · cases hx
            exact call.deviceId_eq
          · cases hx
    next => cases hs
  | client c =>
    simp only [QueueBound.step] at hs
    cases hc : s.clients c with
    | idle =>
      rw [hc] at hs
      cases hs
    | sizing deviceId task =>
      rw [hc, Edge.client] at hs
      obtain ⟨q, -, rfl⟩ := Option.map_eq_some_iff.1 hs
      split
      next => exact h.report _ _ _
      next =>
        refine h.update_client (c := c) (fun deviceId' task' hx => ?_) rfl
        rcases hx with hx | hx
        · cases hx
        · cases hx
          exact h c deviceId task (.inl hc)
    | pushing deviceId task =>
      rw [hc, Edge.client] at hs
      obtain ⟨q, -, rfl⟩ := Option.map_eq_some_iff.1 hs
      refine h.update_client (c := c) (x := .idle) (fun _ _ hx => ?_) rfl
      rcases hx with hx | hx <;> cases hx
  | pop deviceId =>
    obtain ⟨q, -, rfl⟩ := Option.map_eq_some_iff.1 hs
    split <;> exact h
  | shutdown deviceId =>
    obtain ⟨q, -, rfl⟩ := Option.map_eq_some_iff.1 hs
    exact h

/-- While a client pushes, it has found room; and as long as the queue is open, its length is what
the history says. -/
def Watched (s : Edge ι) : Prop :=
  ∀ c deviceId task q, s.clients c = .pushing deviceId task → s.queues deviceId = some q →
    (s.since c).found < UUVEdge.maxTaskQueueSize ∧
      (q.shutdown = false →
        q.q.length + (s.since c).popped = (s.since c).found + (s.since c).pushed)

/-- A client has taken a step to where it does not push. -/
theorem Watched.update_client {x : Client} (h : Watched s) (hx : ∀ deviceId, ¬ x.Pushes deviceId)
    (hclients : t.clients = update s.clients c x) (hqueues : t.queues = s.queues)
    (hsince : t.since = s.since) : Watched t := by
  intro c' deviceId task q hc' hq
  rw [hclients] at hc'
  rcases eq_or_ne c' c with rfl | hne
  · rw [update_self] at hc'
    rw [hc'] at hx
    exact absurd rfl (hx deviceId)
  · rw [update_of_ne hne] at hc'
    rw [hsince]
    exact h c' deviceId task q hc' (hqueues ▸ hq)

/-- A call that returns need not be watched. -/
theorem Watched.report (h : Watched s) (task : Task) (result : Bool)
    (added : List (String × Task)) : Watched (s.report c task result added) :=
  h.update_client (x := .idle) (fun _ => id) rfl rfl rfl

/-- A client that has found room. -/
theorem Watched.found (h : Watched s) {deviceId : String} {task : Task} {q : TaskQueue}
    (hq : s.queues deviceId = some q) (hroom : q.q.length < UUVEdge.maxTaskQueueSize) :
    Watched { s with
      clients := update s.clients c (.pushing deviceId task)
      since := update s.since c { found := q.q.length } } := by
  intro c' deviceId' task' q' hc' hq'
  dsimp only at hc' hq' ⊢
  rcases eq_or_ne c' c with rfl | hne
  · rw [update_self] at hc' ⊢
    cases hc'
    rw [hq] at hq'
    cases hq'
    exact ⟨hroom, fun _ => rfl⟩
  · rw [update_of_ne hne] at hc' ⊢
    exact h c' deviceId' task' q' hc' hq'

omit [DecidableEq ι] in
/-- Something is done to a queue, and noted. -/
theorem Watched.setQueue (h : Watched s) {deviceId : String} {q q' : TaskQueue}
    (hq : s.queues deviceId = some q) (note : Since → Since)
    (hopen : q'.shutdown = false → q.shutdown = false) (hfound : ∀ n, (note n).found = n.found)
    (hnote : ∀ n, q'.shutdown = false → q.q.length + n.popped = n.found + n.pushed →
      q'.q.length + (note n).popped = (note n).found + (note n).pushed) :
    Watched { s with
      queues := update s.queues deviceId (some q'), since := s.noted deviceId note } := by
  intro c deviceId' task q'' hc hq''
  dsimp only [Edge.noted] at hc hq'' ⊢
  rcases eq_or_ne deviceId' deviceId with rfl | hne
  · rw [update_self] at hq''
    cases hq''
    obtain ⟨hlt, hlen⟩ := h c deviceId' task q hc hq
    have hpushes : (s.clients c).Pushes deviceId' := by rw [hc]; rfl
    rw [if_pos hpushes, hfound]
    exact ⟨hlt, fun hopen' => hfound _ ▸ hnote _ hopen' (hlen (hopen hopen'))⟩
  · rw [update_of_ne hne] at hq''
    have hpushes : ¬ (s.clients c).Pushes deviceId := by rw [hc]; exact hne
    rw [if_neg hpushes]
    exact h c deviceId' task q'' hc hq''

/-- **Every step keeps the watch.** -/
theorem Watched.step {l : Label ι} (h : Watched s) (hs : step s l = some t) : Watched t := by
  cases l with
  | call c call =>
    simp only [QueueBound.step] at hs
    split at hs
    next =>
      cases hs
      unfold Edge.call
      split
      next => exact h.report _ _ _
      next =>
        split
        next => exact h.report _ _ _
        next => exact h.update_client (x := .sizing _ _) (fun _ => id) rfl rfl rfl
    next => cases hs
  | client c =>
    simp only [QueueBound.step] at hs
    cases hc : s.clients c with
    | idle =>
      rw [hc] at hs
      cases hs
    | sizing deviceId task =>
      rw [hc, Edge.client] at hs
      obtain ⟨q, hq, rfl⟩ := Option.map_eq_some_iff.1 hs
      split
      next => exact h.report _ _ _
      next hroom => exact h.found hq (Nat.lt_of_not_le hroom)
    | pushing deviceId task =>
      rw [hc, Edge.client] at hs
      obtain ⟨q, hq, rfl⟩ := Option.map_eq_some_iff.1 hs
      refine (h.setQueue hq (fun n => { n with pushed := n.pushed + 1 }) ?_ (fun _ => rfl)
        fun n hopen hlen => ?_).report _ _ _
      · rw [TaskQueue.push_shutdown]
        exact id
      · rw [TaskQueue.push_shutdown] at hopen
        rw [TaskQueue.push_of_open hopen, List.length_append, List.length_singleton]
        dsimp only
        omega
  | pop deviceId =>
    obtain ⟨q, hq, rfl⟩ := Option.map_eq_some_iff.1 hs
    split
    next => exact h
    next task q' hpop =>
      obtain ⟨hlist, -, hshut⟩ := TaskQueue.popBlocking_some hpop
      refine h.setQueue hq (fun n => { n with popped := n.popped + 1 }) (fun hopen => ?_)
        (fun _ => rfl) fun n hopen hlen => ?_
      · exact hshut ▸ hopen
      · rw [hlist, List.length_cons] at hlen
        dsimp only
        omega
  | shutdown deviceId =>
    obtain ⟨q, hq, rfl⟩ := Option.map_eq_some_iff.1 hs
    intro c deviceId' task q' hc hq'
    dsimp only at hq'
    rcases eq_or_ne deviceId' deviceId with rfl | hne
    · rw [update_self] at hq'
      cases hq'
      exact ⟨(h c deviceId' task q hc hq).1, nofun⟩
    · rw [update_of_ne hne] at hq'
      exact h c deviceId' task q' hc hq'

/-- What every step keeps of the clients. -/
structure Inv (s : Edge ι) : Prop where
  named : Named s
  watched : Watched s

/-- **Every step keeps both.** -/
theorem Inv.step {l : Label ι} (h : Inv s) (hs : step s l = some t) : Inv t :=
  ⟨h.named.step hs, h.watched.step hs⟩

omit [DecidableEq ι] in
/-- **A client finds room when it pushes**, because it has found room before, unless the others have
taken it meanwhile. -/
theorem Watched.room_iff (h : Watched s) {deviceId : String} {task : Task} {q : TaskQueue}
    (hc : s.clients c = .pushing deviceId task) (hq : s.queues deviceId = some q)
    (hopen : q.shutdown = false) :
    q.q.length < UUVEdge.maxTaskQueueSize ↔
      (s.since c).pushed ≤
        (s.since c).popped + (UUVEdge.maxTaskQueueSize - 1 - (s.since c).found) := by
  obtain ⟨hfound, hlen⟩ := h c deviceId task q hc hq
  have hbalance := hlen hopen
  omega

omit [DecidableEq ι] in
/-- A queue of a safe edge may be replaced by one that is not too long. -/
theorem safe_setQueue_iff (h : Safe s) {deviceId : String} {q : TaskQueue} {since : ι → Since} :
    Safe { s with queues := update s.queues deviceId (some q), since } ↔
      q.q.length ≤ UUVEdge.maxTaskQueueSize := by
  constructor
  · intro hsafe
    exact hsafe.bounded deviceId q (update_self ..)
  · intro hq
    refine ⟨fun deviceId' q' hq' => ?_, h.right⟩
    dsimp only at hq'
    rcases eq_or_ne deviceId' deviceId with rfl | hne
    · rw [update_self] at hq'
      cases hq'
      exact hq
    · rw [update_of_ne hne] at hq'
      exact h.bounded deviceId' q' hq'

/-- A call returns to a safe edge with a right report. -/
theorem safe_report_iff {task : Task} {result : Bool} {added : List (String × Task)} :
    Safe (s.report c task result added) ↔ Safe s ∧ Report.Right { task, result, added } := by
  constructor
  · intro h
    refine ⟨⟨h.bounded, fun r hr => h.right r (List.mem_append_left _ hr)⟩, ?_⟩
    exact h.right _ (List.mem_append_right _ (List.mem_singleton_self _))
  · rintro ⟨h, hr⟩
    refine ⟨h.bounded, fun r hmem => ?_⟩
    rcases List.mem_append.1 hmem with hmem | hmem
    · exact h.right r hmem
    · rw [List.mem_singleton.1 hmem]
      exact hr

/-- A call that reports `false` has added nothing. -/
theorem Safe.report_false (h : Safe s) (task : Task) : Safe (s.report c task false []) :=
  safe_report_iff.2 ⟨h, by simp [Report.Right]⟩

/-- **A push keeps the promises** where it finds room. -/
theorem push_safe_iff (h : Safe s) {deviceId : String} {task : Task}
    (hid : deviceId = task.deviceId) {q : TaskQueue} {since : ι → Since} :
    Safe ({ s with queues := update s.queues deviceId (some (q.push task)), since }.report c task
        true (Edge.addition q deviceId task)) ↔
      q.q.length < UUVEdge.maxTaskQueueSize ∧ q.shutdown = false := by
  rw [safe_report_iff, safe_setQueue_iff h]
  cases hopen : q.shutdown with
  | false =>
    have hpush : (q.push task).q.length = q.q.length + 1 := by
      rw [TaskQueue.push_of_open hopen, List.length_append, List.length_singleton]
    have hright :
        Report.Right { task, result := true, added := Edge.addition q deviceId task } := by
      rw [Edge.addition, if_pos (by omega), hid]
      simp [Report.Right]
    rw [hpush]
    exact ⟨fun h => ⟨h.1, rfl⟩, fun h => ⟨h.1, hright⟩⟩
  | true =>
    rw [Edge.addition, TaskQueue.push_of_shutdown hopen, if_neg (Nat.lt_irrefl _)]
    simp [Report.Right]

/-- **A step keeps the promises** if and only if it meets the condition. -/
theorem step_safe_iff {l : Label ι} (hinv : Inv s) (h : Safe s) (hs : step s l = some t) :
    Safe t ↔ Undisturbed s l := by
  cases l with
  | call c call =>
    refine iff_of_true ?_ trivial
    simp only [step] at hs
    split at hs
    next =>
      cases hs
      unfold Edge.call
      split
      next => exact h.report_false _
      next =>
        split
        next => exact h.report_false _
        next => exact ⟨h.bounded, h.right⟩
    next => cases hs
  | client c =>
    simp only [step] at hs
    cases hc : s.clients c with
    | idle =>
      rw [hc] at hs
      cases hs
    | sizing deviceId task =>
      rw [hc] at hs
      obtain ⟨q, -, rfl⟩ := Option.map_eq_some_iff.1 hs
      refine iff_of_true ?_ fun _ _ _ hp => by rw [hc] at hp; cases hp
      split
      next => exact h.report_false _
      next => exact ⟨h.bounded, h.right⟩
    | pushing deviceId task =>
      rw [hc] at hs
      obtain ⟨q, hq, rfl⟩ := Option.map_eq_some_iff.1 hs
      rw [push_safe_iff h (hinv.named c deviceId task (.inr hc))]
      constructor
      · rintro ⟨hroom, hopen⟩ deviceId' task' q' hc' hq'
        rw [hc] at hc'
        cases hc'
        rw [hq] at hq'
        cases hq'
        exact ⟨(hinv.watched.room_iff hc hq hopen).1 hroom, hopen⟩
      · intro hundisturbed
        obtain ⟨hmeanwhile, hopen⟩ := hundisturbed deviceId task q hc hq
        exact ⟨(hinv.watched.room_iff hc hq hopen).2 hmeanwhile, hopen⟩
  | pop deviceId =>
    obtain ⟨q, hq, rfl⟩ := Option.map_eq_some_iff.1 hs
    refine iff_of_true ?_ trivial
    split
    next => exact h
    next task q' hpop =>
      obtain ⟨hlist, -, -⟩ := TaskQueue.popBlocking_some hpop
      have hlen := h.bounded deviceId q hq
      rw [hlist, List.length_cons] at hlen
      exact (safe_setQueue_iff h).2 (Nat.le_of_succ_le hlen)
  | shutdown deviceId =>
    obtain ⟨q, hq, rfl⟩ := Option.map_eq_some_iff.1 hs
    exact iff_of_true ((safe_setQueue_iff h).2 (h.bounded deviceId q hq)) trivial

/-! ## Runs -/

omit [DecidableEq ι] in
/-- At first nobody is in a call. -/
theorem init_inv (ids : String → Bool) : Inv (init ids : Edge ι) :=
  ⟨fun _ _ _ h => h.elim nofun nofun, fun _ _ _ _ h => nomatch h⟩

omit [DecidableEq ι] in
/-- At first nothing has been reported. -/
theorem init_safe (ids : String → Bool) : Safe (init ids : Edge ι) := by
  refine ⟨fun deviceId q hq => ?_, fun r hr => by cases hr⟩
  simp only [init] at hq
  split at hq
  next =>
    cases hq
    exact Nat.zero_le _
  next => cases hq

/-- **When the queues stay within the bound and the results are right**, for any clients and any
order of their steps: in every state that a run comes to, if and only if the others leave each
client that has found room as much of it, and the queue open, until it pushes. -/
theorem safe_iff_undisturbed (ids : String → Bool) (ls : List (Label ι)) :
    (∀ pre post t, ls = pre ++ post → run step (init ids) pre = some t → Safe t) ↔
      Along step Undisturbed (init ids) ls := by
  have hstuck : ∀ (s : Edge ι) l, step s l = none → Undisturbed s l := by
    intro s l hnone
    cases l with
    | client c =>
      intro deviceId task q hc hq
      simp only [step, hc, Edge.client, hq] at hnone
      cases hnone
    | call | pop | shutdown => trivial
  exact forall_prefix_iff_along (D := fun _ => True) (I := Inv) hstuck
    (fun _ _ _ _ hi hs => hi.step hs)
    (fun _ _ _ _ hi hsafe hs => step_safe_iff hi hsafe hs) (init_inv ids) (init_safe ids)
    fun _ _ => trivial

section
variable [Fintype ι]

/-- A queue and those who will push to it. -/
def Fits (s : Edge ι) : Prop :=
  ∀ deviceId q, s.queues deviceId = some q →
    q.q.length + Parties.count (Client.Pushes deviceId) s.clients <
      UUVEdge.maxTaskQueueSize + Fintype.card ι

/-- A step of a client that leaves the queues as they are, to where it does not push. -/
theorem Fits.update_client {x : Client} (h : Fits s) (hx : ∀ deviceId, ¬ x.Pushes deviceId)
    (hc : ∀ deviceId, ¬ (s.clients c).Pushes deviceId) (hclients : t.clients = update s.clients c x)
    (hqueues : t.queues = s.queues) : Fits t := by
  intro deviceId q hq
  rw [hclients, Parties.count_stay (iff_of_false (hc deviceId) (hx deviceId))]
  exact h deviceId q (hqueues ▸ hq)

/-- A client that has found room. -/
theorem Fits.found (h : Fits s) {deviceId : String} {task task' : Task} {q : TaskQueue}
    (hc : s.clients c = .sizing deviceId task) (hq : s.queues deviceId = some q)
    (hroom : q.q.length < UUVEdge.maxTaskQueueSize) {since : ι → Since} :
    Fits { s with clients := update s.clients c (.pushing deviceId task'), since } := by
  intro deviceId' q' hq'
  dsimp only at hq' ⊢
  rcases eq_or_ne deviceId' deviceId with rfl | hne
  · rw [hq] at hq'
    cases hq'
    have hcount : Parties.count (Client.Pushes deviceId')
        (update s.clients c (.pushing deviceId' task')) ≤ Fintype.card ι :=
      Finset.card_le_univ _
    omega
  · rw [Parties.count_stay (iff_of_false (by rw [hc]; exact id) fun heq => hne heq.symm)]
    exact h deviceId' q' hq'

/-- A client that pushes. -/
theorem Fits.pushed (h : Fits s) {deviceId : String} {task : Task} {q : TaskQueue}
    (hc : s.clients c = .pushing deviceId task) (hq : s.queues deviceId = some q) (result : Bool)
    (added : List (String × Task)) {since : ι → Since} :
    Fits ({ s with queues := update s.queues deviceId (some (q.push task)), since }.report c task
      result added) := by
  have hlen : (q.push task).q.length ≤ q.q.length + 1 := by
    unfold TaskQueue.push
    split <;> simp
  intro deviceId' q' hq'
  simp only [Edge.report] at hq' ⊢
  rcases eq_or_ne deviceId' deviceId with rfl | hne
  · rw [update_self] at hq'
    cases hq'
    have hcount := Parties.count_leave (P := Client.Pushes deviceId') (c := s.clients) (a := c)
      (p := .idle) (by rw [hc]; rfl) id
    have hfits := h deviceId' q hq
    omega
  · rw [update_of_ne hne] at hq'
    rw [Parties.count_stay (iff_of_false (by rw [hc]; exact fun heq => hne heq.symm) id)]
    exact h deviceId' q' hq'

omit [DecidableEq ι] in
/-- A queue that has not become longer. -/
theorem Fits.setQueue (h : Fits s) {deviceId : String} {q q' : TaskQueue}
    (hq : s.queues deviceId = some q) (hle : q'.q.length ≤ q.q.length) {since : ι → Since} :
    Fits { s with queues := update s.queues deviceId (some q'), since } := by
  intro deviceId' q'' hq''
  dsimp only at hq'' ⊢
  rcases eq_or_ne deviceId' deviceId with rfl | hne
  · rw [update_self] at hq''
    cases hq''
    exact lt_of_le_of_lt (Nat.add_le_add_right hle _) (h deviceId' q hq)
  · rw [update_of_ne hne] at hq''
    exact h deviceId' q'' hq''

/-- **Every step keeps the room** of those who will push. -/
theorem Fits.step {l : Label ι} (h : Fits s) (hs : step s l = some t) : Fits t := by
  cases l with
  | call c call =>
    simp only [QueueBound.step] at hs
    split at hs
    next hc =>
      cases hs
      have hidle : ∀ deviceId, ¬ (s.clients c).Pushes deviceId := fun _ => by rw [hc]; exact id
      unfold Edge.call
      split
      next => exact h.update_client (x := .idle) (fun _ => id) hidle rfl rfl
      next =>
        split
        next => exact h.update_client (x := .idle) (fun _ => id) hidle rfl rfl
        next => exact h.update_client (x := .sizing _ _) (fun _ => id) hidle rfl rfl
    next => cases hs
  | client c =>
    simp only [QueueBound.step] at hs
    cases hc : s.clients c with
    | idle =>
      rw [hc] at hs
      cases hs
    | sizing deviceId task =>
      rw [hc] at hs
      obtain ⟨q, hq, rfl⟩ := Option.map_eq_some_iff.1 hs
      split
      next =>
        exact h.update_client (x := .idle) (fun _ => id) (fun _ => by rw [hc]; exact id) rfl rfl
      next hroom => exact h.found hc hq (Nat.lt_of_not_le hroom)
    | pushing deviceId task =>
      rw [hc] at hs
      obtain ⟨q, hq, rfl⟩ := Option.map_eq_some_iff.1 hs
      exact h.pushed hc hq _ _
  | pop deviceId =>
    obtain ⟨q, hq, rfl⟩ := Option.map_eq_some_iff.1 hs
    split
    next => exact h
    next task q' hpop =>
      obtain ⟨hlist, -, -⟩ := TaskQueue.popBlocking_some hpop
      exact h.setQueue hq (by rw [hlist, List.length_cons]; exact Nat.le_succ _)
  | shutdown deviceId =>
    obtain ⟨q, hq, rfl⟩ := Option.map_eq_some_iff.1 hs
    refine h.setQueue hq ?_
    exact le_rfl

/-- **How long a queue becomes** at most: for each client but one, it holds one task more than it
is to. -/
theorem length_lt {ids : String → Bool} {ls : List (Label ι)}
    (h : run step (init ids) ls = some s) {deviceId : String} {q : TaskQueue}
    (hq : s.queues deviceId = some q) :
    q.q.length < UUVEdge.maxTaskQueueSize + Fintype.card ι := by
  have hinit : Fits (init ids : Edge ι) := by
    intro deviceId q hq
    have hnone : Parties.count (Client.Pushes deviceId) (init ids : Edge ι).clients = 0 :=
      Parties.count_eq_zero.2 fun _ => id
    simp only [init] at hq
    split at hq
    next =>
      cases hq
      rw [hnone]
      exact Nat.lt_of_lt_of_le (by decide) (Nat.le_add_right _ _)
    next => cases hq
  have hfits := run_invariant (P := Fits) (fun _ _ _ hf hs => hf.step hs) hinit h deviceId q hq
  exact lt_of_le_of_lt (Nat.le_add_right _ _) hfits

end

/-! ## One call after the other -/

/-- The steps of a call that pushes. -/
def appendOnce (c : ι) (task : Task) : List (Label ι) :=
  [.call c (.appendTask task), .client c, .client c]

/-- A call alone adds its task to a queue with room. -/
theorem run_appendOnce {task : Task} {q : TaskQueue} (hidle : ∀ c, s.clients c = .idle)
    (hid : task.deviceId ≠ "") (hq : s.queues task.deviceId = some q)
    (hroom : q.q.length < UUVEdge.maxTaskQueueSize) :
    ∃ t, run step s (appendOnce c task) = some t ∧ t.clients = s.clients ∧
      t.queues task.deviceId = some (q.push task) := by
  have hself : update s.clients c .idle = s.clients := by
    rw [← hidle c, update_eq_self]
  simp only [appendOnce, run_cons, run_nil, step, hidle, Edge.call, Call.deviceId, Call.task,
    if_neg hid, hq, Option.bind_some, update_self, Edge.client, Option.map_some,
    if_neg (Nat.not_le_of_lt hroom), Edge.report, update_idem, hself]
  exact ⟨_, rfl, rfl, update_self ..⟩

/-- One client fills a queue. -/
theorem exists_fill (c : ι) {task : Task} (hid : task.deviceId ≠ "") {n : Nat}
    (hn : n ≤ UUVEdge.maxTaskQueueSize) :
    ∃ ls s q, run step (init fun _ => true : Edge ι) ls = some s ∧ (∀ c, s.clients c = .idle) ∧
      s.queues task.deviceId = some q ∧ q.q.length = n ∧ q.shutdown = false := by
  induction n with
  | zero => exact ⟨[], _, {}, rfl, fun _ => rfl, rfl, rfl, rfl⟩
  | succ n ih =>
    obtain ⟨ls, s, q, hrun, hidle, hq, hlen, hopen⟩ := ih (Nat.le_of_succ_le hn)
    obtain ⟨t, ht, hclients, hqueue⟩ := run_appendOnce (c := c) hidle hid hq (hlen ▸ hn)
    refine ⟨ls ++ appendOnce c task, t, q.push task, ?_, hclients ▸ hidle, hqueue, ?_, ?_⟩
    · rw [run_append, hrun]
      exact ht
    · rw [TaskQueue.push_of_open hopen, List.length_append, hlen, List.length_singleton]
    · rw [TaskQueue.push_shutdown, hopen]

end

/-- Two calls ask for the size before one of them pushes. -/
theorem run_race {s : Edge Bool} {task : Task} {q : TaskQueue} (hidle : ∀ c, s.clients c = .idle)
    (hid : task.deviceId ≠ "") (hq : s.queues task.deviceId = some q)
    (hroom : q.q.length < UUVEdge.maxTaskQueueSize) :
    ∃ t, run step s [.call false (.appendTask task), .call true (.appendTask task), .client false,
        .client true, .client false, .client true] = some t ∧
      t.queues task.deviceId = some ((q.push task).push task) := by
  have hfull : ¬ UUVEdge.maxTaskQueueSize ≤ q.q.length := Nat.not_le_of_lt hroom
  simp only [run_cons, run_nil, step, hidle, Edge.call, Call.deviceId, Call.task, if_neg hid, hq,
    Option.bind_some, update_self, Edge.client, Option.map_some, if_neg hfull, Edge.report, ne_eq,
    Bool.false_eq_true, not_false_eq_true, update_of_ne, Bool.true_eq_false]
  exact ⟨_, rfl, update_self ..⟩

/-- Two clients find room for one task each, at the same time. -/
theorem not_safe : ¬ ∀ (ids : String → Bool) (ls : List (Label Bool)) s,
    run step (init ids) ls = some s → Safe s := by
  intro h
  have hid : ({ deviceId := "uuv-1" } : Task).deviceId ≠ "" := by decide
  obtain ⟨ls, s, q, hrun, hidle, hq, hlen, hopen⟩ :=
    exists_fill false hid (n := UUVEdge.maxTaskQueueSize - 1) (Nat.sub_le _ _)
  obtain ⟨t, ht, hqueue⟩ := run_race hidle hid hq (by rw [hlen]; decide)
  have hsafe := h _ _ t (by rw [run_append, hrun]; exact ht)
  have hbound := hsafe.bounded _ _ hqueue
  rw [TaskQueue.push_of_open (by rw [TaskQueue.push_shutdown, hopen]),
    TaskQueue.push_of_open hopen, List.length_append, List.length_append, hlen] at hbound
  exact absurd hbound (by decide)

end QueueBound

end MyEdge
