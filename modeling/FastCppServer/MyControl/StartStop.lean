import FastCppServer.Lib.Parties
import FastCppServer.MyControl.Workflow

/-!
# `Start`, `Stop` and `Join` of a workflow

`Start` takes `running_` for itself before it assigns the thread, and `Join` gives it back after the
thread has been joined. But the thread gives it back as well, when it leaves `RunLoop`, and then a
`Start` finds `running_` false and assigns a thread that nobody has joined: `std::terminate`. And a
`Join` that finds no thread to join gives back what a `Start` has taken in the meantime: a `Stop`
then finds `running_` false, and the thread that has been started does not hear of it.

Neither happens where a `Start` that takes `running_` finds no thread left to join and no `Join` on
its way, and a `Join` begins while no `Start` is on its way (`Careful`). Then `running_` is true as
long as the thread runs (`Ordered`), so a `Stop` reaches it, and it has one more task at most to
execute (`owes`) before it tests `stop_` again.
-/

namespace MyControl

open Function Parties Transition MyData Workflow

universe u v

/-- `Start` has taken `running_`. -/
def Client.starts : Client → Bool
  | resetting | spawning => true
  | _ => false

/-- `Join` has tested `joinable()`. -/
def Client.joins : Client → Bool
  | joining | clearing => true
  | _ => false

section
variable {ι : Type u} {σ : Type v}

/-- A `Start` takes `running_` when the thread has been joined and no `Join` is on its way; a `Join`
begins when no `Start` is. -/
def Careful (s : Workflow ι σ) : Label ι → Prop
  | .call _ .start =>
    s.running = false → s.joinable = false ∧ ∀ c, (s.clients c).joins = false
  | .call _ .join => ∀ c, (s.clients c).starts = false
  | _ => True

instance [Fintype ι] (s : Workflow ι σ) : ∀ l, Decidable (Careful s l)
  | .call _ .start => inferInstanceAs (Decidable (s.running = false → s.joinable = false ∧ _))
  | .call _ .join => inferInstanceAs (Decidable (∀ c, (s.clients c).starts = false))
  | .call _ .stop | .push _ | .clear | .shutdown | .setEStop _ | .client _ | .worker _ _ =>
    isTrue trivial

/-- The thread comes to leave `RunLoop` by itself, before there are more executed tasks. -/
def Leaves [DecidableEq ι] (cb : Callbacks σ) (bound : Nat) (s : Workflow ι σ) : Prop :=
  ∃ n ≤ 8, EndsIn (step cb) (fun b : Int64 × Outcome => .worker b.1 b.2)
    (fun t => t.worker = .exited ∧ (executed t.events).length ≤ bound) n s

/-- A joinable thread is not assigned; a `Stop` after a `Start` makes the thread leave after at most
one more task; after a `Join` no thread runs. -/
structure Safe [DecidableEq ι] (cb : Callbacks σ) (s : Workflow ι σ) : Prop where
  assigns : s.terminated = false
  stops : ∀ n, s.stoppedAt = some n → (executed s.events).length ≤ n + 1 ∧
    ∀ p, s.worker = .running p → Leaves cb (n + 1) s
  joins : s.joined = true → ∀ p, s.worker ≠ .running p

/-! ## What is kept -/

/-- How many more tasks are executed before `stop_` is tested. -/
def Phase.owes : Phase → Nat
  | .checking | .popping | .starting _ | .executing _ => 1
  | _ => 0

/-- **What careful steps keep**: one `Start` or `Join` at a time, and a thread that has been told to
stop executes one more task at most. -/
structure Ordered (s : Workflow ι σ) : Prop where
  alive : s.terminated = false
  one : AtMostOne (fun p : Client => p.starts = true) s.clients
  apart : ∀ c d, (s.clients c).starts = true → (s.clients d).joins ≠ true
  starts : ∀ c, (s.clients c).starts = true → s.running = true ∧ s.joinable = false
  clears : ∀ c, s.clients c = .clearing → s.joinable = false
  runs : ∀ p, s.worker = .running p → s.running = true
  /-- Since a `Stop` the thread has been told to stop, if it is still there. -/
  stops : ∀ n, s.stoppedAt = some n → (executed s.events).length ≤ n + 1 ∧
    ∀ p, s.worker = .running p →
      s.stop = true ∧ (executed s.events).length + p.owes ≤ n + 1
  joined : s.joined = true → ∀ p, s.worker ≠ .running p

/-- It is one at most. -/
theorem Phase.owes_le (p : Phase) : p.owes ≤ 1 := by
  unfold Phase.owes
  split <;> omega

/-- A thread that runs is joinable. -/
theorem joinable_of_running {s : Workflow ι σ} {p : Phase} (hw : s.worker = .running p) :
    s.joinable = true := by
  unfold joinable
  rw [hw]

variable {cb : Callbacks σ} {s t : Workflow ι σ}

/-- While the thread runs nobody is in `Start`. -/
theorem Ordered.not_starts (h : Ordered s) {p : Phase} (hw : s.worker = .running p) (c : ι) :
    (s.clients c).starts ≠ true := by
  intro hc
  have hno := (h.starts c hc).2
  rw [joinable_of_running hw] at hno
  cases hno

/-- While the thread runs nobody has joined it. -/
theorem Ordered.not_clears (h : Ordered s) {p : Phase} (hw : s.worker = .running p) (c : ι) :
    s.clients c ≠ .clearing := by
  intro hc
  have hno := h.clears c hc
  rw [joinable_of_running hw] at hno
  cases hno

/-! ## The thread -/

/-- The thread goes on, to no more tasks than it owes. -/
theorem Ordered.goOn (h : Ordered s) {p q : Phase} (hw : s.worker = .running p) {d : σ}
    {queue : TaskQueue} {events : List Event}
    (hq : s.stop = true →
      (executed events).length + q.owes ≤ (executed s.events).length + p.owes) :
    Ordered { s with device := d, queue, worker := .running q, events } := by
  refine ⟨h.alive, h.one, h.apart, fun c hc => absurd hc (h.not_starts hw c),
    fun c hc => absurd hc (h.not_clears hw c), fun _ _ => h.runs p hw, fun n hn => ?_,
    fun hj => absurd hw (h.joined hj p)⟩
  obtain ⟨hstop, howes⟩ := (h.stops n hn).2 p hw
  have hle := Nat.le_trans (hq hstop) howes
  exact ⟨Nat.le_trans (Nat.le_add_right _ _) hle, fun r hr => by cases hr; exact ⟨hstop, hle⟩⟩

/-- A step of the thread keeps it. -/
theorem workerStep_ordered (h : Ordered s) {p : Phase} (hw : s.worker = .running p) (now : Int64)
    (o : Outcome) : Ordered (s.workerStep cb now o p) := by
  cases p with
  | testing =>
    refine h.goOn hw fun hstop => ?_
    rw [if_pos hstop]
    exact Nat.le_refl _
  | checking =>
    refine h.goOn hw fun _ => Nat.add_le_add_left ?_ _
    split <;> simp [Phase.owes]
  | popping =>
    simp only [workerStep]
    split
    next => exact h.goOn hw fun _ => Nat.le_succ _
    next => exact h.goOn hw fun _ => Nat.le_refl _
  | missed =>
    refine h.goOn hw fun _ => Nat.add_le_add_left ?_ _
    split <;> simp [Phase.owes]
  | starting task => exact h.goOn hw fun _ => by simp [executed, Phase.owes]
  | executing task => exact h.goOn hw fun _ => by simp [executed, Phase.owes]
  | finishing task result => exact h.goOn hw fun _ => by simp [executed, Phase.owes]
  | leaving =>
    have hexited : ∀ q : Phase, Thread.exited ≠ .running q := fun q hq => by cases hq
    exact ⟨h.alive, h.one, h.apart, fun c hc => absurd hc (h.not_starts hw c),
      fun c hc => absurd hc (h.not_clears hw c), fun q hq => absurd hq (hexited q),
      fun n hn => ⟨(h.stops n hn).1, fun q hq => absurd hq (hexited q)⟩, fun _ => hexited⟩

/-! ## The clients -/

/-- Without a joinable thread there is none that runs. -/
theorem not_running_of_not_joinable (hno : s.joinable = false) (p : Phase) :
    s.worker ≠ .running p := by
  intro hw
  rw [joinable_of_running hw] at hno
  cases hno

/-- `Stop` returns when the thread has been told to stop, or is not there. -/
theorem Ordered.stopped (h : Ordered s) (hstop : ∀ p, s.worker = .running p → s.stop = true) :
    Ordered { s with stoppedAt := some (executed s.events).length } := by
  refine ⟨h.alive, h.one, h.apart, h.starts, h.clears, h.runs, fun n hn => ?_, h.joined⟩
  cases hn
  exact ⟨Nat.le_succ _, fun p hp => ⟨hstop p hp, Nat.add_le_add_left p.owes_le _⟩⟩

/-- At first there is no thread. -/
theorem ordered_init (d : σ) : Ordered ({ device := d } : Workflow ι σ) where
  alive := rfl
  one _ _ hc := by cases hc
  apart _ _ hc := by cases hc
  starts _ hc := by cases hc
  clears _ hc := by cases hc
  runs _ hw := by cases hw
  stops _ hn := by cases hn
  joined hj := by cases hj

variable [DecidableEq ι] {c : ι}

/-- A place that a client has only if it has had it. -/
theorem of_update {P : Client → Prop} {clients : ι → Client} {p : Client}
    (h : P p → P (clients c)) {d : ι} (hd : P (update clients c p d)) : P (clients d) := by
  rcases eq_or_ne d c with rfl | hne
  · rw [update_self] at hd
    exact h hd
  · rwa [update_of_ne hne] at hd

/-- A client changes its place, but neither to `Start` nor to `Join`. -/
theorem Ordered.move (h : Ordered s) {p : Client}
    (hstarts : p.starts = true → (s.clients c).starts = true)
    (hjoins : p.joins = true → (s.clients c).joins = true) (hclears : p ≠ .clearing) :
    Ordered { s with clients := update s.clients c p } := by
  refine ⟨h.alive, h.one.stay hstarts, fun d e hd he => ?_, fun d hd => ?_, fun d hd => ?_, h.runs,
    h.stops, h.joined⟩
  · exact h.apart d e (of_update (P := fun q => q.starts = true) hstarts hd)
      (of_update (P := fun q => q.joins = true) hjoins he)
  · exact h.starts d (of_update (P := fun q => q.starts = true) hstarts hd)
  · exact h.clears d (of_update (P := fun q => q = .clearing) (fun hp => absurd hp hclears) hd)

/-- `Start` takes `running_`. -/
theorem Ordered.take (h : Ordered s) (hrun : s.running = false) (hno : s.joinable = false)
    (hjoins : ∀ d, (s.clients d).joins = false) :
    Ordered { s with running := true, clients := update s.clients c .resetting } := by
  have hnone : ∀ d, (s.clients d).starts ≠ true := by
    intro d hd
    have ht := (h.starts d hd).1
    rw [hrun] at ht
    cases ht
  have hjoins' : ∀ d, (update s.clients c .resetting d).joins ≠ true := by
    intro d hd
    have hd' := of_update (P := fun q => q.joins = true) (fun hp => by cases hp) hd
    rw [hjoins d] at hd'
    cases hd'
  refine ⟨h.alive, h.one.enter fun _ d _ => hnone d, fun _ d _ => hjoins' d, fun _ _ => ⟨rfl, hno⟩,
    fun d hd => ?_, fun _ _ => rfl, h.stops, h.joined⟩
  refine absurd ?_ (hjoins' d)
  rw [show update s.clients c .resetting d = .clearing from hd]
  rfl

/-- A client begins or goes on to join, while nobody is in `Start`. -/
theorem Ordered.join (h : Ordered s) (hnone : ∀ d, (s.clients d).starts ≠ true) {p : Client}
    (hp : p.starts = false) {worker : Thread Phase} 
    (hw : ∀ q, worker = .running q → s.worker = .running q)
    (hclears : ∀ d, update s.clients c p d = .clearing →
      joinable { s with worker, clients := update s.clients c p } = false) :
    Ordered { s with worker, clients := update s.clients c p } := by
  have hnone' : ∀ d, (update s.clients c p d).starts ≠ true := by
    intro d hd
    refine hnone d (of_update (P := fun q => q.starts = true) (fun hp' => ?_) hd)
    rw [hp] at hp'
    cases hp'
  refine ⟨h.alive, fun d _ hd => absurd hd (hnone' d), fun d _ hd => absurd hd (hnone' d),
    fun d hd => absurd hd (hnone' d), hclears, fun q hq => h.runs q (hw q hq),
    fun n hn => ⟨(h.stops n hn).1, fun q hq => (h.stops n hn).2 q (hw q hq)⟩,
    fun hj q hq => h.joined hj q (hw q hq)⟩

/-- A careful call keeps it. -/
theorem callStep_ordered (h : Ordered s) {op : Op} (hc : Careful s (.call c op))
    (hidle : s.clients c = .idle) : Ordered (s.callStep c op) := by
  cases op with
  | start =>
    simp only [callStep]
    split
    next => exact h
    next hrun =>
      rw [Bool.not_eq_true] at hrun
      obtain ⟨hno, hjoins⟩ := hc hrun
      exact h.take hrun hno hjoins
  | stop =>
    simp only [callStep]
    split
    next => exact h.move (fun hp => by cases hp) (fun hp => by cases hp) nofun
    next hrun => exact h.stopped fun p hp => absurd (h.runs p hp) hrun
  | join =>
    have hnone : ∀ d, (s.clients d).starts ≠ true := fun d => by
      rw [hc d]
      nofun
    refine h.join hnone (by split <;> rfl) (fun _ hq => hq) fun d hd => ?_
    rcases eq_or_ne d c with rfl | hne
    · rw [update_self] at hd
      split at hd
      next => cases hd
      next hno => exact Bool.eq_false_of_not_eq_true hno
    · rw [update_of_ne hne] at hd
      exact h.clears d hd

/-- A step of a client keeps it. -/
theorem clientStep_ordered (h : Ordered s) (hs : s.clientStep c = some t) : Ordered t := by
  unfold clientStep at hs
  split at hs
  next => cases hs
  next hc =>
    cases hs
    have hstarts : (s.clients c).starts = true := by rw [hc]; rfl
    have hno := (h.starts c hstarts).2
    have hmove := h.move (c := c) (p := .spawning) (fun _ => hstarts) (fun hp => by cases hp) nofun
    exact { hmove with
      stops := fun n hn => ⟨(h.stops n hn).1,
        fun p hp => absurd hp (not_running_of_not_joinable hno p)⟩ }
  next hc =>
    have hstarts : (s.clients c).starts = true := by rw [hc]; rfl
    obtain ⟨hrun, hno⟩ := h.starts c hstarts
    rw [if_neg (by rw [hno]; nofun)] at hs
    cases hs
    have hmove := h.move (c := c) (p := .idle) (fun hp => by cases hp) (fun hp => by cases hp) nofun
    refine { hmove with
      starts := fun d hd => absurd hd ?_
      clears := fun d hd => absurd ?_ (h.apart c d hstarts)
      runs := fun _ _ => hrun
      stops := fun _ hn => (by cases hn)
      joined := fun hj => (by cases hj) }
    · intro hd
      have hd' := of_update (P := fun q => q.starts = true) (fun hp => by cases hp) hd
      obtain rfl := h.one d c hd' hstarts
      have hidle : (update s.clients d .idle d).starts = true := hd
      rw [update_self] at hidle
      cases hidle
    · have hd' := of_update (P := fun q => q = .clearing) (fun hp => by cases hp) hd
      rw [hd']
      rfl
  next hc =>
    cases hs
    have hmove := h.move (c := c) (p := .idle) (fun hp => by cases hp) (fun hp => by cases hp) nofun
    have hstop : Ordered { s with stop := true, clients := update s.clients c .idle } :=
      { hmove with
        stops := fun n hn => ⟨(h.stops n hn).1, fun p hp => ⟨rfl, ((h.stops n hn).2 p hp).2⟩⟩ }
    exact hstop.stopped fun _ _ => rfl
  next hc =>
    have hjoins : (s.clients c).joins = true := by rw [hc]; rfl
    have hnone : ∀ d, (s.clients d).starts ≠ true := fun d hd => h.apart d c hd hjoins
    split at hs
    next => cases hs
    next =>
      cases hs
      exact h.join hnone rfl (fun q hq => by cases hq) fun _ _ => rfl
    next =>
      cases hs
      exact h.move (fun hp => by cases hp) (fun hp => by cases hp) nofun
  next hc =>
    cases hs
    have hjoins : (s.clients c).joins = true := by rw [hc]; rfl
    have hnone : ∀ d, (s.clients d).starts ≠ true := fun d hd => h.apart d c hd hjoins
    have hno := not_running_of_not_joinable (h.clears c hc)
    have hmove := h.move (c := c) (p := .idle) (fun hp => by cases hp) (fun hp => by cases hp) nofun
    exact { hmove with
      starts := fun d hd => absurd (of_update (P := fun q => q.starts = true)
        (fun hp => by cases hp) hd) (hnone d)
      runs := fun p hp => absurd hp (hno p)
      joined := fun _ => hno }

/-- **One step.** -/
theorem step_ordered {l : Label ι} (hc : Careful s l) (h : Ordered s) (hs : step cb s l = some t) :
    Ordered t := by
  unfold step at hs
  rw [if_neg (by rw [h.alive]; nofun)] at hs
  cases l with
  | push | clear | shutdown | setEStop =>
    cases hs
    exact { h with }
  | call c op =>
    simp only at hs
    split at hs
    next hidle => cases hs; exact callStep_ordered h hc hidle
    next => cases hs
  | client c => exact clientStep_ordered h hs
  | worker now o =>
    simp only at hs
    split at hs
    next p hw => cases hs; exact workerStep_ordered h hw now o
    next => cases hs

/-! ## The way out -/

/-- The thread is on its way out, in so many steps. -/
abbrev Out (cb : Callbacks σ) (bound n : Nat) (s : Workflow ι σ) : Prop :=
  EndsIn (step cb) (fun b : Int64 × Outcome => .worker b.1 b.2)
    (fun t => t.worker = .exited ∧ (executed t.events).length ≤ bound) n s

/-- A step of the thread is one of the workflow. -/
theorem step_worker (ha : s.terminated = false) {p : Phase} (hw : s.worker = .running p)
    (b : Int64 × Outcome) : step cb s (.worker b.1 b.2) = some (s.workerStep cb b.1 b.2 p) := by
  unfold step
  rw [if_neg (by rw [ha]; nofun)]
  simp only [hw]

variable (cb) {bound : Nat}

/-- From its way out it leaves in one step. -/
theorem out_leaving (ha : s.terminated = false) (hw : s.worker = .running .leaving)
    (hle : (executed s.events).length ≤ bound) : Out cb bound 1 s :=
  .cons (step_worker ha hw) fun _ => ⟨rfl, hle⟩

/-- From the test of its flag it leaves in two steps. -/
theorem out_testing (ha : s.terminated = false) (hw : s.worker = .running .testing)
    (hstop : s.stop = true) (hle : (executed s.events).length ≤ bound) : Out cb bound 2 s := by
  refine .cons (step_worker ha hw) fun _ => out_leaving cb ha ?_ hle
  show Thread.running (if s.stop then Phase.leaving else .checking) = _
  rw [if_pos hstop]

/-- From the end of a task it leaves in three steps. -/
theorem out_finishing (ha : s.terminated = false) {task : Task} {result : TaskResult}
    (hw : s.worker = .running (.finishing task result)) (hstop : s.stop = true)
    (hle : (executed s.events).length ≤ bound) : Out cb bound 3 s := by
  refine .cons (step_worker ha hw) fun _ => out_testing cb ha rfl hstop ?_
  simpa [workerStep, executed] using hle

/-- From a task it leaves in four steps. -/
theorem out_executing (ha : s.terminated = false) {task : Task}
    (hw : s.worker = .running (.executing task)) (hstop : s.stop = true)
    (hle : (executed s.events).length + 1 ≤ bound) : Out cb bound 4 s := by
  refine .cons (step_worker ha hw) fun _ => out_finishing cb ha rfl hstop ?_
  simpa [workerStep, executed] using hle

/-- From the begin of a task it leaves in five steps. -/
theorem out_starting (ha : s.terminated = false) {task : Task}
    (hw : s.worker = .running (.starting task)) (hstop : s.stop = true)
    (hle : (executed s.events).length + 1 ≤ bound) : Out cb bound 5 s := by
  refine .cons (step_worker ha hw) fun _ => out_executing cb ha rfl hstop ?_
  simpa [workerStep, executed] using hle

/-- From a missed item it leaves in three steps at most. -/
theorem out_missed (ha : s.terminated = false) (hw : s.worker = .running .missed)
    (hstop : s.stop = true) (hle : (executed s.events).length ≤ bound) :
    ∃ n ≤ 3, Out cb bound n s := by
  by_cases hshut : s.queue.shutdown = true
  · refine ⟨2, by omega, .cons (step_worker ha hw) fun _ => out_leaving cb ha ?_ hle⟩
    show Thread.running (if s.queue.shutdown then Phase.leaving else .testing) = _
    rw [if_pos hshut]
  · refine ⟨3, by omega, .cons (step_worker ha hw) fun _ => out_testing cb ha ?_ hstop hle⟩
    show Thread.running (if s.queue.shutdown then Phase.leaving else .testing) = _
    rw [if_neg hshut]

/-- From its wait for a task it leaves in six steps at most. -/
theorem out_popping (ha : s.terminated = false) (hw : s.worker = .running .popping)
    (hstop : s.stop = true) (hle : (executed s.events).length + 1 ≤ bound) :
    ∃ n ≤ 6, Out cb bound n s := by
  rcases hq : s.queue.popBlocking with _ | ⟨task, queue⟩
  · have hnext : ∀ b : Int64 × Outcome, s.workerStep cb b.1 b.2 .popping =
        { s with worker := .running .missed } := by
      intro b
      simp only [workerStep, hq]
    have hmissed := out_missed cb (s := { s with worker := .running .missed }) ha rfl hstop
      (Nat.le_of_succ_le hle)
    obtain ⟨n, hn, hout⟩ := hmissed
    exact ⟨n + 1, by omega, .cons (fun b => by rw [step_worker ha hw, hnext b]) fun _ => hout⟩
  · have hnext : ∀ b : Int64 × Outcome, s.workerStep cb b.1 b.2 .popping =
        { s with queue, worker := .running (.starting task) } := by
      intro b
      simp only [workerStep, hq]
    have hstarting := out_starting cb
      (s := { s with queue, worker := .running (.starting task) }) ha rfl hstop hle
    exact ⟨6, by omega, .cons (fun b => by rw [step_worker ha hw, hnext b]) fun _ => hstarting⟩

/-- **A thread that has been told to stop leaves**, wherever it is. -/
theorem leaves_of_stop (ha : s.terminated = false) {p : Phase} (hw : s.worker = .running p)
    (hstop : s.stop = true) (hle : (executed s.events).length + p.owes ≤ bound) :
    Leaves cb bound s := by
  cases p with
  | testing => exact ⟨2, by omega, out_testing cb ha hw hstop hle⟩
  | checking =>
    by_cases hestop : s.eStop = true
    · refine ⟨3, by omega, .cons (step_worker ha hw) fun _ => out_testing cb ha ?_ hstop
        (Nat.le_of_succ_le hle)⟩
      show Thread.running (if s.eStop then Phase.testing else .popping) = _
      rw [if_pos hestop]
    · have hpopping := out_popping cb (s := { s with worker := .running .popping }) ha rfl
        hstop hle
      obtain ⟨n, hn, hout⟩ := hpopping
      refine ⟨n + 1, by omega, .cons (fun b => ?_) fun _ => hout⟩
      rw [step_worker ha hw, workerStep, if_neg hestop]
  | popping =>
    obtain ⟨n, hn, hout⟩ := out_popping cb ha hw hstop hle
    exact ⟨n, by omega, hout⟩
  | missed =>
    obtain ⟨n, hn, hout⟩ := out_missed cb ha hw hstop hle
    exact ⟨n, by omega, hout⟩
  | starting task => exact ⟨5, by omega, out_starting cb ha hw hstop hle⟩
  | executing task => exact ⟨4, by omega, out_executing cb ha hw hstop hle⟩
  | finishing task result => exact ⟨3, by omega, out_finishing cb ha hw hstop hle⟩
  | leaving => exact ⟨1, by omega, out_leaving cb ha hw hle⟩

variable {cb}

/-- **What is kept is safe.** -/
theorem Ordered.safe (h : Ordered s) : Safe cb s where
  assigns := h.alive
  stops n hn := by
    obtain ⟨hle, hrun⟩ := h.stops n hn
    refine ⟨hle, fun p hp => ?_⟩
    obtain ⟨hstop, howes⟩ := hrun p hp
    exact leaves_of_stop cb h.alive hp hstop howes
  joins := h.joined

/-- **`Start`, `Stop` and `Join` are safe in a careful run**, in every state of it. -/
theorem start_stop_join_safe {d : σ} {ls : List (Label ι)}
    (hc : Along (step cb) Careful { device := d } ls)
    (h : run (step cb) { device := d } ls = some s) : Safe cb s := by
  have hordered := run_along (P := Ordered) (fun _ _ _ hc hs hstep => step_ordered hc hs hstep)
    (ordered_init d) hc h
  exact hordered.safe

end

/-- A workflow without a device. -/
def noCallbacks : Callbacks Unit := ⟨fun _ _ _ => (), fun _ _ _ _ => ()⟩

/-- `Start`, and the thread leaves because the queue has been shut down. -/
def exits : List (Label Unit) :=
  [.call () .start, .client (), .client (), .shutdown, .worker 0 .throwsUnknown,
    .worker 0 .throwsUnknown, .worker 0 .throwsUnknown, .worker 0 .throwsUnknown,
    .worker 0 .throwsUnknown]

/-- It is joined and started once more, and stopped. -/
def restart : List (Label Unit) :=
  exits ++ [.call () .join, .client (), .client (), .call () .start, .client (), .client (),
    .worker 0 .throwsUnknown, .call () .stop, .client ()]

/-- A thread that has left is joined, started again, and stopped before any task. -/
theorem start_stop_join_safe_restart :
    ∃ s, run (step noCallbacks) ({ device := () } : Workflow Unit Unit) restart = some s ∧
      s.stoppedAt = some 0 ∧ Safe noCallbacks s := by
  have hrun : run (step noCallbacks) ({ device := () } : Workflow Unit Unit) restart = some _ := rfl
  exact ⟨_, hrun, rfl, start_stop_join_safe (by decide) hrun⟩

/-- A `Start` takes `running_` from a thread that has left and has not been joined. -/
theorem not_start_stop_join_safe :
    ¬ ∀ (ls : List (Label Unit)) (s : Workflow Unit Unit),
      run (step noCallbacks) { device := () } ls = some s → Safe noCallbacks s := by
  intro h
  have hsafe := h (exits ++ [.call () .start, .client (), .client ()]) _ rfl
  cases hsafe.assigns

end MyControl
