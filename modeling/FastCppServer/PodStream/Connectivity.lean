import FastCppServer.Lib.Debounce
import FastCppServer.PodStream.PodStreamManager

/-!
# The connectivity flag

What the monitor thread makes of its pings is a debounced flag, with counters that start at zero in
every session. The flag itself does not: nothing resets `is_connected_`, so that a session that
begins after one which was stopped while the pod was connected has it up before the first ping, and
the worker starts MediaMTX by it. The flag is right in all sessions exactly where every session
begins with it down (`debounced_iff`).
-/

namespace PodStream

open Debounce Manager Transition

/-! ## What is promised -/

namespace Manager

/-- The threshold of successes, as a natural number. -/
def connectCount (s : Manager) : Nat := s.config.connectDebounceCount.toNat

/-- The threshold of failures, as a natural number. -/
def disconnectCount (s : Manager) : Nat := s.config.disconnectDebounceCount.toNat

/-- The worker is in `StartMediaMtx`. -/
def Launches (s : Manager) : Prop := ∃ l, s.workerTh = .running (.starting l)

/-- Long enough a run of successes has been observed in the session. -/
def Seen (s : Manager) : Prop := ∃ k, RunEnds true s.connectCount s.probes k

/-- In a session the flag says what it should, and MediaMTX is not started before the pod has been
connected. -/
def Debounced (s : Manager) : Prop :=
  s.workerTh ≠ .none →
    (s.isConnected = true ↔ Up s.connectCount s.disconnectCount s.probes) ∧ (s.Launches → s.Seen)

/-- A `Start` here begins a session. -/
def Begins (s : Manager) : Prop :=
  s.inited = true ∧ s.config.isOpen = true ∧ s.monitorTh = .none ∧ s.workerTh = .none

end Manager

/-- A session begins with the flag down. -/
def BeginsDown (s : Manager) : Label → Prop
  | .start => s.Begins → s.isConnected = false
  | _ => True

/-- The thresholds of a configuration are positive. -/
def Label.Counts : Label → Prop
  | .init config _ _ => 1 ≤ config.connectDebounceCount ∧ 1 ≤ config.disconnectDebounceCount
  | _ => True

/-! ## The monitor is a filter -/

/-- The local count of successes in a row. -/
def Monitor.successes : Monitor → Nat
  | .loop successes _ | .probing successes _ => successes

/-- The local count of failures in a row. -/
def Monitor.failures : Monitor → Nat
  | .loop _ failures | .probing _ failures => failures

/-- The flag with the counters. -/
def Manager.filter (s : Manager) (p : Monitor) : Filter :=
  { up := s.isConnected, successes := p.successes, failures := p.failures }

/-- **The answer of a ping** moves the flag and the counters as the filter is moved. -/
theorem monitorStep_probing (s : Manager) (ok : Bool) (successes failures : Nat) :
    ∃ p, (s.monitorStep ok (.probing successes failures)).monitorTh = .running p ∧
      (s.monitorStep ok (.probing successes failures)).filter p =
        (s.filter (.probing successes failures)).observe s.connectCount s.disconnectCount ok := by
  have hc (n : Nat) : s.config.connectDebounceCount ≤ n ↔ s.connectCount ≤ n := Int.toNat_le.symm
  have hd (n : Nat) : s.config.disconnectDebounceCount ≤ n ↔ s.disconnectCount ≤ n :=
    Int.toNat_le.symm
  cases ok with
  | true =>
    refine ⟨_, rfl, ?_⟩
    simp only [monitorStep, Manager.filter, Filter.observe, Monitor.successes, Monitor.failures,
      if_true, hc]
    rcases Bool.eq_false_or_eq_true s.isConnected with h | h <;> simp [h]
  | false =>
    refine ⟨_, rfl, ?_⟩
    simp only [monitorStep, Manager.filter, Filter.observe, Monitor.successes, Monitor.failures,
      Bool.false_eq_true, if_false, hd]
    by_cases hle : s.disconnectCount ≤ failures + 1 <;> simp [hle]

/-! ## The step -/

/-- What holds in every session that has begun with the flag down. -/
structure Tracks (s : Manager) : Prop where
  ordered : Ordered s
  connect : 1 ≤ s.config.connectDebounceCount
  disconnect : 1 ≤ s.config.disconnectDebounceCount
  knows : ∀ p, s.monitorTh = .running p → s.workerTh ≠ .none →
    (s.filter p).Knows s.connectCount s.disconnectCount false s.probes
  flag : s.workerTh ≠ .none →
    (s.isConnected = true ↔ Up s.connectCount s.disconnectCount s.probes)
  launches : s.workerTh = .running .preparing ∨ s.Launches → s.Seen

variable {s t : Manager}

/-- **The promise.** -/
theorem Tracks.debounced (h : Tracks s) : Debounced s :=
  fun hw => ⟨h.flag hw, fun hl => h.launches (.inr hl)⟩

/-- A step that keeps the flag, the monitor and the worker. -/
theorem Tracks.congr (h : Tracks s) (ht : Ordered t) (hconfig : t.config = s.config)
    (hflag : t.isConnected = s.isConnected) (hprobes : t.probes = s.probes)
    (hmonitor : ∀ p, t.monitorTh = .running p → s.monitorTh = .running p)
    (hworker : t.workerTh = s.workerTh ∨ t.workerTh = .none) : Tracks t := by
  have hne : t.workerTh ≠ .none → s.workerTh ≠ .none := by
    rcases hworker with hw | hw
    · rw [hw]
      exact id
    · exact fun h => absurd hw h
  refine ⟨ht, ?_, ?_, ?_, ?_, ?_⟩
  · rw [hconfig]
    exact h.connect
  · rw [hconfig]
    exact h.disconnect
  · intro p hp hw
    have hk := h.knows p (hmonitor p hp) (hne hw)
    simpa only [Manager.filter, connectCount, disconnectCount, hconfig, hflag, hprobes] using hk
  · intro hw
    simpa only [connectCount, disconnectCount, hconfig, hflag, hprobes] using h.flag (hne hw)
  · intro hl
    rcases hworker with hw | hw
    · simp only [Launches, hw] at hl
      simpa only [Seen, connectCount, hconfig, hprobes] using h.launches hl
    · simp [Launches, hw] at hl

/-- `Init` touches neither the filter nor the flag. -/
theorem Tracks.init (h : Tracks s) (config : PodConfig) (executable writable : Bool)
    (hc : Label.Counts (.init config executable writable))
    (ht : Ordered { s.init config executable writable with client := .returned false }) :
    Tracks { s.init config executable writable with client := .returned false } := by
  cases hi : s.inited with
  | true =>
    rw [init_of_inited hi] at ht ⊢
    exact h.congr ht rfl rfl rfl (fun _ hp => hp) (.inl rfl)
  | false =>
    -- there is no session, and the configuration is the new one
    have hw := h.ordered.worker hi
    obtain ⟨_, _, _, heq, -⟩ := init_eq hi config executable writable
    rw [heq] at ht ⊢
    refine ⟨ht, hc.1, hc.2, fun _ _ hne => absurd hw hne, fun hne => absurd hw hne, ?_⟩
    simp [Launches, hw]

/-- `Start` begins a session with an empty filter, where the flag is still down. -/
theorem Tracks.start (h : Tracks s) (hdown : BeginsDown s .start)
    (ht : Ordered { s.start with client := .returned false }) :
    Tracks { s.start with client := .returned false } := by
  rcases start_eq s with heq | ⟨hbegins, heq⟩
  · rw [heq] at ht ⊢
    exact h.congr ht rfl rfl rfl (fun _ hp => hp) (.inl rfl)
  · rw [heq] at ht ⊢
    have hknows : (s.filter (.loop 0 0)).Knows s.connectCount s.disconnectCount false [] := by
      have hc : 1 ≤ s.connectCount := Int.pos_iff_toNat_pos.1 h.connect
      have hd : 1 ≤ s.disconnectCount := Int.pos_iff_toNat_pos.1 h.disconnect
      have hflag : s.isConnected = false := hdown hbegins
      rw [Manager.filter, hflag]
      exact Filter.knows_nil hc hd false
    refine ⟨ht, h.connect, h.disconnect, ?_, fun _ => ?_, ?_⟩
    · rintro p hp -
      cases hp
      exact hknows
    · exact hknows.up.trans follows_iff_of_down
    · simp [Launches]

/-- A step of the monitor moves the flag along with the filter. -/
theorem Tracks.monitor (h : Tracks s) {p : Monitor} (hp : s.monitorTh = .running p) (ok : Bool)
    (ht : Ordered (s.monitorStep ok p)) : Tracks (s.monitorStep ok p) := by
  cases p with
  | loop successes failures =>
    refine ⟨ht, h.connect, h.disconnect, fun p hp' hw => ?_, h.flag, h.launches⟩
    have hk := h.knows _ hp hw
    simp only [monitorStep] at hp'
    split at hp' <;> cases hp'
    exact hk
  | probing successes failures =>
    have hc : 1 ≤ s.connectCount := Int.pos_iff_toNat_pos.1 h.connect
    have hd : 1 ≤ s.disconnectCount := Int.pos_iff_toNat_pos.1 h.disconnect
    obtain ⟨p', hp', hfilter⟩ := monitorStep_probing s ok successes failures
    have hworker : (s.monitorStep ok (.probing successes failures)).workerTh = s.workerTh := by
      cases ok <;> rfl
    have hconfig : (s.monitorStep ok (.probing successes failures)).config = s.config := by
      cases ok <;> rfl
    have hprobes :
        (s.monitorStep ok (.probing successes failures)).probes = s.probes ++ [ok] := by
      cases ok <;> rfl
    have hknows (hw : s.workerTh ≠ .none) :
        ((s.monitorStep ok (.probing successes failures)).filter p').Knows s.connectCount
          s.disconnectCount false (s.probes ++ [ok]) := by
      rw [hfilter]
      exact (h.knows _ hp hw).observe hc hd ok
    refine ⟨ht, ?_, ?_, ?_, ?_, ?_⟩
    · rw [hconfig]
      exact h.connect
    · rw [hconfig]
      exact h.disconnect
    · intro q hq hw
      rw [hp'] at hq
      cases hq
      simpa only [connectCount, disconnectCount, hconfig, hprobes] using hknows (hworker ▸ hw)
    · intro hw
      rw [connectCount, disconnectCount, hconfig, hprobes]
      exact (hknows (hworker ▸ hw)).up.trans follows_iff_of_down
    · intro hl
      simp only [Launches, hworker] at hl
      obtain ⟨k, hk⟩ := h.launches hl
      have happ : RunEnds true s.connectCount (s.probes ++ [ok]) k := hk.append
      exact ⟨k, by simpa only [connectCount, hconfig, hprobes] using happ⟩

/-- The worker comes to the start of MediaMTX by the flag alone. -/
theorem workerStep_launches {r : Option Nat} {p : Worker} (h : s.workerStep r p = some t)
    (hl : t.workerTh = .running .preparing ∨ t.Launches) :
    s.isConnected = true ∨ p = .preparing ∨ ∃ l, p = .starting l := by
  cases p with
  | loop =>
    cases h
    cases hq : s.quit <;> simp [Launches, hq] at hl
  | sleeping =>
    cases h
    simp [Launches] at hl
  | reaping p | finishing p =>
    simp only [workerStep] at h
    split at h <;> cases h <;> simp [Launches] at hl
  | switch childExited =>
    cases h
    left
    by_contra hno
    rw [Bool.not_eq_true] at hno
    simp only [switchStep, hno, Bool.false_eq_true, not_false_eq_true, if_true] at hl
    repeat' split at hl
    all_goals simp [Launches] at hl
  | backingOff until_ =>
    simp only [workerStep] at h
    split at h <;> cases h
    cases hc : s.isConnected with
    | true => exact .inl rfl
    | false => simp [Launches, hc] at hl
  | preparing => exact .inr (.inl rfl)
  | starting l => exact .inr (.inr ⟨l, rfl⟩)
  | disconnecting c =>
    simp only [workerStep] at h
    split at h <;> cases h <;> simp [Launches] at hl

/-- The worker reads the flag and never stores it. -/
theorem Tracks.worker (h : Tracks s) {p : Worker} (hp : s.workerTh = .running p)
    {r : Option Nat} (hs : s.workerStep r p = some t) (ht : Ordered t) : Tracks t := by
  have hw := workerStep_works hs
  have hno : s.workerTh ≠ .none := by
    rw [hp]
    nofun
  have hconnect : t.connectCount = s.connectCount := by rw [connectCount, hw.config, connectCount]
  have hdisconnect : t.disconnectCount = s.disconnectCount := by
    rw [disconnectCount, hw.config, disconnectCount]
  refine ⟨ht, ?_, ?_, ?_, ?_, ?_⟩
  · rw [hw.config]
    exact h.connect
  · rw [hw.config]
    exact h.disconnect
  · intro q hq _
    rw [hw.monitorTh] at hq
    rw [hconnect, hdisconnect, hw.probes, Manager.filter, hw.isConnected]
    exact h.knows q hq hno
  · intro _
    rw [hconnect, hdisconnect, hw.probes, hw.isConnected]
    exact h.flag hno
  · intro hl
    rw [Seen, hconnect, hw.probes]
    rcases workerStep_launches hs hl with hflag | rfl | ⟨l, rfl⟩
    · obtain ⟨k, hk, -⟩ := (h.flag hno).1 hflag
      exact ⟨k, hk⟩
    · exact h.launches (.inl hp)
    · exact h.launches (.inr ⟨l, hp⟩)

/-- **Every step keeps it**, where a session begins with the flag down. -/
theorem Tracks.step {l : Label} (h : Tracks s) (hdown : BeginsDown s l) (hc : l.Counts)
    (ht : step s l = some t) : Tracks t := by
  have hordered := h.ordered.step ht
  cases l with
  | init config executable writable =>
    simp only [PodStream.step] at ht
    split at ht <;> cases ht
    exact h.init config executable writable hc hordered
  | start =>
    simp only [PodStream.step] at ht
    split at ht <;> cases ht
    exact h.start hdown hordered
  | stop =>
    simp only [PodStream.step] at ht
    split at ht <;> cases ht
    cases hi : s.inited with
    | false =>
      simp only [Manager.stop, hi, Bool.false_eq_true, not_false_eq_true, if_true] at hordered ⊢
      exact h.congr hordered rfl rfl rfl (fun _ hp => hp) (.inl rfl)
    | true =>
      simp only [Manager.stop, hi, not_true_eq_false, if_false] at hordered ⊢
      exact h.congr hordered rfl rfl rfl (fun _ hp => hp) (.inl rfl)
  | client =>
    have hs := clientStep_stops ht
    have hthreads := clientStep_threads ht
    exact h.congr hordered hs.config hs.isConnected hs.probes hthreads.1 hthreads.2
  | monitor ok =>
    simp only [PodStream.step] at ht
    split at ht <;> cases ht
    next p hp => exact h.monitor hp ok hordered
  | worker r =>
    simp only [PodStream.step] at ht
    split at ht
    · next p hp => exact h.worker hp ht hordered
    · cases ht
  | childExit pid | childVanish pid | tick ns =>
    cases ht
    exact h.congr hordered rfl rfl rfl (fun _ hp => hp) (.inl rfl)

/-! ## All sessions -/

instance (s : Manager) : Decidable s.Begins :=
  inferInstanceAs (Decidable (_ ∧ _ ∧ _ ∧ _))

instance : ∀ l : Label, Decidable l.Counts
  | .init .. => inferInstanceAs (Decidable (_ ∧ _))
  | .start | .stop | .client | .monitor _ | .worker _ | .childExit _ | .childVanish _
  | .tick _ => isTrue trivial

instance (s : Manager) : ∀ l, Decidable (BeginsDown s l)
  | .start => inferInstanceAs (Decidable (s.Begins → s.isConnected = false))
  | .init .. | .stop | .client | .monitor _ | .worker _ | .childExit _ | .childVanish _
  | .tick _ => isTrue trivial

/-- A new manager has no monitor and the flag down. -/
theorem Tracks.initial : Tracks {} where
  ordered := .initial
  connect := by decide
  disconnect := by decide
  knows := nofun
  flag h := absurd rfl h
  launches h := by simp [Launches] at h

/-- The filter and the flag agree along every run whose sessions begin with the flag down. -/
theorem tracks_of_run {ls : List Label} (hcounts : ∀ l ∈ ls, l.Counts)
    (hdown : Along step BeginsDown {} ls) (h : run step {} ls = some s) : Tracks s := by
  have hboth : Along step (fun s l => BeginsDown s l ∧ l.Counts) {} ls := by
    rw [along_iff] at hdown ⊢
    intro pre l post hls m hm
    refine ⟨hdown pre l post hls m hm, hcounts l ?_⟩
    rw [hls]
    exact List.mem_append_right _ List.mem_cons_self
  exact run_along (fun _ _ _ hc hs ht => hs.step hc.1 hc.2 ht) .initial hboth h

/-- A session that begins with the flag up has it wrong at once. -/
theorem beginsDown_of_debounced (hc : 1 ≤ s.config.connectDebounceCount)
    (h : step s .start = some t)
    (ht : Debounced t) : BeginsDown s .start := by
  rintro ⟨hi, ho, hm, hw⟩
  have heq : s.start =
      { s with
        quit := false, monitorTh := .running (.loop 0 0), workerTh := .running .loop
        probes := [] } := by
    simp [Manager.start, hi, ho, hm, hw]
  simp only [step] at h
  split at h <;> cases h
  rw [heq] at ht
  by_contra hup
  rw [Bool.not_eq_false] at hup
  obtain ⟨k, ⟨hk, hsuffix⟩, -⟩ := (ht (by rintro ⟨⟩)).1.1 hup
  have hpos : 1 ≤ s.connectCount := Int.pos_iff_toNat_pos.1 hc
  have hle : s.connectCount ≤ 0 := by
    rw [List.take_nil] at hsuffix
    exact replicate_suffix_iff.1 hsuffix
  omega

/-- The thresholds in use are those of the default or of some `Init`. -/
theorem counts_of_run {ls : List Label} (hcounts : ∀ l ∈ ls, l.Counts)
    (h : run step {} ls = some s) :
    1 ≤ s.config.connectDebounceCount ∧ 1 ≤ s.config.disconnectDebounceCount := by
  revert hcounts
  refine run_induction (P := fun ls s => (∀ l ∈ ls, l.Counts) →
    1 ≤ s.config.connectDebounceCount ∧ 1 ≤ s.config.disconnectDebounceCount)
    (fun _ => by decide) ?_ h
  intro ls s l t _ ih hl hcounts
  have ih := ih fun k hk => hcounts k (List.mem_append_left _ hk)
  have hcl : l.Counts := hcounts l (List.mem_append_right _ List.mem_cons_self)
  rcases step_config hl with heq | ⟨config, executable, writable, rfl, heq⟩
  · rw [heq]
    exact ih
  · rw [heq]
    exact hcl

/-- **The flag is debounced in every state of a run if and only if every session begins with it
down.** -/
theorem debounced_iff {ls : List Label} {s : Manager} (hcounts : ∀ l ∈ ls, l.Counts)
    (hrun : run step {} ls = some s) :
    (∀ pre t, pre <+: ls → run step {} pre = some t → Debounced t) ↔
      Along step BeginsDown {} ls := by
  constructor
  · intro h
    rw [along_iff]
    intro pre l post hls m hm
    cases l with
    | start =>
      rw [hls, List.append_cons, run_append] at hrun
      obtain ⟨t, ht, -⟩ := Option.bind_eq_some_iff.1 hrun
      obtain ⟨m', hm', hstep⟩ := run_concat.1 ht
      obtain rfl := Option.some.inj (hm.symm.trans hm')
      have hpre : ∀ l ∈ pre, l.Counts := fun l hl => hcounts l (by rw [hls]; simp [hl])
      refine beginsDown_of_debounced (counts_of_run hpre hm).1 hstep ?_
      exact h (pre ++ [.start]) t ⟨post, by simp [hls]⟩ ht
    | init | stop | client | monitor | worker | childExit | childVanish | tick => trivial
  · rintro hdown pre t ⟨post, rfl⟩ ht
    refine (tracks_of_run (fun l hl => hcounts l (List.mem_append_left _ hl)) ?_ ht).debounced
    rw [along_iff] at hdown ⊢
    intro before l after hls m hm
    exact hdown before l (after ++ post) (by rw [hls]; simp) m hm

/-- A first session, in which the pod answers once. -/
def firstSession : List Label :=
  [.init quickConfig true true, .start, .monitor true, .monitor true]

/-- The session is stopped and the manager started again. -/
def restart : List Label :=
  [.stop, .monitor true, .worker none, .client, .client, .client, .client, .client,
    .init quickConfig true true, .start]

/-- In a first session the pod answers one ping: the flag is up, and it should be. -/
theorem debounced_iff_firstSession :
    ∃ s, run step {} firstSession = some s ∧ s.isConnected = true ∧ Debounced s := by
  have h : run step {} firstSession = some _ := rfl
  have hcounts : ∀ l ∈ firstSession, l.Counts := by decide
  exact ⟨_, h, rfl, (debounced_iff hcounts h).2 (by decide) _ _ (List.prefix_refl _) h⟩

/-- The worker launches MediaMTX without a ping. -/
def launchUnpinged : List Label :=
  [.tick 2000000000, .worker none, .worker none, .worker none, .worker (some 7)]

/-- In the second session MediaMTX is started before the first ping. -/
theorem not_debounced :
    ¬ ∀ ls s, (∀ l ∈ ls, l.Counts) → run step {} ls = some s → Debounced s := by
  intro h
  have hd := h (firstSession ++ restart ++ launchUnpinged) _ (by decide) rfl
  obtain ⟨k, hk⟩ := (hd (by nofun)).2 ⟨.enter, rfl⟩
  have hsuffix : List.replicate 1 true <:+ List.take k [] := hk.2
  simp at hsuffix

end PodStream
