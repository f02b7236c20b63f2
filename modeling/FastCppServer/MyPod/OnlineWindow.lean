import FastCppServer.Lib.Window
import FastCppServer.MyPod.PodMonitor

/-!
# The online window

`updateOnlineWindow` keeps the last results of the status poll, at most as many as the configuration
says at the time of the call, and takes the pod for online if enough of them are successes. Whatever
happens to the configuration in between, the window is an end of all results
(`suffix_of_run`), and it gets at most one longer with each of them.
-/

namespace PodModule

namespace PodMonitor

open Transition Window

/-! ## The loops -/

theorem trimHistory_eq (windowSize : UInt32) (history : List Bool) :
    trimHistory windowSize history = history.rtake windowSize.toNat := by
  induction history with
  | nil => rw [trimHistory, List.rtake_nil]
  | cons ok rest ih =>
    rw [trimHistory]
    split
    · next hlt =>
      rw [ih, List.rtake, List.rtake, List.length_cons, Nat.sub_add_comm (Nat.lt_succ_iff.1 hlt),
        List.drop_succ_cons]
    · next hle => exact (rtake_of_length_le (Nat.not_lt.1 hle)).symm

/-- The count does not wrap: a window is no longer than its size. -/
theorem successCount_toNat {history : List Bool} (h : history.length < 2 ^ 32) :
    (successCount history).toNat = history.count true := by
  have hfold : ∀ (l : List Bool) (count : UInt32), count.toNat + l.length < 2 ^ 32 →
      (l.foldl (fun count ok => if ok then count + 1 else count) count).toNat =
        count.toNat + l.count true := by
    intro l
    induction l with
    | nil => exact fun _ _ => rfl
    | cons ok l ih =>
      intro count hlt
      rw [List.length_cons] at hlt
      cases ok with
      | false =>
        rw [List.foldl_cons, if_neg Bool.false_ne_true, ih count (by omega),
          List.count_cons_of_ne (by decide)]
      | true =>
        have hone : (count + 1).toNat = count.toNat + 1 := by
          rw [UInt32.toNat_add]
          exact Nat.mod_eq_of_lt (show count.toNat + 1 < 2 ^ 32 by omega)
        rw [List.foldl_cons, if_pos rfl, ih (count + 1) (by omega), hone, List.count_cons_self]
        omega
  rw [successCount, hfold history 0 (by simpa using h)]
  exact Nat.zero_add _

/-- **One call.** The window slides by the result, and the pod is online if enough of it are
successes. -/
theorem updateOnlineWindow_spec (m : PodMonitor) (pingResult : Bool)
    (windowSize threshold : UInt32) :
    (m.updateOnlineWindow pingResult windowSize threshold).onlineHistory =
        slide windowSize.toNat m.onlineHistory pingResult ∧
      (m.updateOnlineWindow pingResult windowSize threshold).results = m.results ++ [pingResult] ∧
      ((m.updateOnlineWindow pingResult windowSize threshold).runtimeStatus.isOnline = true ↔
        threshold.toNat ≤
          (slide windowSize.toNat m.onlineHistory pingResult).count true) := by
  have htrim := trimHistory_eq windowSize (m.onlineHistory ++ [pingResult])
  have hlength : (slide windowSize.toNat m.onlineHistory pingResult).length < 2 ^ 32 := by
    rw [length_slide]
    exact Nat.lt_of_le_of_lt (Nat.min_le_right _ _) windowSize.toNat_lt
  refine ⟨htrim, by simp [updateOnlineWindow, results], ?_⟩
  rw [← successCount_toNat hlength, ← UInt32.le_iff_toNat_le, slide, ← htrim]
  exact decide_eq_true_iff

/-! ## Runs -/

theorem results_stampLast (now : UInt64) (record : List Result) :
    (stampLast now record).map Result.ok = record.map Result.ok := by
  induction record with
  | nil => rfl
  | cons r rest ih =>
    cases rest with
    | nil => rfl
    | cons r' rest =>
      rw [stampLast, List.map_cons, ih]
      rfl

/-- The steps but an update change neither the window nor the results, or empty both. -/
theorem window_step {m m' : PodMonitor} {l : Label} (h : step m l = some m') (hl : l ≠ .update) :
    m'.onlineHistory = m.onlineHistory ∧ m'.results = m.results ∧
        m'.runtimeStatus.isOnline = m.runtimeStatus.isOnline ∨
      (∃ config, l = .start config) ∧ m'.onlineHistory = [] ∧ m'.results = [] := by
  cases l with
  | update => exact absurd rfl hl
  | start config =>
    rw [step_start h]
    exact .inr ⟨⟨config, rfl⟩, rfl, rfl⟩
  | write now threw =>
    obtain ⟨status, -, rfl⟩ := step_write h
    exact .inl ⟨rfl, results_stampLast now m.record, rfl⟩
  | stop | updateConfig _ | poll | refreshed | told _ | readConfig | throws | measured _ _ =>
    have hq := step_quiet h rfl
    exact .inl ⟨hq.onlineHistory, congrArg (List.map Result.ok) hq.record, hq.isOnline⟩

/-- **The window is an end of all results**, in every run. -/
theorem suffix_of_run {ls : List Label} {m : PodMonitor} (h : run step {} ls = some m) :
    m.onlineHistory <:+ m.results := by
  refine run_invariant (P := fun m => m.onlineHistory <:+ m.results) ?_ (List.suffix_refl _) h
  intro m l m' hm hstep
  by_cases hl : l = .update
  · rw [hl] at hstep
    obtain ⟨pingResult, windowSize, threshold, ret, -, rfl⟩ := step_update hstep
    obtain ⟨hhistory, hresults, -⟩ := updateOnlineWindow_spec m pingResult windowSize threshold
    have hslide := slide_suffix hm windowSize.toNat pingResult
    rw [← hhistory, ← hresults] at hslide
    exact hslide
  · rcases window_step hstep hl with ⟨hhistory, hresults, -⟩ | ⟨-, hhistory, hresults⟩
    · rwa [hhistory, hresults]
    · rw [hhistory]
      exact List.nil_suffix

/-- The configuration is not changed. -/
def Label.keepsConfig : Label → Bool
  | .start _ | .updateConfig _ => false
  | _ => true

/-- Under one configuration the window holds the last results of its size, and the pod is online if
enough of them are successes. -/
structure Fixed (cfg : PodMonitorConfig) (m : PodMonitor) : Prop where
  config : m.config = cfg
  updating : ∀ pingResult windowSize threshold ret,
    m.loc = .updating pingResult windowSize threshold ret →
      windowSize = cfg.onlineWindowSize ∧ threshold = cfg.onlineThreshold
  onlineHistory : m.onlineHistory = m.results.rtake cfg.onlineWindowSize.toNat
  isOnline : m.results ≠ [] → (m.runtimeStatus.isOnline = true ↔
    cfg.onlineThreshold.toNat ≤ (m.results.rtake cfg.onlineWindowSize.toNat).count true)

/-- What a step does to the configuration and to what has been read of it. -/
theorem config_step {m m' : PodMonitor} {l : Label} (h : step m l = some m')
    (hl : l.keepsConfig = true) : m'.config = m.config ∧
      ∀ pingResult windowSize threshold ret,
        m'.loc = .updating pingResult windowSize threshold ret →
          m.loc = .updating pingResult windowSize threshold ret ∨
            windowSize = m.config.onlineWindowSize ∧ threshold = m.config.onlineThreshold := by
  cases l with
  | start config | updateConfig config => cases hl
  | stop =>
    obtain ⟨-, heq⟩ := Option.ite_none_right_eq_some.1 h
    cases heq
    exact ⟨rfl, fun _ _ _ _ => .inl⟩
  | poll | refreshed | told status | throws =>
    obtain ⟨-, heq⟩ := Option.ite_none_right_eq_some.1 h
    cases heq
    exact ⟨rfl, fun _ _ _ _ hloc => by cases hloc⟩
  | measured what now =>
    obtain ⟨-, heq⟩ := Option.ite_none_right_eq_some.1 h
    cases heq
    exact ⟨rfl, fun _ _ _ _ => .inl⟩
  | readConfig =>
    rw [step] at h
    split at h
    · cases h
      refine ⟨rfl, fun _ _ _ _ hloc => .inr ?_⟩
      cases hloc
      exact ⟨rfl, rfl⟩
    · cases h
  | update =>
    obtain ⟨pingResult, windowSize, threshold, ret, -, rfl⟩ := step_update h
    refine ⟨rfl, fun _ _ _ _ hloc => ?_⟩
    cases ret <;> cases hloc
  | write now threw =>
    obtain ⟨status, -, rfl⟩ := step_write h
    refine ⟨rfl, fun _ _ _ _ hloc => ?_⟩
    cases threw <;> cases hloc

theorem Fixed.step {cfg : PodMonitorConfig} {m m' : PodMonitor} {l : Label} (h : Fixed cfg m)
    (hl : l.keepsConfig = true) (hstep : m.step l = some m') : Fixed cfg m' := by
  obtain ⟨hconfig, hupdating⟩ := config_step hstep hl
  have hread : ∀ pingResult windowSize threshold ret,
      m'.loc = .updating pingResult windowSize threshold ret →
        windowSize = cfg.onlineWindowSize ∧ threshold = cfg.onlineThreshold := by
    intro pingResult windowSize threshold ret hloc
    rcases hupdating pingResult windowSize threshold ret hloc with hloc | heq
    · exact h.updating pingResult windowSize threshold ret hloc
    · rwa [h.config] at heq
  by_cases hu : l = .update
  · rw [hu] at hstep
    obtain ⟨pingResult, windowSize, threshold, ret, hloc, rfl⟩ := step_update hstep
    obtain ⟨rfl, rfl⟩ := h.updating pingResult windowSize threshold ret hloc
    obtain ⟨hhistory, hresults, honline⟩ :=
      updateOnlineWindow_spec m pingResult cfg.onlineWindowSize cfg.onlineThreshold
    rw [h.onlineHistory, slide_rtake, ← hresults] at hhistory honline
    exact ⟨hconfig.trans h.config, hread, hhistory, fun _ => honline⟩
  · rcases window_step hstep hu with ⟨hhistory, hresults, honline⟩ | ⟨⟨config, rfl⟩, -⟩
    · refine ⟨hconfig.trans h.config, hread, ?_, ?_⟩
      · rw [hhistory, hresults]
        exact h.onlineHistory
      · rw [hresults, honline]
        exact h.isOnline
    · cases hl

/-- A run after a start, under the configuration of the start. -/
theorem fixed_of_run {pre ls : List Label} {cfg : PodMonitorConfig} {m : PodMonitor}
    (h : run step {} (pre ++ .start cfg :: ls) = some m) (hls : ∀ l ∈ ls, l.keepsConfig = true) :
    Fixed cfg m := by
  rw [run_append, Option.bind_eq_some_iff] at h
  obtain ⟨c, -, h⟩ := h
  rw [run_cons, Option.bind_eq_some_iff] at h
  obtain ⟨t, ht, h⟩ := h
  have hstart : Fixed cfg t := by
    rw [step_start ht]
    exact ⟨rfl, fun _ _ _ _ hloc => (by cases hloc), (List.rtake_nil _).symm,
      fun hne => absurd rfl hne⟩
  exact run_along (C := fun _ l => l.keepsConfig = true) (fun _ _ _ hl hm => hm.step hl) hstart
    (along_of_forall hls t) h

/-- The configuration changes while the thread is in `updateOnlineWindow`. -/
theorem run_updateConfig {configs : List PodMonitorConfig} {m m' : PodMonitor}
    (h : run step m (configs.map .updateConfig) = some m') : ∃ config, m' = { m with config } := by
  induction configs generalizing m with
  | nil => exact ⟨m.config, (Option.some.inj h).symm⟩
  | cons config configs ih =>
    rw [List.map_cons, run_cons, Option.bind_eq_some_iff] at h
    obtain ⟨t, ht, h⟩ := h
    cases ht
    obtain ⟨config', rfl⟩ := ih h
    exact ⟨config', rfl⟩

/-- **The online window.** After each call the window is the end of all results that is one longer
than before, or as long as the configuration read by the call says, and the pod is online exactly if
the threshold read with it is reached in the window. Under one configuration that is a question
about the last results, and more successes never make it offline. -/
theorem online_window :
    (∀ ls c (configs : List PodMonitorConfig) m m', run step {} ls = some c →
      run step c (.readConfig :: configs.map .updateConfig) = some m →
      step m .update = some m' →
        ∃ pingResult ret, c.loc = .reading pingResult ret ∧
          m'.results = c.results ++ [pingResult] ∧ m'.onlineHistory <:+ m'.results ∧
          m'.onlineHistory.length =
            min (c.onlineHistory.length + 1) c.config.onlineWindowSize.toNat ∧
          (m'.runtimeStatus.isOnline = true ↔
            c.config.onlineThreshold.toNat ≤ m'.onlineHistory.count true)) ∧
      (∀ pre cfg ls m, run step {} (pre ++ .start cfg :: ls) = some m →
        (∀ l ∈ ls, l.keepsConfig = true) → m.results ≠ [] →
          (m.runtimeStatus.isOnline = true ↔ cfg.onlineThreshold.toNat ≤
            (m.results.rtake (min m.results.length cfg.onlineWindowSize.toNat)).count true)) ∧
      ∀ pre pre' cfg ls ls' m m', run step {} (pre ++ .start cfg :: ls) = some m →
        run step {} (pre' ++ .start cfg :: ls') = some m' → (∀ l ∈ ls, l.keepsConfig = true) →
          (∀ l ∈ ls', l.keepsConfig = true) → m.results ≠ [] →
            List.Forall₂ (· ≤ ·) m.results m'.results →
              m.runtimeStatus.isOnline = true → m'.runtimeStatus.isOnline = true := by
  refine ⟨?_, ?_, ?_⟩
  · intro ls c configs m m' hc hm hstep
    have hsuffix : m'.onlineHistory <:+ m'.results :=
      suffix_of_run (run_concat.2 ⟨m, by rw [run_append, hc]; exact hm, hstep⟩)
    rw [run_cons, Option.bind_eq_some_iff] at hm
    obtain ⟨t, ht, hm⟩ := hm
    obtain ⟨config, rfl⟩ := run_updateConfig hm
    rw [step] at ht
    split at ht
    · next pingResult ret hloc =>
      cases ht
      cases hstep
      obtain ⟨hhistory, hresults, honline⟩ := updateOnlineWindow_spec c pingResult
        c.config.onlineWindowSize c.config.onlineThreshold
      refine ⟨pingResult, ret, hloc, hresults, hsuffix, ?_, ?_⟩
      · exact (congrArg List.length hhistory).trans (length_slide _ _ _)
      · rw [← hhistory] at honline
        exact honline
    · cases ht
  · intro pre cfg ls m h hls hne
    rw [rtake_min]
    exact (fixed_of_run h hls).isOnline hne
  · intro pre pre' cfg ls ls' m m' h h' hls hls' hne hle honline
    have hne' : m'.results ≠ [] := fun hnil => by
      rw [hnil, List.forall₂_nil_right_iff] at hle
      exact hne hle
    rw [(fixed_of_run h' hls').isOnline hne']
    exact Nat.le_trans (((fixed_of_run h hls).isOnline hne).1 honline) (count_rtake_mono hle _)

/-- One poll that finds the pod connected. -/
def connectedPoll : List Label :=
  [.poll, .refreshed, .told (some { state := .connected }), .readConfig, .update]

/-- One success of two that are asked for. -/
theorem online_window_once : ∃ m, run step {} (.start {} :: connectedPoll) = some m ∧
    (m.runtimeStatus.isOnline = true ↔
      2 ≤ (m.results.rtake (min m.results.length 3)).count true) :=
  ⟨_, rfl, online_window.2.1 [] {} connectedPoll _ rfl (by decide) (List.cons_ne_nil _ _)⟩

end PodMonitor

end PodModule
