import FastCppServer.MyPod.PodMonitor

/-!
# The status of a pod, as it is read

A status poll stores whether the pod is online in one section and what follows from it, the state
and the time, in another; if it throws, only the first is done again. So what is read of the status
is consistent exactly when the last change of the window was followed by the second section
(`consistent_iff`).
-/

namespace PodModule

namespace PodMonitor

open Transition

/-- The state says whether the pod is online, and the time is that of the poll that found it out. -/
structure Consistent (m : PodMonitor) : Prop where
  state : m.getRuntimeStatus.podStatus.state = .connected ↔ m.getRuntimeStatus.isOnline = true
  onlineUpdateMs : ∀ r, m.record.getLast? = some r →
    r.stamp = some m.getRuntimeStatus.onlineUpdateMs

/-- Whether the last change of the window was followed by the second section of its poll, if there
was one since the start. -/
def settled : Bool → Label → Bool
  | _, .start _ => true
  | _, .update => false
  | _, .write _ _ => true
  | before, _ => before

def Settled (ls : List Label) : Prop := ls.foldl settled true = true

/-! ## What the steps keep -/

theorem getLast?_stampLast {record : List Result} {r : Result}
    (h : record.getLast? = some r) (now : UInt64) :
    (stampLast now record).getLast? = some { r with stamp := some now } := by
  induction record with
  | nil => cases h
  | cons r₀ rest ih =>
    cases rest with
    | nil =>
      cases h
      rfl
    | cons r₁ rest =>
      rw [List.getLast?_cons_cons] at h
      rw [stampLast, List.getLast?_cons, ih h]
      rfl

/-- What holds besides, for a run that is settled or not. -/
structure Inv (settled : Bool) (m : PodMonitor) : Prop where
  writing : ∀ status, m.loc = .writing status → m.record ≠ []
  consistent : settled = true → Consistent m
  pending : settled = false → ∃ r, m.record.getLast? = some r ∧ r.stamp = none

theorem Inv.quiet {b : Bool} {m m' : PodMonitor} (h : Inv b m) (hq : Quiet m m') : Inv b m' where
  writing status hw := by
    rw [hq.record]
    exact h.writing status (hq.writing status hw)
  consistent hb := by
    obtain ⟨hstate, htime⟩ := h.consistent hb
    refine ⟨?_, ?_⟩
    · rw [getRuntimeStatus, hq.podStatus, hq.isOnline]
      exact hstate
    · rw [getRuntimeStatus, hq.record, hq.onlineUpdateMs]
      exact htime
  pending hb := by
    rw [hq.record]
    exact h.pending hb

theorem Inv.step {b : Bool} {m m' : PodMonitor} {l : Label} (h : Inv b m)
    (hstep : m.step l = some m') : Inv (settled b l) m' := by
  cases l with
  | start config =>
    rw [step_start hstep]
    refine ⟨fun _ hw => (by cases hw), fun _ => ⟨by simp [getRuntimeStatus], ?_⟩, ?_⟩
    · intro _ hr
      cases hr
    · intro hb
      cases hb
  | update =>
    obtain ⟨pingResult, windowSize, threshold, ret, -, rfl⟩ := step_update hstep
    refine ⟨fun _ _ => List.concat_ne_nil _ _, fun hb => (by cases hb), fun _ => ?_⟩
    exact ⟨{ ok := pingResult }, List.getLast?_concat, rfl⟩
  | write now threw =>
    obtain ⟨status, hloc, rfl⟩ := step_write hstep
    obtain ⟨r, hr⟩ := Option.ne_none_iff_exists'.1 (mt List.getLast?_eq_none_iff.1
      (h.writing status hloc))
    have hlast := getLast?_stampLast hr now
    refine ⟨fun _ hw => (by cases threw <;> cases hw), fun _ => ⟨?_, ?_⟩, fun hb => (by cases hb)⟩
    · show (if m.runtimeStatus.isOnline then PodState.connected else .disconnected) = .connected ↔
        m.runtimeStatus.isOnline = true
      cases m.runtimeStatus.isOnline <;> decide
    · intro r' hr'
      cases hlast.symm.trans hr'
      rfl
  | stop | updateConfig _ | poll | refreshed | told _ | readConfig | throws | measured _ _ =>
    exact h.quiet (step_quiet hstep rfl)

theorem inv_of_run {ls : List Label} {m : PodMonitor} (h : run step {} ls = some m) :
    Inv (ls.foldl settled true) m := by
  refine run_induction (P := fun ls m => Inv (ls.foldl settled true) m) ?_ ?_ h
  · exact ⟨fun _ hw => (by cases hw), fun _ => ⟨by decide, fun _ hr => (by cases hr)⟩,
      fun hb => (by cases hb)⟩
  · intro ls m l m' _ hm hstep
    rw [List.foldl_append]
    exact hm.step hstep

/-- **The status, as it is read.** -/
theorem consistent_iff {ls : List Label} {m : PodMonitor} (h : run step {} ls = some m) :
    Consistent m ↔ Settled ls := by
  have hinv := inv_of_run h
  constructor
  · intro hm
    by_contra hno
    obtain ⟨r, hr, hstamp⟩ := hinv.pending (Bool.eq_false_iff.2 hno)
    rw [hm.onlineUpdateMs r hr] at hstamp
    cases hstamp
  · exact fun hls => hinv.consistent hls

/-- A poll that is through, and a read before the next one. -/
theorem consistent_iff_poll : ∃ m, run step {} [.start {}, .poll, .refreshed,
      .told (some { state := .connected }), .readConfig, .update, .write 7 false] = some m ∧
    (Consistent m ↔ Settled [.start {}, .poll, .refreshed, .told (some { state := .connected }),
      .readConfig, .update, .write 7 false]) :=
  ⟨_, rfl, consistent_iff rfl⟩

/-- A pod that is online for the window and not yet for the rest: a read between the sections, and
one after a poll that threw. -/
theorem not_consistent :
    (¬ ∀ ls m, run step {} ls = some m → Consistent m) ∧
      ¬ ∀ ls m, run step {} ls = some m → m.loc = .idle → Consistent m := by
  refine ⟨fun h => ?_, fun h => ?_⟩
  · have hm := h [.start { onlineThreshold := 1 }, .poll, .refreshed,
      .told (some { state := .connected }), .readConfig, .update] _ rfl
    exact absurd (hm.state.2 rfl) (by decide)
  · have hm := h [.start { onlineThreshold := 1, onlineWindowSize := 1 }, .poll, .refreshed,
      .told (some { state := .connected }), .readConfig, .update, .write 7 false,
      .poll, .throws, .readConfig, .update] _ rfl rfl
    exact absurd (hm.state.1 rfl) (by decide)

end PodMonitor

end PodModule
