import Mathlib.Data.List.Induction

/-!
# Runs of a step function

A system is a partial step function `step : σ → κ → Option σ`: `none` where the label is not
enabled. A run is a list of labels, and its state is computed by `run`. Every fact about runs is one
of `run_induction`, which grows the run at its end, where the next step happens.
-/

namespace Transition

universe u v

section
variable {σ : Type u} {κ : Type v} {step : σ → κ → Option σ}

/-- The state after the labels, or `none` where one of them is not enabled. -/
def run (step : σ → κ → Option σ) (s : σ) (ls : List κ) : Option σ := ls.foldlM step s

@[simp] theorem run_nil (s : σ) : run step s [] = some s := rfl

theorem run_cons (s : σ) (l : κ) (ls : List κ) :
    run step s (l :: ls) = (step s l).bind fun t => run step t ls := rfl

theorem run_append (s : σ) (ls ls' : List κ) :
    run step s (ls ++ ls') = (run step s ls).bind fun t => run step t ls' := by
  induction ls generalizing s with
  | nil => rfl
  | cons l ls ih =>
    rw [List.cons_append, run_cons, run_cons, Option.bind_assoc]
    exact congrArg _ (funext fun t => ih t)

/-- A run that ends with `l` is a run and a step. -/
theorem run_concat {s t : σ} {ls : List κ} {l : κ} :
    run step s (ls ++ [l]) = some t ↔ ∃ m, run step s ls = some m ∧ step m l = some t := by
  rw [run_append, Option.bind_eq_some_iff]
  simp [run_cons]

/-- **Induction over runs.** What holds of the empty run, and is kept when a run goes on by a step,
holds of every run. -/
theorem run_induction {s₀ : σ} {P : List κ → σ → Prop} (nil : P [] s₀)
    (snoc : ∀ ls s l t, run step s₀ ls = some s → P ls s → step s l = some t → P (ls ++ [l]) t)
    {ls : List κ} {s : σ} (h : run step s₀ ls = some s) : P ls s := by
  induction ls using List.reverseRecOn generalizing s with
  | nil => cases h; exact nil
  | append_singleton ls l ih =>
    obtain ⟨m, hm, hl⟩ := run_concat.1 h
    exact snoc ls m l s hm (ih hm) hl

/-- **Invariants.** What a step keeps, a run keeps. -/
theorem run_invariant {P : σ → Prop} (keep : ∀ s l t, P s → step s l = some t → P t) {s₀ s : σ}
    (h₀ : P s₀) {ls : List κ} (h : run step s₀ ls = some s) : P s :=
  run_induction (P := fun _ s => P s) h₀ (fun _ s l t _ hs hl => keep s l t hs hl) h

/-- Every step of a run from the state meets the condition, in the state where it is taken. -/
def Along (step : σ → κ → Option σ) (C : σ → κ → Prop) : σ → List κ → Prop
  | _, [] => True
  | s, l :: ls => C s l ∧ ∀ t, step s l = some t → Along step C t ls

theorem along_cons {C : σ → κ → Prop} {s t : σ} {l : κ} {ls : List κ} (h : step s l = some t) :
    Along step C s (l :: ls) ↔ C s l ∧ Along step C t ls := by
  simp [Along, h]

theorem along_cons_none {C : σ → κ → Prop} {s : σ} {l : κ} {ls : List κ} (h : step s l = none) :
    Along step C s (l :: ls) ↔ C s l := by
  simp [Along, h]

/-- The condition along a run, step by step. -/
theorem along_iff {C : σ → κ → Prop} {s : σ} {ls : List κ} :
    Along step C s ls ↔
      ∀ pre l post, ls = pre ++ l :: post → ∀ m, run step s pre = some m → C m l := by
  induction ls generalizing s with
  | nil => simp [Along]
  | cons l ls ih =>
    constructor
    · rintro ⟨hl, hrest⟩ pre k post hls m hm
      cases pre with
      | nil =>
        obtain ⟨rfl, -⟩ := List.cons.inj hls
        obtain rfl := Option.some.inj hm
        exact hl
      | cons k' pre =>
        obtain ⟨rfl, hrest'⟩ := List.cons.inj hls
        rw [run_cons] at hm
        obtain ⟨t, ht, hm⟩ := Option.bind_eq_some_iff.1 hm
        exact ih.1 (hrest t ht) pre k post hrest' m hm
    · intro h
      refine ⟨h [] l ls rfl s rfl, fun t ht => ih.2 fun pre k post hls m hm => ?_⟩
      refine h (l :: pre) k post (by rw [hls, List.cons_append]) m ?_
      rw [run_cons, ht]
      exact hm

/-- A condition on the labels alone. -/
theorem along_of_forall {C : κ → Prop} {ls : List κ} (h : ∀ l ∈ ls, C l) (s : σ) :
    Along step (fun _ l => C l) s ls := by
  induction ls generalizing s with
  | nil => trivial
  | cons l ls ih =>
    obtain ⟨hl, hls⟩ := List.forall_mem_cons.1 h
    exact ⟨hl, fun t _ => ih hls t⟩

instance decidableAlong {C : σ → κ → Prop} [∀ s l, Decidable (C s l)] :
    ∀ s ls, Decidable (Along step C s ls)
  | _, [] => isTrue trivial
  | s, l :: ls =>
    match h : step s l with
    | none => decidable_of_iff (C s l) (along_cons_none h).symm
    | some t =>
      have : Decidable (Along step C t ls) := decidableAlong t ls
      decidable_of_iff (C s l ∧ Along step C t ls) (along_cons h).symm

/-- **Invariants under a condition.** What a step that meets the condition keeps, a run keeps whose
steps all meet it. -/
theorem run_along {C : σ → κ → Prop} {P : σ → Prop}
    (keep : ∀ s l t, C s l → P s → step s l = some t → P t) {s₀ s : σ} (h₀ : P s₀) {ls : List κ}
    (hc : Along step C s₀ ls) (h : run step s₀ ls = some s) : P s := by
  induction ls generalizing s₀ with
  | nil =>
    cases h
    exact h₀
  | cons l ls ih =>
    rw [run_cons] at h
    obtain ⟨t, hl, ht⟩ := Option.bind_eq_some_iff.1 h
    exact ih (keep s₀ l t hc.1 h₀ hl) (hc.2 t hl) ht

/-- A condition along a run is one along what it begins with. -/
theorem along_append_left {C : σ → κ → Prop} {s : σ} {pre post : List κ}
    (h : Along step C s (pre ++ post)) : Along step C s pre := by
  induction pre generalizing s with
  | nil => trivial
  | cons l pre ih => exact ⟨h.1, fun t ht => ih (h.2 t ht)⟩

/-- One condition along a run by another: where the steps that meet the one keep an invariant, and
meet the other in a state that has it. -/
theorem along_imp {C D : σ → κ → Prop} {P : σ → Prop}
    (keep : ∀ s l t, C s l → P s → step s l = some t → P t) (imp : ∀ s l, C s l → P s → D s l)
    {s : σ} (h₀ : P s) {ls : List κ} (h : Along step C s ls) : Along step D s ls := by
  induction ls generalizing s with
  | nil => trivial
  | cons l ls ih =>
    exact ⟨imp s l h.1 h₀, fun t ht => ih (keep s l t h.1 h₀ ht) (h.2 t ht)⟩

/-- Each step of a run is enabled where it is taken. -/
theorem step_of_run {s t : σ} {ls : List κ} (h : run step s ls = some t) {pre post : List κ} {l : κ}
    (hls : ls = pre ++ l :: post) {m : σ} (hm : run step s pre = some m) :
    ∃ u, step m l = some u ∧ run step u post = some t := by
  rw [hls, run_append, hm, Option.bind_some, run_cons] at h
  exact Option.bind_eq_some_iff.1 h

/-- **An exact condition.** Where a step keeps the property if and only if it meets the condition,
the property holds all along a run if and only if its steps all meet it. A step that is not enabled
is to meet it. -/
theorem forall_prefix_iff_along {C : σ → κ → Prop} {D : κ → Prop} {I P : σ → Prop}
    (stuck : ∀ s l, step s l = none → C s l)
    (keep : ∀ s l t, D l → I s → step s l = some t → I t)
    (exact : ∀ s l t, D l → I s → P s → step s l = some t → (P t ↔ C s l)) {s : σ} (hI : I s)
    (hP : P s) {ls : List κ} (hD : ∀ l ∈ ls, D l) :
    (∀ pre post t, ls = pre ++ post → run step s pre = some t → P t) ↔ Along step C s ls := by
  induction ls generalizing s with
  | nil =>
    refine ⟨fun _ => trivial, fun _ pre post t hls ht => ?_⟩
    rw [(List.append_eq_nil_iff.1 hls.symm).1] at ht
    cases ht
    exact hP
  | cons l ls ih =>
    obtain ⟨hl, hls⟩ := List.forall_mem_cons.1 hD
    cases ht : step s l with
    | none =>
      rw [along_cons_none ht]
      refine ⟨fun _ => stuck s l ht, fun _ pre post u heq hu => ?_⟩
      cases pre with
      | nil =>
        cases hu
        exact hP
      | cons k pre =>
        obtain ⟨rfl, -⟩ := List.cons.inj heq
        rw [run_cons, ht] at hu
        cases hu
    | some t =>
      have hrun : ∀ pre, run step s (l :: pre) = run step t pre := fun pre => by
        rw [run_cons, ht]
        rfl
      have hstep := exact s l t hl hI hP ht
      rw [along_cons ht]
      constructor
      · intro h
        have hPt : P t := h [l] ls t rfl (by rw [hrun]; rfl)
        refine ⟨hstep.1 hPt, (ih (keep s l t hl hI ht) hPt hls).1 fun pre post u heq hu => ?_⟩
        exact h (l :: pre) post u (by rw [heq]; rfl) (by rw [hrun, hu])
      · rintro ⟨hC, halong⟩ pre post u heq hu
        have hPt := hstep.2 hC
        cases pre with
        | nil =>
          cases hu
          exact hP
        | cons k pre =>
          obtain ⟨rfl, hrest⟩ := List.cons.inj heq
          rw [hrun] at hu
          exact (ih (keep s l t hl hI ht) hPt hls).2 halong pre post u hrest hu

universe w

/-- What is put out along a run of a system of which each step puts something out. -/
def outputs {ω : Type w} (step : σ → κ → Option σ) (out : σ → κ → σ → List ω) :
    σ → List κ → List ω
  | _, [] => []
  | s, l :: ls =>
    match step s l with
    | some t => out s l t ++ outputs step out t ls
    | none => []

/-- **A log is what is put out**, where each step appends to it what it puts out. -/
theorem run_outputs {ω : Type w} {out : σ → κ → σ → List ω} (log : σ → List ω)
    (hstep : ∀ s l t, step s l = some t → log t = log s ++ out s l t) {s t : σ} {ls : List κ}
    (h : run step s ls = some t) : log t = log s ++ outputs step out s ls := by
  induction ls generalizing s with
  | nil =>
    cases h
    rw [outputs, List.append_nil]
  | cons l ls ih =>
    rw [run_cons] at h
    obtain ⟨m, hm, hrun⟩ := Option.bind_eq_some_iff.1 h
    rw [outputs, hm]
    dsimp only
    rw [ih hrun, hstep s l m hm, List.append_assoc]

/-! ## What a thread does by itself -/

/-- What the owner of a thread knows of it. -/
inductive Thread (π : Type w) where
  | none
  | running (phase : π)
  | exited
  deriving DecidableEq

variable {β : Type w} {thread : β → κ} {goal : σ → Prop}

/-- After so many steps of one thread, whatever their outcomes, the goal is reached. -/
def EndsIn (step : σ → κ → Option σ) (thread : β → κ) (goal : σ → Prop) : Nat → σ → Prop
  | 0, s => goal s
  | n + 1, s => ∀ b, ∃ t, step s (thread b) = some t ∧ EndsIn step thread goal n t

/-- A thread whose next step is defined ends one step later than it does from there. -/
theorem EndsIn.cons {s : σ} {n : Nat} {f : β → σ} (hs : ∀ b, step s (thread b) = some (f b))
    (h : ∀ b, EndsIn step thread goal n (f b)) : EndsIn step thread goal (n + 1) s :=
  fun b => ⟨f b, hs b, h b⟩

end

end Transition
