import Mathlib.Data.List.Induction
import Mathlib.Order.Basic

/-!
# Debounced flags

A flag follows a stream of observations with hysteresis: it goes up after `c` successes in a row,
and down after `d` failures in a row. What it should say is a matter of the history alone (`Up`):
the last run of at least `c` successes has ended later than the last one of at least `d` failures. A
filter that counts gets there from two counters and the flag itself (`Filter.Knows.observe`), where
the flag is down at first (`follows_iff_of_down`).
-/

namespace Debounce

/-- The last `n` of the first `k` observations are all the same. -/
def RunEnds (b : Bool) (n : Nat) (obs : List Bool) (k : Nat) : Prop :=
  k ≤ obs.length ∧ List.replicate n b <:+ obs.take k

/-- What the flag should say. -/
def Up (c d : Nat) (obs : List Bool) : Prop :=
  ∃ k, RunEnds true c obs k ∧ ∀ j, RunEnds false d obs j → j < k

/-- How many of the last observations are the same. -/
def trailing (b : Bool) (obs : List Bool) : Nat := (obs.reverse.takeWhile (· = b)).length

/-- A filter with counters: whether it is up, and the observations of one kind that it has seen in a
row. -/
structure Filter where
  up : Bool
  successes : Nat := 0
  failures : Nat := 0
  deriving DecidableEq

/-- It goes up behind `c` successes in a row and down behind `d` failures. -/
def Filter.observe (c d : Nat) (f : Filter) : Bool → Filter
  | true => { up := f.up ∨ c ≤ f.successes + 1, successes := f.successes + 1, failures := 0 }
  | false => { up := f.up ∧ ¬ d ≤ f.failures + 1, successes := 0, failures := f.failures + 1 }

/-! ## Runs, as the history grows -/

/-- Nothing observed, no run. -/
@[simp] theorem trailing_nil (b : Bool) : trailing b [] = 0 := rfl

/-- A run grows with its own kind and ends with the other. -/
theorem trailing_concat (b ok : Bool) (obs : List Bool) :
    trailing b (obs ++ [ok]) = if ok = b then trailing b obs + 1 else 0 := by
  unfold trailing
  rw [List.reverse_append, List.reverse_singleton, List.singleton_append, List.takeWhile_cons]
  by_cases h : ok = b <;> simp [h]

/-- The length of the last run. -/
theorem replicate_suffix_iff {b : Bool} {n : Nat} {obs : List Bool} :
    List.replicate n b <:+ obs ↔ n ≤ trailing b obs := by
  induction obs using List.reverseRecOn generalizing n with
  | nil => simp [List.suffix_nil]
  | append_singleton obs ok ih =>
    rw [trailing_concat]
    cases n with
    | zero => simp
    | succ n =>
      rw [List.replicate_succ', List.suffix_concat_iff]
      split
      · next h => simp [ih, h]
      · next h => simp [Ne.symm h]

/-- A run that ends where the history does is told by the counter. -/
theorem runEnds_length {b : Bool} {n : Nat} {obs : List Bool} :
    RunEnds b n obs obs.length ↔ n ≤ trailing b obs := by
  rw [RunEnds, List.take_length, replicate_suffix_iff]
  simp

/-- Where the runs of a length end, one observation at a time. -/
theorem runEnds_concat {b ok : Bool} {n k : Nat} {obs : List Bool} :
    RunEnds b n (obs ++ [ok]) k ↔
      RunEnds b n obs k ∨ k = obs.length + 1 ∧ n ≤ trailing b (obs ++ [ok]) := by
  have hlength : (obs ++ [ok]).length = obs.length + 1 := by simp
  rcases Nat.lt_or_ge obs.length k with hk | hk
  · have hnot : ¬ RunEnds b n obs k := fun h => by
      have := h.1
      omega
    constructor
    · intro h
      have hkeq : k = (obs ++ [ok]).length := by
        have := h.1
        omega
      rw [hkeq, runEnds_length] at h
      exact .inr ⟨by omega, h⟩
    · rintro (h | ⟨rfl, h⟩)
      · exact absurd h hnot
      · rw [← hlength]
        exact runEnds_length.2 h
  · rw [RunEnds, RunEnds, hlength, List.take_append_of_le_length hk]
    constructor
    · rintro ⟨-, h⟩
      exact .inl ⟨hk, h⟩
    · rintro (h | ⟨rfl, -⟩)
      · exact ⟨by omega, h.2⟩
      · omega

/-- A run ends within the observations. -/
theorem RunEnds.le {b : Bool} {n k : Nat} {obs : List Bool} (h : RunEnds b n obs k) :
    k ≤ obs.length := h.1

/-- A run of something ends with it. -/
theorem not_le_trailing {b ok : Bool} {n : Nat} {obs : List Bool} (hn : 1 ≤ n) (h : ok ≠ b) :
    ¬ n ≤ trailing b (obs ++ [ok]) := by
  rw [trailing_concat, if_neg h]
  omega

/-- Where an observation ends no run, the runs are those before. -/
theorem runEnds_concat_of_not {b ok : Bool} {n : Nat} {obs : List Bool}
    (h : ¬ n ≤ trailing b (obs ++ [ok])) (k : Nat) :
    RunEnds b n (obs ++ [ok]) k ↔ RunEnds b n obs k := by
  rw [runEnds_concat]
  exact or_iff_left fun hk => h hk.2

/-! ## The filter -/

section
variable {c d : Nat}

/-- What a flag should say that has been this before the history. -/
def Follows (c d : Nat) (before : Bool) (obs : List Bool) : Prop :=
  Up c d obs ∨ before = true ∧ ∀ j, ¬ RunEnds false d obs j

/-- An observation that completes no run changes nothing. -/
theorem follows_congr {before : Bool} {obs : List Bool} {ok : Bool}
    (ht : ¬ c ≤ trailing true (obs ++ [ok])) (hf : ¬ d ≤ trailing false (obs ++ [ok])) :
    Follows c d before (obs ++ [ok]) ↔ Follows c d before obs := by
  simp only [Follows, Up, runEnds_concat_of_not ht, runEnds_concat_of_not hf]

/-- A run of successes that is long enough sends the flag up. -/
theorem up_concat (hd : 1 ≤ d) {obs : List Bool} (h : c ≤ trailing true (obs ++ [true])) :
    Up c d (obs ++ [true]) := by
  refine ⟨obs.length + 1, runEnds_concat.2 (.inr ⟨rfl, h⟩), fun j hj => ?_⟩
  rw [runEnds_concat_of_not (not_le_trailing hd (by decide))] at hj
  exact Nat.lt_succ_of_le hj.le

/-- One of failures sends it down. -/
theorem not_follows_concat (hc : 1 ≤ c) {before : Bool} {obs : List Bool}
    (h : d ≤ trailing false (obs ++ [false])) : ¬ Follows c d before (obs ++ [false]) := by
  have hend : RunEnds false d (obs ++ [false]) (obs.length + 1) := runEnds_concat.2 (.inr ⟨rfl, h⟩)
  rintro (⟨k, hk, hlast⟩ | ⟨-, hnone⟩)
  · have hlt : obs.length + 1 < k := hlast _ hend
    rw [runEnds_concat_of_not (not_le_trailing hc (by decide))] at hk
    have := hk.le
    omega
  · exact hnone _ hend

/-- What the filter knows of the history. -/
structure Filter.Knows (c d : Nat) (before : Bool) (obs : List Bool) (f : Filter) : Prop where
  up : f.up = true ↔ Follows c d before obs
  successes : f.successes = trailing true obs
  failures : f.failures = trailing false obs

/-- At the start the counters know of nothing. -/
theorem Filter.knows_nil (hc : 1 ≤ c) (hd : 1 ≤ d) (before : Bool) :
    Filter.Knows c d before [] { up := before } where
  up := by
    have hnone (b : Bool) {n : Nat} (hn : 1 ≤ n) (k : Nat) : ¬ RunEnds b n [] k := by
      rintro ⟨-, h⟩
      rw [List.take_nil, replicate_suffix_iff, trailing_nil] at h
      omega
    simp [Follows, Up, hnone true hc, hnone false hd]
  successes := rfl
  failures := rfl

/-- Each observation keeps what the counters know. -/
theorem Filter.Knows.observe (hc : 1 ≤ c) (hd : 1 ≤ d) {before : Bool} {obs : List Bool}
    {f : Filter} (h : f.Knows c d before obs) (ok : Bool) :
    (f.observe c d ok).Knows c d before (obs ++ [ok]) where
  up := by
    cases ok with
    | true =>
      have hcount : f.successes + 1 = trailing true (obs ++ [true]) := by
        rw [trailing_concat, if_pos rfl, h.successes]
      have hf : ¬ d ≤ trailing false (obs ++ [true]) := not_le_trailing hd (by decide)
      by_cases ht : c ≤ trailing true (obs ++ [true])
      · simpa [Filter.observe, hcount, ht] using .inl (up_concat hd ht)
      · simpa [Filter.observe, hcount, ht, follows_congr ht hf] using h.up
    | false =>
      have hcount : f.failures + 1 = trailing false (obs ++ [false]) := by
        rw [trailing_concat, if_pos rfl, h.failures]
      have ht : ¬ c ≤ trailing true (obs ++ [false]) := not_le_trailing hc (by decide)
      by_cases hf : d ≤ trailing false (obs ++ [false])
      · simpa [Filter.observe, hcount, hf] using not_follows_concat hc hf
      · simpa [Filter.observe, hcount, hf, follows_congr ht hf] using h.up
  successes := by
    rw [trailing_concat, ← h.successes]
    cases ok <;> rfl
  failures := by
    rw [trailing_concat, ← h.failures]
    cases ok <;> rfl

/-- **The filter is right where the flag is down at first.** -/
theorem follows_iff_of_down {obs : List Bool} : Follows c d false obs ↔ Up c d obs := by
  simp [Follows]

/-- A run stays one as the history grows. -/
theorem RunEnds.append {b ok : Bool} {n k : Nat} {obs : List Bool} (h : RunEnds b n obs k) :
    RunEnds b n (obs ++ [ok]) k :=
  runEnds_concat.2 (.inl h)

end

end Debounce
