import Mathlib.Data.List.Basic
import Mathlib.Data.List.DropRight
import Mathlib.Data.List.Forall2
import Mathlib.Order.Lattice

/-!
# Sliding windows

A record of events, each with its time, is asked how many of them lie in a window that begins at
some time. Dropping those before the beginning of one window (`recent`) changes no answer about
a later one, so a pruned record and the whole history stay equivalent while time goes on
(`Agree.mono`, `Agree.record`).

A window may also hold the last so many events (`slide`). It is an end of the whole history, and as
long as its size stays, it is the last events of that size (`slide_rtake`).
-/

namespace Window

universe u v

variable {α : Type u} {τ : Type v} [LinearOrder τ] {time : α → τ} {a b : τ} {es hs : List α}

/-- The events from the beginning of the window on. -/
def recent (time : α → τ) (start : τ) (es : List α) : List α := es.filter fun e => start ≤ time e

/-- Of no events none is recent. -/
@[simp] theorem recent_nil (start : τ) : recent time start [] = [] := rfl

/-- The recent ones of a history in two parts. -/
theorem recent_append (start : τ) (es fs : List α) :
    recent time start (es ++ fs) = recent time start es ++ recent time start fs :=
  List.filter_append ..

/-- Pruning for an earlier window does not show in a later one. -/
theorem recent_recent (h : a ≤ b) (es : List α) :
    recent time b (recent time a es) = recent time b es := by
  rw [recent, recent, List.filter_filter]
  refine List.filter_congr fun e _ => ?_
  by_cases hb : b ≤ time e
  · simp [hb, le_trans h hb]
  · simp [hb]

/-- No more are recent than there are. -/
theorem length_recent_le (start : τ) (es : List α) : (recent time start es).length ≤ es.length :=
  List.length_filter_le ..

/-- Events leave a window that moves on. -/
theorem length_recent_anti (h : a ≤ b) (es : List α) :
    (recent time b es).length ≤ (recent time a es).length := by
  rw [← recent_recent h es]
  exact length_recent_le b _

/-- One event more makes at most one recent one more. -/
theorem length_recent_concat (start : τ) (es : List α) (e : α) :
    (recent time start (es ++ [e])).length ≤ (recent time start es).length + 1 := by
  rw [recent_append, List.length_append]
  exact Nat.add_le_add_left (length_recent_le start [e]) _

/-- The record says of the window what the history says. -/
def Agree (time : α → τ) (start : τ) (es hs : List α) : Prop :=
  recent time start es = recent time start hs

/-- Two histories that agree from a time on agree from every later one. -/
theorem Agree.mono (h : Agree time a es hs) (hab : a ≤ b) : Agree time b es hs := by
  have hcongr := congrArg (recent time b) h
  rwa [recent_recent hab, recent_recent hab] at hcongr

/-- An event is recorded, and the record pruned. -/
theorem Agree.record (h : Agree time a es hs) (e : α) :
    Agree time a (recent time a (es ++ [e])) (hs ++ [e]) := by
  rw [Agree, recent_recent le_rfl, recent_append, recent_append, h]

/-! ## The last so many -/

section
variable {n : Nat} {x : α}

/-- The window once another event has come. -/
def slide (n : Nat) (hs : List α) (x : α) : List α := (hs ++ [x]).rtake n

/-- How many a history keeps when it is cut. -/
theorem length_rtake (n : Nat) (hs : List α) : (hs.rtake n).length = min hs.length n := by
  rw [List.rtake, List.length_drop]
  omega

/-- A short history is not cut. -/
theorem rtake_of_length_le (h : hs.length ≤ n) : hs.rtake n = hs := by
  rw [List.rtake, Nat.sub_eq_zero_of_le h, List.drop_zero]

/-- A window that is longer than the history is the history. -/
theorem rtake_min (n : Nat) (hs : List α) : hs.rtake (min hs.length n) = hs.rtake n := by
  rw [List.rtake, List.rtake]
  congr 1
  omega

/-- How many are kept behind one more. -/
theorem length_slide (n : Nat) (hs : List α) (x : α) :
    (slide n hs x).length = min (hs.length + 1) n := by
  rw [slide, length_rtake, List.length_append, List.length_singleton]

/-- An end of the history stays one. -/
theorem slide_suffix (h : es <:+ hs) (n : Nat) (x : α) : slide n es x <:+ hs ++ [x] := by
  obtain ⟨pre, rfl⟩ := h
  refine (List.drop_suffix _ _).trans ⟨pre, ?_⟩
  rw [List.append_assoc]

/-- Cutting further is cutting once. -/
theorem rtake_rtake {k : Nat} (h : k ≤ n) (hs : List α) : (hs.rtake n).rtake k = hs.rtake k := by
  rw [List.rtake_eq_reverse_take_reverse, List.rtake_eq_reverse_take_reverse, List.reverse_reverse,
    List.take_take, Nat.min_eq_left h, List.rtake_eq_reverse_take_reverse]

/-- A window of one size is the last events of that size. -/
theorem slide_rtake (n : Nat) (hs : List α) (x : α) :
    slide n (hs.rtake n) x = (hs ++ [x]).rtake n := by
  cases n with
  | zero => rw [slide, List.rtake_zero, List.rtake_zero]
  | succ n =>
    rw [slide, List.rtake_concat_succ, List.rtake_concat_succ, rtake_rtake (Nat.le_succ n)]

end

/-- More successes in the whole are more successes in the window. -/
theorem count_rtake_mono {as bs : List Bool} (h : List.Forall₂ (· ≤ ·) as bs) (n : Nat) :
    (as.rtake n).count true ≤ (bs.rtake n).count true := by
  have hcount : ∀ {as bs : List Bool}, List.Forall₂ (· ≤ ·) as bs →
      as.count true ≤ bs.count true := by
    intro as bs h
    induction h with
    | nil => exact Nat.le_refl _
    | @cons a b as bs hab _ ih =>
      cases a with
      | false => exact Nat.le_trans ih (List.count_le_count_cons)
      | true =>
        obtain rfl : b = true := hab rfl
        rw [List.count_cons_self, List.count_cons_self]
        exact Nat.succ_le_succ ih
  rw [List.rtake, List.rtake, h.length_eq]
  exact hcount (List.forall₂_drop _ h)

end Window
