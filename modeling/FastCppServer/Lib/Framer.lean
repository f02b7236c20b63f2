import Mathlib.Data.List.Basic

/-!
# Framers over a growing buffer

A framer cuts a stream of symbols into frames. It is a decision on the front of a buffer
(`Verdict`): wait for more symbols, skip some of them, emit a frame, or give the whole buffer up.
The one law it owes is stability: a decision other than `wait` does not change when symbols are
appended (`Framer.stable`). From it follow the independence of how the stream is cut into chunks
(`ScanChunks.eq_of_scan`) and what is shared by every cut when the framer can fail
(`ScanChunks.prefix`).

`Reaches` is the same scan seen from the stream: the offsets at which the framer takes a decision.
An offset that is not reached is passed over by one decision (`Reaches.or_passed`).
-/

namespace Framing

universe u v w

/-- The decision of a framer at the front of its buffer. -/
inductive Verdict (α : Type u) (ε : Type v) where
  /-- Nothing can be said before more symbols arrive. -/
  | wait
  /-- The first `n` symbols belong to no frame. -/
  | skip (n : Nat)
  /-- The first `n` symbols are the frame `a`. -/
  | emit (a : α) (n : Nat)
  /-- The buffer is discarded as a whole. -/
  | fail (e : ε)

/-- A framer: a decision that consumes what it has seen only, and that later symbols leave as it
is. -/
structure Framer (β : Type w) (α : Type u) (ε : Type v) where
  verdict : List β → Verdict α ε
  skip_bounds : ∀ {b n}, verdict b = .skip n → 0 < n ∧ n ≤ b.length
  emit_bounds : ∀ {b a n}, verdict b = .emit a n → 0 < n ∧ n ≤ b.length
  stable : ∀ {b} (x), verdict b ≠ .wait → verdict (b ++ x) = verdict b

section
variable {β : Type w} {α : Type u} {ε : Type v} {F : Framer β α ε}

/-- The framer waits on a part of what it takes as one frame. -/
theorem Framer.wait_of_emit_whole (F : Framer β α ε) {b x : List β} (hx : x ≠ []) {a : α}
    (h : F.verdict (b ++ x) = .emit a (b ++ x).length) : F.verdict b = .wait := by
  by_contra hv
  rw [F.stable x hv] at h
  have hle := (F.emit_bounds h).2
  have hpos := List.length_pos_iff.2 hx
  rw [List.length_append] at hle
  omega

/-! ## Scanning a buffer -/

/-- `Scan F b as r e`: deciding on `b` again and again gives the frames `as` and leaves `r`; `e` is
the error that ended the scan, if one did. -/
inductive Scan (F : Framer β α ε) : List β → List α → List β → Option ε → Prop
  | wait {b : List β} : F.verdict b = .wait → Scan F b [] b none
  | skip {b : List β} {n : Nat} {as r e} :
      F.verdict b = .skip n → Scan F (b.drop n) as r e → Scan F b as r e
  | emit {b : List β} {a : α} {n : Nat} {as r e} :
      F.verdict b = .emit a n → Scan F (b.drop n) as r e → Scan F b (a :: as) r e
  | fail {b : List β} {e : ε} : F.verdict b = .fail e → Scan F b [] [] (some e)

/-- A scan has one outcome. -/
theorem Scan.det {b : List β} {as as' : List α} {r r' : List β} {e e' : Option ε}
    (h : Scan F b as r e) (h' : Scan F b as' r' e') : as = as' ∧ r = r' ∧ e = e' := by
  induction h generalizing as' with
  | wait hv => cases h' <;> simp_all
  | fail hv => cases h' <;> simp_all
  | skip hv _ ih =>
    cases h' with
    | skip hv' hs => rw [hv] at hv'; cases hv'; exact ih hs
    | wait hv' | emit hv' _ | fail hv' => rw [hv] at hv'; cases hv'
  | emit hv _ ih =>
    cases h' with
    | emit hv' hs =>
      rw [hv] at hv'; cases hv'
      obtain ⟨rfl, rfl, rfl⟩ := ih hs
      exact ⟨rfl, rfl, rfl⟩
    | wait hv' | skip hv' _ | fail hv' => rw [hv] at hv'; cases hv'

/-- Every buffer has a scan: each decision that goes on consumes a symbol. -/
theorem Scan.total (F : Framer β α ε) (b : List β) : ∃ as r e, Scan F b as r e := by
  induction hn : b.length using Nat.strongRecOn generalizing b with
  | ind n ih =>
    cases hv : F.verdict b with
    | wait => exact ⟨_, _, _, .wait hv⟩
    | fail e => exact ⟨_, _, _, .fail hv⟩
    | skip m =>
      have hb := F.skip_bounds hv
      obtain ⟨as, r, e, h⟩ := ih _ (by rw [List.length_drop]; omega) (b.drop m) rfl
      exact ⟨_, _, _, .skip hv h⟩
    | emit a m =>
      have hb := F.emit_bounds hv
      obtain ⟨as, r, e, h⟩ := ih _ (by rw [List.length_drop]; omega) (b.drop m) rfl
      exact ⟨_, _, _, .emit hv h⟩

/-- What a scan without error leaves is a buffer the framer waits on. -/
theorem Scan.rest_wait {b : List β} {as : List α} {r : List β} {e : Option ε}
    (h : Scan F b as r e) (he : e = none) : F.verdict r = .wait := by
  induction h with
  | wait hv => exact hv
  | skip _ _ ih | emit _ _ ih => exact ih he
  | fail _ => cases he

/-- An error discards the buffer. -/
theorem Scan.rest_eq_nil {b : List β} {as : List α} {r : List β} {e : Option ε}
    (h : Scan F b as r e) (he : e ≠ none) : r = [] := by
  induction h with
  | wait _ => exact absurd rfl he
  | skip _ _ ih | emit _ _ ih => exact ih he
  | fail _ => rfl

/-- **Resuming a scan.** A scan of `b` that waits, continued on what it left with `x` behind it, is
the scan of `b ++ x`: no decision already taken changes. -/
theorem Scan.append {b : List β} {as : List α} {r : List β} {e : Option ε} (h : Scan F b as r e)
    (he : e = none) {x : List β} {as' : List α} {r' : List β} {e' : Option ε}
    (h' : Scan F (r ++ x) as' r' e') : Scan F (b ++ x) (as ++ as') r' e' := by
  induction h with
  | wait hv => exact h'
  | fail hv => cases he
  | @skip b n _ _ _ hv _ ih =>
    have hb := F.skip_bounds hv
    refine .skip (n := n) (by rw [F.stable x (by rw [hv]; nofun), hv]) ?_
    rw [List.drop_append_of_le_length hb.2]
    exact ih he h'
  | @emit b a n _ _ _ hv _ ih =>
    have hb := F.emit_bounds hv
    refine .emit (n := n) (by rw [F.stable x (by rw [hv]; nofun), hv]) ?_
    rw [List.drop_append_of_le_length hb.2]
    exact ih he h'

/-- A scan that fails fails on every longer buffer, after the same frames. -/
theorem Scan.append_fail {b : List β} {as : List α} {r : List β} {e : Option ε}
    (h : Scan F b as r e) (he : e ≠ none) (x : List β) : Scan F (b ++ x) as r e := by
  induction h with
  | wait hv => exact absurd rfl he
  | fail hv => exact .fail (by rw [F.stable x (by rw [hv]; nofun), hv])
  | @skip b n _ _ _ hv _ ih =>
    have hb := F.skip_bounds hv
    refine .skip (n := n) (by rw [F.stable x (by rw [hv]; nofun), hv]) ?_
    rw [List.drop_append_of_le_length hb.2]
    exact ih he
  | @emit b a n _ _ _ hv _ ih =>
    have hb := F.emit_bounds hv
    refine .emit (n := n) (by rw [F.stable x (by rw [hv]; nofun), hv]) ?_
    rw [List.drop_append_of_le_length hb.2]
    exact ih he

/-! ## Skipping to the next frame -/

/-- `Skips F b r`: the framer drops symbols from `b`, skip after skip, until `r` is left. -/
inductive Skips (F : Framer β α ε) : List β → List β → Prop
  | refl {b : List β} : Skips F b b
  | skip {b r : List β} {n : Nat} : F.verdict b = .skip n → Skips F (b.drop n) r → Skips F b r

/-- Skipping further. -/
theorem Skips.trans {b r r' : List β} (h : Skips F b r) (h' : Skips F r r') : Skips F b r' := by
  induction h with
  | refl => exact h'
  | skip hv _ ih => exact .skip hv (ih h')

/-- Skipping leaves no more than there was. -/
theorem Skips.length_le {b r : List β} (h : Skips F b r) : r.length ≤ b.length := by
  induction h with
  | refl => exact Nat.le_refl _
  | skip _ _ ih => rw [List.length_drop] at ih; omega

/-- Skips drop symbols in front only. -/
theorem Skips.suffix {b r : List β} (h : Skips F b r) : r <:+ b := by
  induction h with
  | refl => exact List.suffix_refl _
  | skip _ _ ih => exact ih.trans (List.drop_suffix _ _)

/-- A scan may start with the skips. -/
theorem Skips.scan {b r : List β} (h : Skips F b r) {as : List α} {r' : List β} {e : Option ε}
    (hs : Scan F r as r' e) : Scan F b as r' e := by
  induction h with
  | refl => exact hs
  | skip hv _ ih => exact .skip hv (ih hs)

/-! ## Scanning chunk by chunk -/

/-- `ScanChunks F b cs as r es`: with `b` in the buffer, each chunk of `cs` is appended and scanned
in turn; `es` are the errors on the way, each of which emptied the buffer. -/
inductive ScanChunks (F : Framer β α ε) :
    List β → List (List β) → List α → List β → List ε → Prop
  | nil {b : List β} : ScanChunks F b [] [] b []
  | cons {b c : List β} {cs : List (List β)} {as as' r r' e es} :
      Scan F (b ++ c) as r e → ScanChunks F r cs as' r' es →
      ScanChunks F b (c :: cs) (as ++ as') r' (e.toList ++ es)

/-- **Chunking independence.** When the whole stream scans without error, every way of cutting it
gives the same frames, the same rest and no error. -/
theorem ScanChunks.eq_of_scan {b : List β} {cs : List (List β)} {as : List α} {r : List β}
    {es : List ε} (h : ScanChunks F b cs as r es) (hb : F.verdict b = .wait)
    {as' : List α} {r' : List β} (h' : Scan F (b ++ cs.flatten) as' r' none) :
    as = as' ∧ r = r' ∧ es = [] := by
  induction h generalizing as' with
  | nil =>
    rw [List.flatten_nil, List.append_nil] at h'
    obtain ⟨rfl, rfl, -⟩ := Scan.det (.wait hb) h'
    exact ⟨rfl, rfl, rfl⟩
  | @cons b c cs as₁ as₂ r₁ r₂ e es hs _ ih =>
    rw [List.flatten_cons, ← List.append_assoc] at h'
    cases e with
    | some e =>
      have := Scan.det (hs.append_fail (by simp) cs.flatten) h'
      exact absurd this.2.2 (by simp)
    | none =>
      obtain ⟨as₃, r₃, e₃, h₃⟩ := Scan.total F (r₁ ++ cs.flatten)
      obtain ⟨rfl, rfl, rfl⟩ := Scan.det (hs.append rfl h₃) h'
      obtain ⟨rfl, rfl, rfl⟩ := ih (hs.rest_wait rfl) h₃
      exact ⟨rfl, rfl, rfl⟩

/-- **What every cut shares.** The frames of the whole stream up to its first error come first
however the stream is cut. -/
theorem ScanChunks.prefix {b : List β} {cs : List (List β)} {as : List α} {r : List β}
    {es : List ε} (h : ScanChunks F b cs as r es) (hb : F.verdict b = .wait)
    {as' : List α} {r' : List β} {e' : Option ε} (h' : Scan F (b ++ cs.flatten) as' r' e') :
    as' <+: as := by
  induction h generalizing as' r' e' with
  | nil =>
    rw [List.flatten_nil, List.append_nil] at h'
    obtain ⟨rfl, -, -⟩ := Scan.det (.wait hb) h'
    exact List.prefix_refl _
  | @cons b c cs as₁ as₂ r₁ r₂ e es hs _ ih =>
    rw [List.flatten_cons, ← List.append_assoc] at h'
    cases e with
    | some e =>
      obtain ⟨rfl, -, -⟩ := Scan.det (hs.append_fail (by simp) cs.flatten) h'
      exact List.prefix_append _ _
    | none =>
      obtain ⟨as₃, r₃, e₃, h₃⟩ := Scan.total F (r₁ ++ cs.flatten)
      obtain ⟨rfl, -, -⟩ := Scan.det (hs.append rfl h₃) h'
      exact (List.prefix_append_right_inj _).2 (ih (hs.rest_wait rfl) h₃)

/-- A frame of a scan is the decision on some buffer. -/
theorem Scan.exists_emit {b : List β} {as : List α} {r : List β} {e : Option ε}
    (h : Scan F b as r e) {a : α} (ha : a ∈ as) : ∃ b n, F.verdict b = .emit a n := by
  induction h with
  | wait _ | fail _ => cases ha
  | skip _ _ ih => exact ih ha
  | @emit b _ n _ _ _ hv _ ih =>
    rcases List.mem_cons.1 ha with rfl | ha
    · exact ⟨b, n, hv⟩
    · exact ih ha

/-- What a scan has put out was put out by a verdict. -/
theorem ScanChunks.exists_emit {b : List β} {cs : List (List β)} {as : List α} {r : List β}
    {es : List ε} (h : ScanChunks F b cs as r es) {a : α} (ha : a ∈ as) :
    ∃ b n, F.verdict b = .emit a n := by
  induction h with
  | nil => cases ha
  | cons hs _ ih => exact (List.mem_append.1 ha).elim hs.exists_emit ih

/-! ## The offsets a scan stands at -/

/-- The decision at offset `k` of the stream consumes `n` symbols. -/
def Consumes (F : Framer β α ε) (s : List β) (k n : Nat) : Prop :=
  F.verdict (s.drop k) = .skip n ∨ ∃ a, F.verdict (s.drop k) = .emit a n

/-- `Reaches F s k`: scanning the stream `s`, the framer takes a decision at offset `k`. -/
inductive Reaches (F : Framer β α ε) (s : List β) : Nat → Prop
  | start : Reaches F s 0
  | step {k n : Nat} : Reaches F s k → Consumes F s k n → Reaches F s (k + n)

/-- What is consumed is at least a byte, and is there. -/
theorem Consumes.bounds {s : List β} {k n : Nat} (h : Consumes F s k n) :
    0 < n ∧ k + n ≤ s.length := by
  rcases h with h | ⟨a, h⟩
  · have := F.skip_bounds h
    rw [List.length_drop] at this; omega
  · have := F.emit_bounds h
    rw [List.length_drop] at this; omega

/-- At one place one number of bytes is consumed. -/
theorem Consumes.det {s : List β} {k n m : Nat} (h : Consumes F s k n) (h' : Consumes F s k m) :
    n = m := by
  rcases h with h | ⟨a, h⟩ <;> rcases h' with h' | ⟨a', h'⟩ <;> rw [h] at h' <;> cases h' <;> rfl

/-- A framer that consumes does not wait. -/
theorem Consumes.ne_wait {s : List β} {k n : Nat} (h : Consumes F s k n) :
    F.verdict (s.drop k) ≠ .wait := by
  rcases h with h | ⟨a, h⟩ <;> rw [h] <;> nofun

/-- Of two reached offsets, the decision at the earlier one ends at or before the later one. -/
theorem Reaches.consumes_of_lt {s : List β} {j k : Nat} (hj : Reaches F s j) (hk : Reaches F s k)
    (hlt : j < k) : ∃ n, Consumes F s j n ∧ j + n ≤ k := by
  induction k using Nat.strongRecOn generalizing j with
  | ind k ih =>
    cases hk with
    | start => omega
    | @step i n hi hc =>
      have hb := hc.bounds
      rcases Nat.lt_trichotomy j i with h | rfl | h
      · obtain ⟨m, hm, hle⟩ := ih i (by omega) hj hi h
        exact ⟨m, hm, by omega⟩
      · exact ⟨n, hc, Nat.le_refl _⟩
      · -- `j` would lie inside the span consumed at `i`
        obtain ⟨m, hm, hle⟩ := ih j hlt hi hj h
        have := hm.det hc
        omega

/-- Before a positive offset there is a last reached one. -/
theorem Reaches.exists_last (F : Framer β α ε) (s : List β) {k : Nat} (hk : 0 < k) :
    ∃ j, Reaches F s j ∧ j < k ∧ ∀ i, Reaches F s i → i < k → i ≤ j := by
  induction k with
  | zero => omega
  | succ k ih =>
    by_cases hr : Reaches F s k
    · exact ⟨k, hr, by omega, fun i _ hi => by omega⟩
    · rcases Nat.eq_zero_or_pos k with rfl | hpos
      · exact absurd .start hr
      · obtain ⟨j, hj, hlt, hmax⟩ := ih hpos
        refine ⟨j, hj, by omega, fun i hi hlt' => ?_⟩
        rcases Nat.lt_or_ge i k with h | h
        · exact hmax i hi h
        · have : i = k := by omega
          exact absurd (this ▸ hi) hr

/-- **An offset is reached or passed over.** Either the scan takes a decision at `k`, or the
decision at some reached `j` before `k` spans it, or the scan ends before `k`. -/
theorem Reaches.or_passed (F : Framer β α ε) (s : List β) (k : Nat) :
    Reaches F s k ∨ ∃ j, Reaches F s j ∧ j < k ∧
      ((∃ n, Consumes F s j n ∧ k < j + n) ∨ ∀ n, ¬ Consumes F s j n) := by
  rcases Nat.eq_zero_or_pos k with rfl | hk
  · exact .inl .start
  obtain ⟨j, hj, hlt, hmax⟩ := Reaches.exists_last F s hk
  by_cases hc : ∃ n, Consumes F s j n
  · obtain ⟨n, hn⟩ := hc
    have hb := hn.bounds
    rcases Nat.lt_trichotomy (j + n) k with h | h | h
    · have := hmax _ (hj.step hn) h
      omega
    · exact .inl (h ▸ hj.step hn)
    · exact .inr ⟨j, hj, hlt, .inl ⟨n, hn, h⟩⟩
  · exact .inr ⟨j, hj, hlt, .inr (fun n hn => hc ⟨n, hn⟩)⟩

/-- Offsets reached in what is left of a stream are offsets reached in the stream. -/
theorem Reaches.drop {s : List β} {j k : Nat} (hj : Reaches F s j) (h : Reaches F (s.drop j) k) :
    Reaches F s (j + k) := by
  induction h with
  | start => exact hj
  | @step k n _ hc ih =>
    rw [← Nat.add_assoc]
    refine ih.step ?_
    unfold Consumes at hc ⊢
    rwa [List.drop_drop] at hc

/-- A reached offset is the start, or is reached in what the first decision leaves. -/
theorem Reaches.head {s : List β} {k : Nat} (h : Reaches F s k) :
    k = 0 ∨ ∃ n j, Consumes F s 0 n ∧ k = n + j ∧ Reaches F (s.drop n) j := by
  induction h with
  | start => exact .inl rfl
  | @step k m _ hc ih =>
    rcases ih with rfl | ⟨n, j, hn, rfl, hj⟩
    · exact .inr ⟨m, 0, hc, by omega, .start⟩
    · refine .inr ⟨n, j + m, hn, by omega, hj.step ?_⟩
      unfold Consumes at hc ⊢
      rwa [List.drop_drop]

/-- What a scan leaves starts at a reached offset. -/
theorem Scan.reaches_rest {b : List β} {as : List α} {r : List β} {e : Option ε}
    (h : Scan F b as r e) (he : e = none) : ∃ k, Reaches F b k ∧ r = b.drop k := by
  induction h with
  | wait _ => exact ⟨0, .start, by simp⟩
  | fail _ => cases he
  | @skip b n _ _ _ hv _ ih =>
    obtain ⟨k, hk, rfl⟩ := ih he
    have hn : Reaches F b (0 + n) := .step .start (.inl hv)
    rw [Nat.zero_add] at hn
    exact ⟨n + k, hn.drop hk, by rw [List.drop_drop]⟩
  | @emit b a n _ _ _ hv _ ih =>
    obtain ⟨k, hk, rfl⟩ := ih he
    have hn : Reaches F b (0 + n) := .step .start (.inr ⟨a, hv⟩)
    rw [Nat.zero_add] at hn
    exact ⟨n + k, hn.drop hk, by rw [List.drop_drop]⟩

/-- A scan without error stops where it reaches an offset the framer waits at. -/
theorem Scan.rest_eq {s : List β} {as : List α} {r : List β} {e : Option ε} (h : Scan F s as r e)
    (he : e = none) {k : Nat} (hk : Reaches F s k) (hw : F.verdict (s.drop k) = .wait) :
    r = s.drop k := by
  obtain ⟨j, hj, rfl⟩ := h.reaches_rest he
  rcases Nat.lt_trichotomy j k with hlt | rfl | hlt
  · obtain ⟨n, hn, -⟩ := hj.consumes_of_lt hk hlt
    exact absurd (h.rest_wait he) hn.ne_wait
  · rfl
  · obtain ⟨n, hn, -⟩ := hk.consumes_of_lt hj hlt
    exact absurd hw hn.ne_wait

/-! ## The frames of a scan with their offsets -/

/-- Scanning the stream `s`, the framer emits the frame `a` at offset `k`. -/
def Emits (F : Framer β α ε) (s : List β) (k : Nat) (a : α) : Prop :=
  Reaches F s k ∧ ∃ n, F.verdict (s.drop k) = .emit a n

/-- A framer that waits puts out nothing. -/
theorem not_emits_of_wait {b : List β} (hv : F.verdict b = .wait) (k : Nat) (a : α) :
    ¬ Emits F b k a := by
  rintro ⟨hk, n, hn⟩
  rcases hk.head with rfl | ⟨m, j, hm, -, -⟩
  · cases hv.symm.trans hn
  · exact hm.ne_wait hv

/-- The frames of a buffer whose front is skipped are those behind it. -/
theorem emits_of_skip {b : List β} {n : Nat} (hv : F.verdict b = .skip n) (k : Nat) (a : α) :
    Emits F b k a ↔ ∃ j, k = n + j ∧ Emits F (b.drop n) j a := by
  have hc : Consumes F b 0 n := .inl hv
  constructor
  · rintro ⟨hk, m, hm⟩
    rcases hk.head with rfl | ⟨n', j, hn', rfl, hj⟩
    · cases hv.symm.trans hm
    · obtain rfl := hc.det hn'
      exact ⟨j, rfl, hj, m, by rwa [List.drop_drop]⟩
  · rintro ⟨j, rfl, hj, m, hm⟩
    have hn : Reaches F b (0 + n) := .step .start hc
    rw [Nat.zero_add] at hn
    exact ⟨hn.drop hj, m, by rwa [List.drop_drop] at hm⟩

/-- The frames of a buffer whose front is a frame are that frame and those behind it. -/
theorem emits_of_emit {b : List β} {a₀ : α} {n : Nat} (hv : F.verdict b = .emit a₀ n) (k : Nat)
    (a : α) : Emits F b k a ↔ (k = 0 ∧ a = a₀) ∨ ∃ j, k = n + j ∧ Emits F (b.drop n) j a := by
  have hc : Consumes F b 0 n := .inr ⟨a₀, hv⟩
  constructor
  · rintro ⟨hk, m, hm⟩
    rcases hk.head with rfl | ⟨n', j, hn', rfl, hj⟩
    · cases hv.symm.trans hm
      exact .inl ⟨rfl, rfl⟩
    · obtain rfl := hc.det hn'
      exact .inr ⟨j, rfl, hj, m, by rwa [List.drop_drop]⟩
  · rintro (⟨rfl, rfl⟩ | ⟨j, rfl, hj, m, hm⟩)
    · exact ⟨.start, n, hv⟩
    · have hn : Reaches F b (0 + n) := .step .start hc
      rw [Nat.zero_add] at hn
      exact ⟨hn.drop hj, m, by rwa [List.drop_drop] at hm⟩

/-- Behind what is skipped the same is put out, at places counted from there. -/
theorem Skips.emits_iff {b r : List β} (h : Skips F b r) (k : Nat) (a : α) :
    Emits F b k a ↔ ∃ j, k = b.length - r.length + j ∧ Emits F r j a := by
  induction h generalizing k with
  | refl => simp
  | @skip b r n hv hs ih =>
    have hb := F.skip_bounds hv
    have hle := hs.length_le
    rw [emits_of_skip hv]
    simp only [ih, List.length_drop] at hle ⊢
    constructor
    · rintro ⟨_, rfl, j, rfl, hj⟩
      exact ⟨j, by omega, hj⟩
    · rintro ⟨j, rfl, hj⟩
      exact ⟨_, by omega, j, rfl, hj⟩

/-- **Frames of a scan do not overlap.** A frame emitted at `k` takes up its `n` symbols: nothing is
emitted inside them. -/
theorem Emits.disjoint {s : List β} {j k n : Nat} {a a' : α} (hk : Reaches F s k)
    (hv : F.verdict (s.drop k) = .emit a n) (hj : Emits F s j a') : j ≤ k ∨ k + n ≤ j := by
  rcases Nat.lt_or_ge k j with hlt | hle
  · obtain ⟨m, hm, hmle⟩ := hk.consumes_of_lt hj.1 hlt
    obtain rfl : n = m := Consumes.det (.inr ⟨a, hv⟩) hm
    exact .inr hmle
  · exact .inl hle

end

end Framing
