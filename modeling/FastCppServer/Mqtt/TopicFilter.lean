import Mathlib.Data.List.Forall2
import FastCppServer.Mqtt.MqttService

/-!
# Topic filters

MQTT matches a filter with a topic level by level: `+` stands for one level, a final `#` for all
that follow, also for none; and a filter that begins with a wildcard matches no topic that begins
with `$`. `MatchTopicFilter` has no rule for `$`, and `std::getline` gives it no level after a final
slash, so that `a/` and `a` are the same to it. What follows from this is the exact condition
`Faithful` of `matchTopicFilter_iff`.
-/

namespace MyMqtt

open Transition

variable {filter topic : List Char} {f t : List (List Char)}

/-! ## The rules -/

/-- The levels of a filter or of a topic. -/
def levels (s : List Char) : List (List Char) := s.splitOn '/'

/-- A level of a filter, and one of a topic. -/
def Fits (f t : List Char) : Prop := f = ['+'] ∨ f = t

/-- Level by level, and any number of levels for a final `#`. -/
def LevelsFit (f t : List (List Char)) : Prop :=
  if f.getLast? = some ['#'] then List.Forall₂ Fits f.dropLast (t.take (f.length - 1))
  else List.Forall₂ Fits f t

/-- The filter begins with a wildcard, and the topic with a dollar sign. -/
def Reserved (filter topic : List Char) : Prop :=
  ((levels filter).head? = some ['#'] ∨ (levels filter).head? = some ['+']) ∧
    topic.head? = some '$'

/-- **The rules of MQTT.** -/
def Matches (filter topic : List Char) : Prop :=
  LevelsFit (levels filter) (levels topic) ∧ ¬Reserved filter topic

/-- A wildcard is a level of its own, and `#` the last one. -/
structure ValidFilter (filter : List Char) : Prop where
  ne_nil : filter ≠ []
  plus : ∀ l ∈ levels filter, '+' ∈ l → l = ['+']
  hash : ∀ l ∈ levels filter, '#' ∈ l → l = ['#']
  last : ∀ l ∈ (levels filter).dropLast, '#' ∉ l

/-! ## Where the code keeps to them -/

/-- A final slash. -/
def EndsEmpty (l : List (List Char)) : Prop := l.getLast? = some []

instance (l : List (List Char)) : Decidable (EndsEmpty l) :=
  inferInstanceAs (Decidable (l.getLast? = some []))

/-- The levels without an empty last one. -/
def trimLast (l : List (List Char)) : List (List Char) :=
  if l.getLast? = some [] then l.dropLast else l

/-- A level of the filter that is a name is not the topic's level in its place. -/
def NameDiffers (f t : List (List Char)) : Prop :=
  ∃ (i : Nat) (l : List Char), f[i]? = some l ∧ l ≠ ['+'] ∧ l ≠ ['#'] ∧ t[i]? ≠ some l

/-- There are not as many levels in the topic as the filter has, or at least as many as it has
before a final `#`. -/
def CountDiffers (f t : List (List Char)) : Prop :=
  if f.getLast? = some ['#'] then t.length + 1 < f.length else f.length ≠ t.length

/-- Where one of the two ends with a slash: a filter that ends with a slash or with `#` has not one
level more than the topic; any other has neither one less, nor as many with a final `+`. -/
def SlashHarmless (f t : List (List Char)) : Prop :=
  if EndsEmpty f ∨ f.getLast? = some ['#'] then f.length ≠ t.length + 1
  else f.length + 1 ≠ t.length ∧ (f.length = t.length → f.getLast? ≠ some ['+'])

/-- **The pairs that are matched as they should be.** A name of the filter, but for an empty one at
its end, is not in the topic. Or else, if the dollar sign decides, the numbers of levels do not
agree, final slashes apart; and if not, both end with a slash or none does, or the numbers of levels
are such that the slash does no harm. -/
def Faithful (filter topic : List Char) : Prop :=
  NameDiffers (trimLast (levels filter)) (levels topic) ∨
    (Reserved filter topic ∧
      CountDiffers (trimLast (levels filter)) (trimLast (levels topic))) ∨
    (¬Reserved filter topic ∧
      ((EndsEmpty (levels filter) ↔ EndsEmpty (levels topic)) ∨
        SlashHarmless (levels filter) (levels topic)))

/-! ## The code, level by level -/

/-- A topic has at least one level. -/
theorem levels_ne_nil (s : List Char) : levels s ≠ [] := List.splitOn_ne_nil _ _

/-- Dropping the empty last level looks at the end only. -/
theorem trimLast_cons {l : List Char} (h : t ≠ []) : trimLast (l :: t) = l :: trimLast t := by
  obtain ⟨l', t, rfl⟩ := List.exists_cons_of_ne_nil h
  rw [trimLast, trimLast, List.getLast?_cons_cons]
  split
  · rfl
  · rfl

/-- The items of `std::getline` are the levels, but for an empty last one. -/
theorem splitTopicFrom_eq (item s : List Char) :
    splitTopicFrom item s = trimLast (s.splitOnPPrepend (· == '/') item) := by
  induction s generalizing item with
  | nil =>
    rw [splitTopicFrom, List.splitOnPPrepend_nil, trimLast]
    cases item with
    | nil => rfl
    | cons c item => simp
  | cons c s ih =>
    rw [splitTopicFrom, List.splitOnPPrepend_cons_eq_if]
    by_cases hc : c = '/'
    · rw [if_pos hc, if_pos (by simp [hc]), trimLast_cons (List.splitOnP_ne_nil _ _), ih]
      rfl
    · rw [if_neg hc, if_neg (by simp [hc]), ih]

/-- The source's split is the split at the slashes without an empty last level. -/
theorem splitTopic_eq (s : List Char) : splitTopic s = trimLast (levels s) :=
  splitTopicFrom_eq [] s

/-- A filter level other than the last fits the topic level beside it. -/
theorem levelsFit_cons {fp : List Char} (hf : f ≠ []) :
    LevelsFit (fp :: f) t ↔ ∃ tp ts, t = tp :: ts ∧ Fits fp tp ∧ LevelsFit f ts := by
  obtain ⟨fp', f, rfl⟩ := List.exists_cons_of_ne_nil hf
  rw [LevelsFit, List.getLast?_cons_cons]
  by_cases hlast : (fp' :: f).getLast? = some ['#']
  · rw [if_pos hlast]
    cases t with
    | nil => simp
    | cons tp ts =>
      rw [List.dropLast_cons_cons, List.length_cons, Nat.add_sub_cancel, List.length_cons,
        List.take_succ_cons, List.forall₂_cons]
      constructor
      · rintro ⟨hfits, hrest⟩
        refine ⟨tp, ts, rfl, hfits, ?_⟩
        rw [LevelsFit, if_pos hlast]
        exact hrest
      · rintro ⟨_, _, ⟨⟩, hfits, hrest⟩
        rw [LevelsFit, if_pos hlast] at hrest
        exact ⟨hfits, hrest⟩
  · rw [if_neg hlast]
    constructor
    · intro h
      cases h with
      | cons hfits hrest =>
        refine ⟨_, _, rfl, hfits, ?_⟩
        rw [LevelsFit, if_neg hlast]
        exact hrest
    · rintro ⟨tp, ts, rfl, hfits, hrest⟩
      rw [LevelsFit, if_neg hlast] at hrest
      exact .cons hfits hrest

/-- A last filter level that is not `#` fits one level, and the last. -/
theorem levelsFit_singleton {fp : List Char} (h : fp ≠ ['#']) :
    LevelsFit [fp] t ↔ ∃ tp, t = [tp] ∧ Fits fp tp := by
  rw [LevelsFit, if_neg (by simpa using h)]
  constructor
  · intro hfit
    cases hfit with
    | cons hfits hrest =>
      cases hrest
      exact ⟨_, rfl, hfits⟩
  · rintro ⟨tp, rfl, hfits⟩
    exact .cons hfits .nil

/-- The loop of `MatchTopicFilter`. -/
theorem matchLevels_iff (hne : f ≠ []) (hf : ∀ l ∈ f.dropLast, l ≠ ['#']) :
    matchLevels f t = true ↔ LevelsFit f t := by
  induction f generalizing t with
  | nil => exact absurd rfl hne
  | cons fp f ih =>
    cases f with
    | nil =>
      by_cases hhash : fp = ['#']
      · simp [matchLevels, LevelsFit, hhash]
      · rw [levelsFit_singleton hhash]
        cases t with
        | nil => simp [matchLevels, hhash]
        | cons tp t =>
          rw [matchLevels, if_neg hhash]
          by_cases hplus : fp = ['+']
          · simp [matchLevels, Fits, hplus]
          · by_cases heq : fp = tp
            · simp [matchLevels, Fits, heq]
            · have hne' : tp ≠ fp := Ne.symm heq
              simp [Fits, heq, hplus, hne']
    | cons fp' f =>
      have hhash : fp ≠ ['#'] := hf fp (by simp)
      have hrest : ∀ l ∈ (fp' :: f).dropLast, l ≠ ['#'] := fun l hl => hf l (by simp [hl])
      rw [levelsFit_cons (List.cons_ne_nil _ _)]
      cases t with
      | nil => simp [matchLevels, hhash]
      | cons tp t =>
        rw [matchLevels, if_neg hhash]
        have ih' := ih (t := t) (List.cons_ne_nil _ _) hrest
        by_cases hplus : fp = ['+']
        · simp [Fits, hplus, ih']
        · by_cases heq : fp = tp
          · simp [Fits, heq, ih']
          · simp [Fits, heq, hplus]

/-! ## Final slashes -/

/-- Without an empty last level nothing is dropped. -/
theorem trimLast_of_not (h : ¬EndsEmpty f) : trimLast f = f := if_neg h

/-- Levels that end in an empty one, taken apart. -/
theorem exists_of_endsEmpty (h : EndsEmpty f) : f = trimLast f ++ [[]] := by
  have hlast : f.getLast? = some [] := h
  rw [trimLast, if_pos hlast]
  obtain ⟨ys, rfl⟩ := List.getLast?_eq_some_iff.1 hlast
  simp

/-- Without a final `#`, the levels are as many. -/
theorem length_of_levelsFit (hlast : f.getLast? ≠ some ['#']) (h : LevelsFit f t) :
    f.length = t.length := by
  rw [LevelsFit, if_neg hlast] at h
  exact h.length_eq

/-- Both end with a slash. -/
theorem levelsFit_append_nil (hf : ∀ l ∈ f, l ≠ ['#']) :
    LevelsFit (f ++ [[]]) (t ++ [[]]) ↔ LevelsFit f t := by
  have hlast : f.getLast? ≠ some ['#'] := fun h => hf _ (List.mem_of_getLast? h) rfl
  rw [LevelsFit, if_neg (by simp), LevelsFit, if_neg hlast]
  constructor
  · intro h
    have hlen := h.length_eq
    rw [List.length_append, List.length_append] at hlen
    have htake := List.forall₂_take f.length h
    rw [List.take_left, show f.length = t.length by simpa using hlen, List.take_left] at htake
    exact htake
  · intro h
    exact List.rel_append h (.cons (.inr rfl) .nil)

/-- The drop takes one level away. -/
theorem length_trimLast (h : EndsEmpty f) : (trimLast f).length + 1 = f.length := by
  have hlen := congrArg List.length (exists_of_endsEmpty h)
  rw [List.length_append, List.length_singleton] at hlen
  exact hlen.symm

/-! ## Names and numbers of levels -/

/-- No filter level, no difference. -/
theorem not_nameDiffers_nil : ¬NameDiffers [] t := by
  rintro ⟨i, l, hl, -⟩
  simp at hl

/-- The first level, and the others. -/
theorem nameDiffers_cons {fp : List Char} :
    NameDiffers (fp :: f) t ↔
      (fp ≠ ['+'] ∧ fp ≠ ['#'] ∧ t.head? ≠ some fp) ∨ NameDiffers f t.tail := by
  constructor
  · rintro ⟨i, l, hl, hplus, hhash, ht⟩
    cases i with
    | zero =>
      obtain rfl : fp = l := by simpa using hl
      exact .inl ⟨hplus, hhash, by rwa [List.head?_eq_getElem?]⟩
    | succ i =>
      rw [List.getElem?_cons_succ] at hl
      exact .inr ⟨i, l, hl, hplus, hhash, by rwa [List.getElem?_tail]⟩
  · rintro (⟨hplus, hhash, ht⟩ | ⟨i, l, hl, hplus, hhash, ht⟩)
    · exact ⟨0, fp, rfl, hplus, hhash, by rwa [← List.head?_eq_getElem?]⟩
    · exact ⟨i + 1, l, hl, hplus, hhash, by rwa [List.getElem?_tail] at ht⟩

/-- **Levels fit** if the names are the topic's, and the numbers agree. -/
theorem levelsFit_iff (hne : f ≠ []) (hf : ∀ l ∈ f.dropLast, l ≠ ['#']) :
    LevelsFit f t ↔ ¬NameDiffers f t ∧ ¬CountDiffers f t := by
  induction f generalizing t with
  | nil => exact absurd rfl hne
  | cons fp f ih =>
    rw [nameDiffers_cons]
    cases f with
    | nil =>
      by_cases hhash : fp = ['#']
      · simp [LevelsFit, CountDiffers, hhash, not_nameDiffers_nil]
      · rw [levelsFit_singleton hhash, CountDiffers, if_neg (by simpa using hhash)]
        rcases t with _ | ⟨tp, _ | ⟨tp', t⟩⟩
        · simp
        · simp [Fits, hhash, not_nameDiffers_nil, or_iff_not_imp_left, eq_comm]
        · simp
    | cons fp' f =>
      have hhash : fp ≠ ['#'] := hf fp (by simp)
      have hrest : ∀ l ∈ (fp' :: f).dropLast, l ≠ ['#'] := fun l hl => hf l (by simp [hl])
      rw [levelsFit_cons (List.cons_ne_nil _ _)]
      cases t with
      | nil => simp [CountDiffers]
      | cons tp t =>
        have ih' := ih (t := t) (List.cons_ne_nil _ _) hrest
        have hcount : CountDiffers (fp :: fp' :: f) (tp :: t) ↔ CountDiffers (fp' :: f) t := by
          simp [CountDiffers]
        have hfits : Fits fp tp ↔ ¬(fp ≠ ['+'] ∧ fp ≠ ['#'] ∧ (tp :: t).head? ≠ some fp) := by
          simp [Fits, hhash, or_iff_not_imp_left, eq_comm]
        rw [hcount, List.tail_cons, not_or, and_assoc, ← ih', ← hfits]
        simp

/-- A name that is compared with the levels of a topic is not compared with what follows them. -/
theorem nameDiffers_append {t' : List (List Char)} (h : ¬CountDiffers f t) :
    NameDiffers f (t ++ t') ↔ NameDiffers f t := by
  unfold NameDiffers
  refine exists₂_congr fun i l => and_congr_right fun hl => and_congr_right fun _ =>
    and_congr_right fun hhash => ?_
  have hi : i < f.length := (List.getElem?_eq_some_iff.1 hl).1
  have hlt : i < t.length := by
    by_cases hlast : f.getLast? = some ['#']
    · rw [CountDiffers, if_pos hlast] at h
      have hne : i ≠ f.length - 1 := by
        rintro rfl
        rw [List.getLast?_eq_getElem?, hl] at hlast
        exact hhash (Option.some.inj hlast)
      omega
    · rw [CountDiffers, if_neg hlast] at h
      omega
  rw [List.getElem?_append_left hlt]

/-- An empty level at the end of the topic does not change whether the levels before it fit. -/
theorem levelsFit_trimLast_iff (hne : f ≠ []) (hf : ∀ l ∈ f.dropLast, l ≠ ['#']) :
    LevelsFit f (trimLast t) ↔ ¬NameDiffers f t ∧ ¬CountDiffers f (trimLast t) := by
  rw [levelsFit_iff hne hf]
  refine and_congr_left fun hcount => not_congr ?_
  by_cases hend : EndsEmpty t
  · conv_rhs => rw [exists_of_endsEmpty hend]
    exact (nameDiffers_append hcount).symm
  · rw [trimLast_of_not hend]

/-- A last level that is a name, and another one in the topic. -/
theorem nameDiffers_of_getLast {l : List Char} (hlast : f.getLast? = some l) (hplus : l ≠ ['+'])
    (hhash : l ≠ ['#']) (hlen : f.length = t.length) (ht : t.getLast? ≠ some l) :
    NameDiffers f t := by
  refine ⟨f.length - 1, l, ?_, hplus, hhash, ?_⟩
  · rw [← List.getLast?_eq_getElem?]
    exact hlast
  · rw [hlen, ← List.getLast?_eq_getElem?]
    exact ht

/-- **What the final slashes do**, where one of the two has one. -/
theorem trimLast_faithful (hne : trimLast f ≠ []) (hf : ∀ l ∈ f.dropLast, l ≠ ['#'])
    (hone : ¬(EndsEmpty f ↔ EndsEmpty t)) :
    (LevelsFit (trimLast f) (trimLast t) ↔ LevelsFit f t) ↔
      NameDiffers (trimLast f) t ∨ SlashHarmless f t := by
  have hfne : f ≠ [] := by
    rintro rfl
    exact hne rfl
  by_cases hfe : EndsEmpty f
  · -- the topic does not end with a slash, so that the filter should not match
    have hte : ¬EndsEmpty t := by tauto
    have hno : ¬LevelsFit f t := by
      intro h
      rw [levelsFit_iff hfne hf, CountDiffers, if_neg (by rw [show _ = _ from hfe]; simp),
        not_not] at h
      exact h.1 (nameDiffers_of_getLast hfe nofun nofun h.2 hte)
    have htrim : ∀ l ∈ trimLast f, l ≠ ['#'] := by
      rw [trimLast, if_pos (show f.getLast? = some [] from hfe)]
      exact hf
    have hlast : (trimLast f).getLast? ≠ some ['#'] := fun h =>
      htrim _ (List.mem_of_getLast? h) rfl
    have hlen := length_trimLast hfe
    rw [trimLast_of_not hte, levelsFit_iff hne fun l hl => htrim l (List.dropLast_subset _ hl),
      CountDiffers, if_neg hlast, SlashHarmless, if_pos (.inl hfe)]
    simp only [hno, iff_false, not_and_or, not_not]
    refine or_congr_right (not_congr ?_)
    omega
  · have hte : EndsEmpty t := by tauto
    have hlen := length_trimLast hte
    rw [trimLast_of_not hfe, levelsFit_trimLast_iff hfne hf, levelsFit_iff hfne hf, SlashHarmless]
    by_cases hlast : f.getLast? = some ['#']
    · simp only [CountDiffers, hlast, or_true, if_true]
      by_cases hname : NameDiffers f t
      · simp [hname]
      · simp only [hname, not_false_eq_true, true_and, false_or]
        omega
    · simp only [CountDiffers, hlast, hfe, or_self, if_false]
      by_cases hname : NameDiffers f t
      · simp [hname]
      · have hplus : f.length = t.length → f.getLast? = some ['+'] := by
          intro hlength
          by_contra hplus
          obtain ⟨l, hl⟩ : ∃ l, f.getLast? = some l :=
            ⟨_, List.getLast?_eq_some_getLast hfne⟩
          refine hname (nameDiffers_of_getLast hl ?_ ?_ hlength ?_)
          · rintro rfl
            exact hplus hl
          · rintro rfl
            exact hlast hl
          · rw [show t.getLast? = some [] from hte]
            intro heq
            rw [← heq] at hl
            exact hfe hl
        simp only [hname, not_false_eq_true, true_and, false_or, not_not]
        by_cases hlength : f.length = t.length
        · simp only [hlength, hplus hlength]
          simp
          omega
        · simp only [hlength, false_implies, and_true, iff_false]
          omega

/-! ## Filters and topics -/

/-- In a valid filter `#` stands last or nowhere. -/
theorem ValidFilter.ne_hash (h : ValidFilter filter) :
    ∀ l ∈ (levels filter).dropLast, l ≠ ['#'] := by
  rintro l hl rfl
  exact h.last _ hl List.mem_cons_self

/-- The levels of a text that is not empty are not a single empty one. -/
theorem levels_ne_empty {s : List Char} (h : s ≠ []) : levels s ≠ [[]] := by
  intro heq
  have hs : ['/'].intercalate (levels s) = s := List.intercalate_splitOn '/'
  rw [heq, List.intercalate_singleton] at hs
  exact h hs.symm

/-- So dropping an empty last level leaves one. -/
theorem trimLast_levels_ne_nil {s : List Char} (h : s ≠ []) : trimLast (levels s) ≠ [] := by
  intro heq
  by_cases hend : EndsEmpty (levels s)
  · have happ := exists_of_endsEmpty hend
    rw [heq] at happ
    exact levels_ne_empty h happ
  · rw [trimLast_of_not hend] at heq
    exact levels_ne_nil s heq

/-- What `MatchTopicFilter` does: it matches the levels without an empty last one. -/
theorem matchTopicFilter_eq (hf : ValidFilter filter) :
    matchTopicFilter filter topic = true ↔
      LevelsFit (trimLast (levels filter)) (trimLast (levels topic)) := by
  rw [matchTopicFilter, splitTopic_eq, splitTopic_eq]
  refine matchLevels_iff (trimLast_levels_ne_nil hf.ne_nil) ?_
  by_cases hend : EndsEmpty (levels filter)
  · rw [trimLast, if_pos (show (levels filter).getLast? = some [] from hend)]
    exact fun l hl => hf.ne_hash l (List.dropLast_subset _ hl)
  · rw [trimLast_of_not hend]
    exact hf.ne_hash

/-- Nor does the drop move a `#` from its place. -/
theorem ValidFilter.trimLast_ne_hash (h : ValidFilter filter) :
    ∀ l ∈ (trimLast (levels filter)).dropLast, l ≠ ['#'] := by
  by_cases hend : EndsEmpty (levels filter)
  · rw [trimLast, if_pos (show (levels filter).getLast? = some [] from hend)]
    exact fun l hl => h.ne_hash l (List.dropLast_subset _ hl)
  · rw [trimLast_of_not hend]
    exact h.ne_hash

/-- Both end with a slash, or none does. -/
theorem levelsFit_trimLast_of_iff (hf : ValidFilter filter)
    (hboth : EndsEmpty (levels filter) ↔ EndsEmpty t) :
    LevelsFit (trimLast (levels filter)) (trimLast t) ↔ LevelsFit (levels filter) t := by
  by_cases hfe : EndsEmpty (levels filter)
  · have hne : ∀ l ∈ trimLast (levels filter), l ≠ ['#'] := by
      rw [trimLast, if_pos (show (levels filter).getLast? = some [] from hfe)]
      exact hf.ne_hash
    have happ := levelsFit_append_nil (t := trimLast t) hne
    rw [← exists_of_endsEmpty hfe, ← exists_of_endsEmpty (hboth.1 hfe)] at happ
    exact happ.symm
  · rw [trimLast_of_not hfe, trimLast_of_not (mt hboth.2 hfe)]

/-- **The matcher agrees with the rules** exactly on the pairs that `Faithful` describes. -/
theorem faithful_iff (hf : ValidFilter filter) :
    (matchTopicFilter filter topic = true ↔ Matches filter topic) ↔ Faithful filter topic := by
  have hne := trimLast_levels_ne_nil hf.ne_nil
  rw [matchTopicFilter_eq hf, Matches, Faithful]
  by_cases hreserved : Reserved filter topic
  · rw [levelsFit_trimLast_iff hne hf.trimLast_ne_hash]
    simp only [hreserved, not_true_eq_false, and_false, iff_false, not_and_or, not_not, true_and,
      false_and, or_false]
  · simp only [hreserved, not_false_eq_true, and_true, false_and, true_and, false_or]
    by_cases hboth : EndsEmpty (levels filter) ↔ EndsEmpty (levels topic)
    · simp only [hboth, true_or, or_true, iff_true]
      exact levelsFit_trimLast_of_iff hf hboth
    · simp only [hboth, false_or]
      exact trimLast_faithful hne hf.ne_hash hboth

/-- **Topic filters.** The code matches a valid filter with a topic as MQTT does if and only if the
pair is a faithful one. So the handlers that are called for a message, while the service runs, are
those of the filters that match if and only if all the pairs are; after `Stop` there are none. -/
theorem matchTopicFilter_iff (hf : ValidFilter filter) (topic : List Char) {s t : System}
    {ls : List Label} (hroutes : ∀ r ∈ s.routes, ValidFilter r.filter)
    (hd : Dispatch topic s ls t) :
    ((matchTopicFilter filter topic = true ↔ Matches filter topic) ↔ Faithful filter topic) ∧
      ((∀ r ∈ s.routes, r ∈ outputs step called s (.network :: ls) ↔
          s.running = true ∧ Matches r.filter topic) ↔
        (s.running = true → ∀ r ∈ s.routes, Faithful r.filter topic)) := by
  refine ⟨faithful_iff hf, ?_⟩
  rw [hd.called, System.dispatchRoutes]
  by_cases hrunning : s.running = true
  · simp only [hrunning, not_true_eq_false, if_false, true_and, true_implies]
    refine forall₂_congr fun r hr => ?_
    rw [← faithful_iff (hroutes r hr), List.mem_filter]
    simp [hr]
  · simp [hrunning]

/-- `a/+`, and `a/#` and `b/#`, for `a/b`; the handler adds a route, which is not tried for this
message. -/
theorem matchTopicFilter_below :
    let s : System :=
      { inited := true, running := true, mosq := true, publisher := true
        routes := [⟨"a/#".toList, 0, 0⟩, ⟨"b/#".toList, 1, 0⟩]
        network := .dispatching "a/b".toList }
    let ls : List Label := [.network, .handlerCalls (.addRoute ⟨"a/b".toList, 2, 0⟩), .network,
      .handlerReturns, .network, .network]
    (matchTopicFilter "a/+".toList "a/b".toList = true ↔ Matches "a/+".toList "a/b".toList) ∧
      ∀ r ∈ s.routes, r ∈ outputs step called s (.network :: ls) ↔
        s.running = true ∧ Matches r.filter "a/b".toList := by
  intro s ls
  have hplus : ValidFilter "a/+".toList := ⟨by decide, by decide, by decide, by decide⟩
  have hroutes : ∀ r ∈ s.routes, ValidFilter r.filter := by
    intro r hr
    rcases List.mem_pair.1 hr with rfl | rfl
    · exact ⟨by decide, by decide, by decide, by decide⟩
    · exact ⟨by decide, by decide, by decide, by decide⟩
  have hd : ∃ t, Dispatch "a/b".toList s ls t := by
    refine ⟨_, ⟨[.init true, .addRoute ⟨"a/#".toList, 0, 0⟩, .addRoute ⟨"b/#".toList, 1, 0⟩,
      .callStart, .control true, .onMessage (some "a/b".toList)], rfl⟩, rfl, rfl, ?_, rfl⟩
    rintro m ⟨⟩
    decide
  obtain ⟨t, hd⟩ := hd
  obtain ⟨hone, hall⟩ := matchTopicFilter_iff hplus "a/b".toList hroutes hd
  have hplain {filter : List Char} (hsame : ¬EndsEmpty (levels filter)) :
      Faithful filter "a/b".toList :=
    .inr (.inr ⟨fun h => absurd h.2 (by decide), .inl (iff_of_false hsame (by decide))⟩)
  refine ⟨hone.2 (hplain (by decide)), hall.2 fun _ r hr => ?_⟩
  rcases List.mem_pair.1 hr with rfl | rfl
  · exact hplain (by decide)
  · exact hplain (by decide)

/-- `a/` takes `a`, `a/+` misses `a/`, and `#` takes `$SYS`. -/
theorem not_matches :
    ¬(matchTopicFilter "a/".toList "a".toList = true ↔ Matches "a/".toList "a".toList) ∧
      ¬(matchTopicFilter "a/+".toList "a/".toList = true ↔
        Matches "a/+".toList "a/".toList) ∧
      ¬(matchTopicFilter "#".toList "$SYS".toList = true ↔
        Matches "#".toList "$SYS".toList) := by
  refine ⟨fun h => ?_, fun h => ?_, fun h => ?_⟩
  · have hfit := (h.1 (by decide)).1
    exact absurd (length_of_levelsFit (by decide) hfit) (by decide)
  · have hfit : Matches "a/+".toList "a/".toList :=
      ⟨.cons (.inr rfl) (.cons (.inl rfl) .nil), fun hreserved => absurd hreserved.2 (by decide)⟩
    exact absurd (h.2 hfit) (by decide)
  · exact (h.1 (by decide)).2 ⟨.inl (by decide), by decide⟩

end MyMqtt
