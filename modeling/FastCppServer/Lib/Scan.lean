import Mathlib.Data.List.DropRight
import Mathlib.Data.Nat.Digits.Lemmas
import Mathlib.Tactic.IntervalCases

/-!
# Texts of bytes

A text is searched for a character from either end (`find`, `rfind`), stripped of the blanks at its
ends (`trim`) and cut into the words between blanks (`words`). A number is written in decimal
(`showInt`) and read as `strtol` does, which stops at the first character that is not a digit
(`strtol`); what is written is read back (`strtol_showInt`).
-/

namespace Scan

universe u

section
variable {α : Type u}

/-! ## Characters -/

section
variable [DecidableEq α]

/-- `find`. -/
def find (c : α) (l : List α) : Option Nat := l.findIdx? (· = c)

/-- `rfind`. -/
def rfind (c : α) (l : List α) : Option Nat :=
  (l.reverse.findIdx? (· = c)).map (l.length - 1 - ·)

/-- Nothing is found where the character does not stand. -/
theorem find_eq_none {c : α} {l : List α} : find c l = none ↔ c ∉ l := by
  simp only [find, List.findIdx?_eq_none_iff, decide_eq_false_iff_not]
  exact ⟨fun h hc => h c hc rfl, fun h b hb hbc => h (hbc ▸ hb)⟩

/-- The first one is found. -/
theorem find_append {c : α} {pre : List α} (h : c ∉ pre) (post : List α) :
    find c (pre ++ c :: post) = some pre.length := by
  have hpre : pre.findIdx? (· = c) = none := find_eq_none.2 h
  rw [find, List.findIdx?_append, hpre]
  simp [List.findIdx?_cons]

/-- The first place of a character is one place. -/
theorem cut_unique {c : α} {a b a' b' : List α} (ha : c ∉ a) (ha' : c ∉ a')
    (h : a ++ c :: b = a' ++ c :: b') : a = a' ∧ b = b' := by
  have hlen : some a.length = some a'.length := by
    rw [← find_append ha b, ← find_append ha' b', h]
  obtain ⟨hfront, hback⟩ := List.append_inj h (Option.some.inj hlen)
  exact ⟨hfront, (List.cons.inj hback).2⟩

/-- And so is the last one. -/
theorem cut_unique_last {c : α} {a b a' b' : List α} (hb : c ∉ b) (hb' : c ∉ b')
    (h : a ++ c :: b = a' ++ c :: b') : a = a' ∧ b = b' := by
  have hrev := congrArg List.reverse h
  simp only [List.reverse_append, List.reverse_cons, List.append_assoc,
    List.singleton_append] at hrev
  obtain ⟨hback, hfront⟩ := cut_unique (by simpa using hb) (by simpa using hb') hrev
  exact ⟨List.reverse_inj.1 hfront, List.reverse_inj.1 hback⟩

/-- No end of the separator is a beginning of it. -/
def Unbordered (sep : List α) : Prop := ∀ d ∈ sep.tails, d ≠ sep → d <+: sep → d = []

instance (sep : List α) : Decidable (Unbordered sep) :=
  inferInstanceAs (Decidable (∀ d ∈ sep.tails, _))

omit [DecidableEq α] in
/-- Where one of two cuts at a separator is not before the other, it is the other. -/
theorem cut_sep_aux {sep c b b' : List α} (hsep : Unbordered sep) (hc : ¬ sep <:+: c)
    (h : sep ++ b = c ++ (sep ++ b')) : c = [] := by
  rcases List.append_eq_append_iff.1 h with ⟨d, rfl, -⟩ | ⟨d, rfl, hd⟩
  · exact absurd List.infix_append_left hc
  · by_cases hnil : d = []
    · rw [hnil, List.append_nil] at hc
      exact absurd List.infix_rfl hc
    · by_contra hne
      refine hnil (hsep d ((List.mem_tails _ _).2 (List.suffix_append c d)) ?_
        (List.prefix_of_prefix_length_le ⟨b, rfl⟩ ⟨b', hd⟩ ?_))
      · intro heq
        exact hne (by simpa using congrArg List.length heq)
      · rw [List.length_append]
        exact Nat.le_add_left _ _

omit [DecidableEq α] in
/-- **The first place of a separator is one place.** -/
theorem cut_sep_unique {sep a b a' b' : List α} (hsep : Unbordered sep) (ha : ¬ sep <:+: a)
    (ha' : ¬ sep <:+: a') (h : a ++ (sep ++ b) = a' ++ (sep ++ b')) : a = a' ∧ b = b' := by
  have haa' : a = a' := by
    rcases List.append_eq_append_iff.1 h with ⟨c, rfl, hc⟩ | ⟨c, rfl, hc⟩
    · rw [cut_sep_aux hsep (fun hin => ha' (hin.trans (List.suffix_append a c).isInfix)) hc,
        List.append_nil]
    · rw [cut_sep_aux hsep (fun hin => ha (hin.trans (List.suffix_append a' c).isInfix)) hc,
        List.append_nil]
  subst haa'
  exact ⟨rfl, List.append_cancel_left (List.append_cancel_left h)⟩

omit [DecidableEq α] in
/-- A prefix without the character ends before it. -/
theorem prefix_of_append_cons {c : α} {p l r : List α} (hc : c ∉ p) (h : p <+: l ++ c :: r) :
    p <+: l := by
  rcases List.prefix_or_prefix_of_prefix h (List.prefix_append l (c :: r)) with h' | ⟨q, rfl⟩
  · exact h'
  · cases q with
    | nil => rw [List.append_nil]
    | cons e q =>
      obtain ⟨rfl, -⟩ := List.cons_prefix_cons.1 ((List.prefix_append_right_inj l).1 h)
      exact absurd (List.mem_append_right l List.mem_cons_self) hc

/-- And nothing is found from the end. -/
theorem rfind_eq_none {c : α} {l : List α} : rfind c l = none ↔ c ∉ l := by
  rw [rfind, Option.map_eq_none_iff, ← List.mem_reverse]
  exact find_eq_none

/-- The last one is found. -/
theorem rfind_append {c : α} {post : List α} (h : c ∉ post) (pre : List α) :
    rfind c (pre ++ c :: post) = some pre.length := by
  have hrev : (pre ++ c :: post).reverse = post.reverse ++ c :: pre.reverse := by simp
  have hfind : (post.reverse ++ c :: pre.reverse).findIdx? (· = c) = some post.reverse.length :=
    find_append (mt List.mem_reverse.1 h) _
  rw [rfind, hrev, hfind]
  simp

omit [DecidableEq α] in
/-- A text with the character is cut at its first place. -/
theorem exists_find {c : α} {l : List α} (h : c ∈ l) :
    ∃ pre post, c ∉ pre ∧ l = pre ++ c :: post := by
  obtain ⟨pre, post, hl, hpre⟩ := List.eq_append_cons_of_mem h
  exact ⟨pre, post, hpre, hl⟩

omit [DecidableEq α] in
/-- And at its last. -/
theorem exists_rfind {c : α} {l : List α} (h : c ∈ l) :
    ∃ pre post, c ∉ post ∧ l = pre ++ c :: post := by
  obtain ⟨pre, post, hpre, hl⟩ := exists_find (List.mem_reverse.2 h)
  refine ⟨post.reverse, pre.reverse, mt List.mem_reverse.1 hpre, ?_⟩
  rw [← List.reverse_reverse l, hl]
  simp

end

/-! ## Blanks and words -/

variable {space : α → Bool}

/-- The text without the blanks at either end. -/
def trim (space : α → Bool) (l : List α) : List α := (l.dropWhile space).rdropWhile space

/-- The words of a text, the first of which has begun. -/
def wordsFrom (space : α → Bool) (word : List α) : List α → List (List α)
  | [] => if word.isEmpty then [] else [word]
  | c :: l =>
    if space c then
      if word.isEmpty then wordsFrom space [] l else word :: wordsFrom space [] l
    else wordsFrom space (word ++ [c]) l

/-- At the end stands the word that has begun. -/
theorem wordsFrom_nil (space : α → Bool) (word : List α) :
    wordsFrom space word [] = if word.isEmpty then [] else [word] := rfl

/-- A blank ends the word, and every other character belongs to it. -/
theorem wordsFrom_cons (space : α → Bool) (word : List α) (c : α) (l : List α) :
    wordsFrom space word (c :: l) =
      if space c then
        if word.isEmpty then wordsFrom space [] l else word :: wordsFrom space [] l
      else wordsFrom space (word ++ [c]) l := rfl

/-- The words of a text, between the blanks. -/
def words (space : α → Bool) (l : List α) : List (List α) := wordsFrom space [] l

/-- Characters that are no blanks belong to the word that has begun. -/
theorem wordsFrom_append {w : List α} (h : ∀ c ∈ w, space c = false) (word l : List α) :
    wordsFrom space word (w ++ l) = wordsFrom space (word ++ w) l := by
  induction w generalizing word with
  | nil => simp
  | cons c w ih =>
    rw [List.forall_mem_cons] at h
    rw [List.cons_append, wordsFrom_cons, if_neg (by simp [h.1]), ih h.2]
    simp

/-- A word and a blank come off the front. -/
theorem words_append {w : List α} (hw : w ≠ []) (h : ∀ c ∈ w, space c = false) {c : α}
    (hc : space c = true) (l : List α) : words space (w ++ c :: l) = w :: words space l := by
  rw [words, wordsFrom_append h, List.nil_append, wordsFrom_cons, if_pos hc,
    if_neg (by simpa using hw), words]

/-- A blank in front belongs to no word. -/
@[simp] theorem words_cons_space {c : α} (hc : space c = true) (l : List α) :
    words space (c :: l) = words space l := by
  rw [words, wordsFrom_cons, if_pos hc]
  rfl

/-- The words of a text of words, each with a blank before it. -/
theorem words_flatMap {c d : α} (hc : space c = true) (hd : space d = true) {ws : List (List α)}
    (h : ∀ w ∈ ws, w ≠ [] ∧ ∀ b ∈ w, space b = false) :
    words space (ws.flatMap (c :: ·) ++ [d]) = ws := by
  induction ws with
  | nil => exact words_cons_space hd []
  | cons w ws ih =>
    rw [List.forall_mem_cons] at h
    obtain ⟨⟨hw, hspace⟩, hws⟩ := h
    rw [List.flatMap_cons, List.cons_append, List.cons_append, words_cons_space hc,
      List.append_assoc]
    cases ws with
    | nil => exact words_append hw hspace hd []
    | cons w' ws =>
      have ih := ih hws
      rw [List.flatMap_cons, List.cons_append, List.cons_append] at ih ⊢
      rw [words_append hw hspace hc, ← ih, words_cons_space hc]

/-- What is stripped are blanks at both ends. -/
theorem exists_trim (space : α → Bool) (l : List α) :
    ∃ pre post, l = pre ++ trim space l ++ post ∧ (∀ c ∈ pre, space c = true) ∧
      ∀ c ∈ post, space c = true := by
  refine ⟨l.takeWhile space, (l.dropWhile space).rtakeWhile space, ?_,
    fun c hc => List.mem_takeWhile_imp hc, fun c hc => List.mem_rtakeWhile_imp hc⟩
  rw [trim, List.append_assoc, List.rdropWhile_append_rtakeWhile, List.takeWhile_append_dropWhile]

/-- Blanks behind are taken off the end. -/
theorem rdropWhile_append_of_pos {post : List α} (h : ∀ c ∈ post, space c = true) (l : List α) :
    (l ++ post).rdropWhile space = l.rdropWhile space := by
  induction post using List.reverseRecOn with
  | nil => rw [List.append_nil]
  | append_singleton post c ih =>
    rw [← List.append_assoc, List.rdropWhile_concat_pos _ _ _ (h c (by simp))]
    exact ih fun b hb => h b (List.mem_append_left _ hb)

/-- A text that is not blank is stripped of what stands around it, in front as far as blanks go. -/
theorem trim_append_core {core post : List α} (hne : core ≠ []) (h : ∀ c ∈ core, space c = false)
    (hpost : ∀ c ∈ post, space c = true) (pre : List α) :
    trim space (pre ++ core ++ post) = pre.dropWhile space ++ core := by
  have hfront : (pre ++ core).dropWhile space = pre.dropWhile space ++ core := by
    rw [List.dropWhile_append]
    split
    · next hnil =>
      rw [List.isEmpty_iff.1 hnil, List.nil_append]
      exact List.dropWhile_eq_self_iff.2 fun hlen => by simp [h _ (List.getElem_mem hlen)]
    · rfl
  have hdrop : (pre ++ core ++ post).dropWhile space = pre.dropWhile space ++ core ++ post := by
    rw [List.dropWhile_append, hfront, if_neg]
    simp [hne]
  rw [trim, hdrop, rdropWhile_append_of_pos hpost]
  refine List.rdropWhile_eq_self_iff.2 fun hne' => ?_
  rw [List.getLast_append_of_right_ne_nil _ _ hne, h _ (List.getLast_mem hne)]
  exact Bool.false_ne_true

/-- A text is stripped on either side of what is not blank. -/
theorem trim_append_cons {c : α} (hc : space c = false) (a b : List α) :
    trim space (a ++ c :: b) = a.dropWhile space ++ c :: b.rdropWhile space := by
  have hfront : (a ++ c :: b).dropWhile space = a.dropWhile space ++ c :: b := by
    rw [List.dropWhile_append]
    split
    · next hnil =>
      rw [List.isEmpty_iff.1 hnil, List.nil_append, List.dropWhile_cons_of_neg (by simp [hc])]
    · rfl
  rw [trim, hfront]
  generalize a.dropWhile space = front
  clear hfront
  induction b using List.reverseRecOn with
  | nil =>
    rw [List.rdropWhile_concat_neg _ _ _ (by simp [hc]), List.rdropWhile_nil]
  | append_singleton b d ih =>
    cases hd : space d with
    | true =>
      rw [List.rdropWhile_concat_pos _ _ _ hd, ← ih, ← List.cons_append, ← List.append_assoc,
        List.rdropWhile_concat_pos _ _ _ hd]
    | false =>
      rw [List.rdropWhile_concat_neg _ _ _ (by simp [hd]), ← List.cons_append, ← List.append_assoc,
        List.rdropWhile_concat_neg _ _ _ (by simp [hd])]

/-- A blank at the end adds no word. -/
theorem wordsFrom_concat {c : α} (hc : space c = true) (word l : List α) :
    wordsFrom space word (l ++ [c]) = wordsFrom space word l := by
  induction l generalizing word with
  | nil =>
    cases word <;> simp [wordsFrom_nil, wordsFrom_cons, hc]
  | cons b l ih =>
    rw [List.cons_append, wordsFrom_cons, wordsFrom_cons]
    split
    · split
      · exact ih []
      · rw [ih]
    · exact ih _

/-- Without the blanks in front the words are the same. -/
theorem words_dropWhile (l : List α) : words space (l.dropWhile space) = words space l := by
  induction l with
  | nil => rfl
  | cons c l ih =>
    cases hc : space c with
    | true => rw [List.dropWhile_cons_of_pos hc, ih, words_cons_space hc]
    | false => rw [List.dropWhile_cons_of_neg (by simp [hc])]

/-- Without the blanks behind the words are the same. -/
theorem words_rdropWhile (l : List α) : words space (l.rdropWhile space) = words space l := by
  induction l using List.reverseRecOn with
  | nil => rfl
  | append_singleton l c ih =>
    cases hc : space c with
    | true => rw [List.rdropWhile_concat_pos _ _ _ hc, ih, words, words, wordsFrom_concat hc]
    | false => rw [List.rdropWhile_concat_neg _ _ _ (by simp [hc])]

/-- **Stripping changes no word.** -/
@[simp] theorem words_trim (l : List α) : words space (trim space l) = words space l := by
  rw [trim, words_rdropWhile, words_dropWhile]

end

/-! ## Numbers -/

/-- `isspace` in the "C" locale. -/
def isSpace (c : UInt8) : Bool := (9 ≤ c && c ≤ 13) || c = 32

/-- `isdigit`. -/
def isDigit (c : UInt8) : Bool := 48 ≤ c && c ≤ 57

/-- A number in decimal digits, without zeros in front. -/
def decimal (n : Nat) : List UInt8 :=
  if n = 0 then [48] else (Nat.digits 10 n).reverse.map fun d => .ofNat (48 + d)

/-- `std::to_string`. -/
def showInt (n : Int) : List UInt8 :=
  if n < 0 then 45 :: decimal n.natAbs else decimal n.natAbs

/-- The number that digits stand for. -/
def value (digits : List UInt8) : Nat := digits.foldl (fun n c => 10 * n + (c.toNat - 48)) 0

/-- The number at the front. `none` where there is no digit. -/
def readDigits (l : List UInt8) : Option Nat :=
  let digits := l.takeWhile isDigit
  if digits.isEmpty then none else some (value digits)

/-- `strtol`, before what is read is compared with a type. -/
def strtol (l : List UInt8) : Option Int :=
  match l.dropWhile isSpace with
  | 45 :: l => (readDigits l).map fun n : Nat => -(n : Int)
  | 43 :: l => (readDigits l).map Nat.cast
  | l => (readDigits l).map Nat.cast

/-- `std::stoi`. It throws where there is no number, and where it is no `int`. -/
def stoi (l : List UInt8) : Option Int := (strtol l).filter fun n => -2 ^ 31 ≤ n && n < 2 ^ 31

/-- `std::stoll`. -/
def stoll (l : List UInt8) : Option Int := (strtol l).filter fun n => -2 ^ 63 ≤ n && n < 2 ^ 63

/-- `std::stoull`. It takes a sign. -/
def stoull (l : List UInt8) : Option Nat :=
  ((strtol l).filter fun n => n.natAbs < 2 ^ 64).map fun n => (n % 2 ^ 64).toNat

/-- The character of a digit is one. -/
theorem isDigit_ofNat {d : Nat} (h : d < 10) : isDigit (.ofNat (48 + d)) = true := by
  interval_cases d <;> rfl

/-- There are digits in a decimal, and nothing else. -/
theorem decimal_digits (n : Nat) : ∀ c ∈ decimal n, isDigit c = true := by
  intro c hc
  rw [decimal] at hc
  split at hc
  · rw [List.mem_singleton.1 hc]
    rfl
  · obtain ⟨d, hd, rfl⟩ := List.mem_map.1 hc
    exact isDigit_ofNat (Nat.digits_lt_base (by decide) (List.mem_reverse.1 hd))

/-- Every number has a digit. -/
theorem decimal_ne_nil (n : Nat) : decimal n ≠ [] := by
  rw [decimal]
  split
  · simp
  · next hn => simpa [Nat.digits_eq_nil_iff_eq_zero] using hn

/-- The number of digits that are written in their order. -/
theorem value_map {ds : List Nat} (h : ∀ d ∈ ds, d < 10) :
    value (ds.reverse.map fun d => .ofNat (48 + d)) = Nat.ofDigits 10 ds := by
  induction ds with
  | nil => rfl
  | cons d ds ih =>
    rw [List.forall_mem_cons] at h
    have hd : (UInt8.ofNat (48 + d)).toNat - 48 = d := by
      rw [UInt8.toNat_ofNat']
      omega
    have ih := ih h.2
    simp only [value] at ih
    rw [List.reverse_cons, List.map_append, value, List.foldl_append, ih]
    simp only [List.map_cons, List.map_nil, List.foldl_cons, List.foldl_nil, hd, Nat.ofDigits_cons]
    omega

/-- **A decimal stands for its number.** -/
theorem value_decimal (n : Nat) : value (decimal n) = n := by
  rw [decimal]
  split
  · next hn => rw [hn]; rfl
  · rw [value_map fun d hd => Nat.digits_lt_base (by decide) hd, Nat.ofDigits_digits]

/-- A number has one spelling without leading zeros. -/
theorem decimal_value {l : List UInt8} (hne : l ≠ []) (h : ∀ c ∈ l, isDigit c = true)
    (hzero : l.length = 1 ∨ l.head? ≠ some 48) : decimal (value l) = l := by
  have hdigit : ∀ c ∈ l, 48 ≤ c.toNat ∧ c.toNat ≤ 57 := by
    intro c hc
    have hc := h c hc
    rw [isDigit, Bool.and_eq_true, decide_eq_true_eq, decide_eq_true_eq] at hc
    exact hc
  -- the digits as numbers, the last one first
  have hl :
      (l.reverse.map fun c => c.toNat - 48).reverse.map (fun d => UInt8.ofNat (48 + d)) = l := by
    rw [← List.map_reverse, List.reverse_reverse, List.map_map]
    refine (List.map_congr_left fun c hc => ?_).trans (List.map_id l)
    rw [Function.comp_apply, Nat.add_sub_cancel' (hdigit c hc).1, UInt8.ofNat_toNat, id]
  have hlt : ∀ d ∈ l.reverse.map fun c => c.toNat - 48, d < 10 := by
    intro d hd
    obtain ⟨c, hc, rfl⟩ := List.mem_map.1 hd
    have hc := hdigit c (List.mem_reverse.1 hc)
    omega
  have hvalue : value l = Nat.ofDigits 10 (l.reverse.map fun c => c.toNat - 48) := by
    rw [← value_map hlt, hl]
  obtain ⟨c, l', rfl⟩ := List.exists_cons_of_ne_nil hne
  by_cases hc : c = 48
  · -- then it is the only digit
    subst hc
    rw [List.length_cons, List.head?_cons] at hzero
    rw [List.length_eq_zero_iff.1 (Nat.succ.inj (hzero.resolve_right fun hne => hne rfl))]
    rfl
  · have hlast : ∀ hne : (c :: l').reverse.map (fun c => c.toNat - 48) ≠ [],
        ((c :: l').reverse.map fun c => c.toNat - 48).getLast hne ≠ 0 := by
      intro hne hsub
      have hfirst := hdigit c List.mem_cons_self
      simp only [List.getLast_map, List.getLast_reverse, List.head_cons] at hsub
      have hfour : (48 : UInt8).toNat = 48 := rfl
      exact hc (UInt8.toNat_inj.1 (by omega))
    have hdigits := Nat.digits_ofDigits 10 (by decide) _ hlt hlast
    have hpos : value (c :: l') ≠ 0 := by
      intro hzero
      rw [← hvalue, hzero, Nat.digits_zero] at hdigits
      simp at hdigits
    rw [decimal, if_neg hpos, hvalue, hdigits, hl]

/-- No zero stands in front, but of zero itself. -/
theorem decimal_no_leading_zero (n : Nat) :
    (decimal n).length = 1 ∨ (decimal n).head? ≠ some 48 := by
  rw [decimal]
  split
  · exact .inl rfl
  · next hn =>
    right
    intro hhead
    rw [List.head?_map, List.head?_reverse, Option.map_eq_some_iff] at hhead
    obtain ⟨d, hd, hzero⟩ := hhead
    have hlt : d < 10 := Nat.digits_lt_base (by decide) (List.mem_of_getLast? hd)
    have hne : Nat.digits 10 n ≠ [] := Nat.digits_ne_nil_iff_ne_zero.2 hn
    rw [List.getLast?_eq_some_getLast hne, Option.some.injEq] at hd
    have hd0 : d ≠ 0 := hd ▸ Nat.getLast_digit_ne_zero 10 hn
    have hzero := congrArg UInt8.toNat hzero
    rw [UInt8.toNat_ofNat', Nat.mod_eq_of_lt (by omega)] at hzero
    exact hd0 (Nat.add_left_cancel hzero)

/-- How many digits a number has at most. -/
theorem length_decimal_le {n w : Nat} (hw : 0 < w) (h : n < 10 ^ w) : (decimal n).length ≤ w := by
  rw [decimal]
  split
  · exact hw
  · rw [List.length_map, List.length_reverse]
    exact (Nat.digits_length_le_iff (by decide) n).2 h

/-- No digit is a blank. -/
theorem isSpace_of_isDigit {c : UInt8} (h : isDigit c = true) : isSpace c = false := by
  rw [isDigit, Bool.and_eq_true, decide_eq_true_eq, decide_eq_true_eq] at h
  rw [isSpace, Bool.or_eq_false_iff, Bool.and_eq_false_iff, decide_eq_false_iff_not,
    decide_eq_false_iff_not, decide_eq_false_iff_not]
  simp only [UInt8.le_iff_toNat_le, ← UInt8.toNat_inj] at h ⊢
  have h9 : (48 : UInt8).toNat = 48 := rfl
  have h13 : (13 : UInt8).toNat = 13 := rfl
  have h32 : (32 : UInt8).toNat = 32 := rfl
  omega

/-- A decimal is read as its number. -/
theorem readDigits_decimal (n : Nat) : readDigits (decimal n) = some n := by
  have hall : (decimal n).takeWhile isDigit = decimal n :=
    List.takeWhile_eq_self_iff.2 (decimal_digits n)
  rw [readDigits, hall]
  simp only [List.isEmpty_iff, decimal_ne_nil, if_false, value_decimal]

/-- **What is written is read back.** -/
theorem strtol_showInt (n : Int) : strtol (showInt n) = some n := by
  rw [showInt]
  split
  · next hneg =>
    have hspace : (45 :: decimal n.natAbs).dropWhile isSpace = 45 :: decimal n.natAbs := rfl
    rw [strtol, hspace]
    show (readDigits (decimal n.natAbs)).map _ = some n
    rw [readDigits_decimal, Option.map_some, Int.ofNat_natAbs_of_nonpos (by omega), Int.neg_neg]
  · obtain ⟨c, l, hl⟩ := List.exists_cons_of_ne_nil (decimal_ne_nil n.natAbs)
    have hc : isDigit c = true := decimal_digits n.natAbs c (by simp [hl])
    have hspace : (decimal n.natAbs).dropWhile isSpace = decimal n.natAbs := by
      rw [hl, List.dropWhile_cons_of_neg (by simp [isSpace_of_isDigit hc])]
    rw [strtol, hspace]
    split
    · next h => cases hl.symm.trans h; cases hc
    · next h => cases hl.symm.trans h; cases hc
    · rw [readDigits_decimal, Option.map_some, Int.natAbs_of_nonneg (by omega)]

/-- No integer is written as nothing. -/
theorem showInt_ne_nil (n : Int) : showInt n ≠ [] := by
  rw [showInt]
  split
  · exact List.cons_ne_nil _ _
  · exact decimal_ne_nil _

/-- There are digits and a minus sign in an integer, and nothing else. -/
theorem mem_showInt {n : Int} {c : UInt8} (h : c ∈ showInt n) : c = 45 ∨ isDigit c = true := by
  rw [showInt] at h
  split at h
  · rcases List.mem_cons.1 h with rfl | h
    · exact .inl rfl
    · exact .inr (decimal_digits _ c h)
  · exact .inr (decimal_digits _ c h)

/-- There is no blank in an integer. -/
theorem showInt_not_space {n : Int} {c : UInt8} (h : c ∈ showInt n) : isSpace c = false := by
  rcases mem_showInt h with rfl | hc
  · rfl
  · exact isSpace_of_isDigit hc

/-- **`stoi` reads what is written**, where it is an `int`. -/
theorem stoi_showInt {n : Int} (hlow : -2 ^ 31 ≤ n) (hhigh : n < 2 ^ 31) :
    stoi (showInt n) = some n := by
  rw [stoi, strtol_showInt, Option.filter_some, if_pos]
  rw [decide_eq_true hlow, decide_eq_true hhigh]
  rfl

/-- **`stoull` reads what is written**, where it has 64 bits. -/
theorem stoull_showInt {n : Nat} (h : n < 2 ^ 64) : stoull (showInt n) = some n := by
  rw [stoull, strtol_showInt, Option.filter_some, if_pos (by simpa using h), Option.map_some]
  congr 1
  omega

end Scan
