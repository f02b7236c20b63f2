import FastCppServer.Lib.Scan

/-!
# Formatted reading and writing

`sscanf` reads a text by a list of directives and gives what it assigned, up to the first directive
that does not match. A number is read with the blanks before it, with a sign and with as many digits
as there are (`readInt`); what `std::setw` and `std::setfill('0')` write (`padded`) is read back
where no digit follows (`readInt_padded`).
-/

namespace Scan

/-! ## Numbers of a width -/

/-- `std::setw(width)` with `std::setfill('0')`, for a number that is not negative. -/
def padded (width n : Nat) : List UInt8 :=
  List.replicate (width - (decimal n).length) 48 ++ decimal n

/-- There are digits in a padded number, and nothing else. -/
theorem padded_digits (width n : Nat) : ∀ c ∈ padded width n, isDigit c = true := by
  intro c hc
  rcases List.mem_append.1 hc with hc | hc
  · rw [List.eq_of_mem_replicate hc]
    rfl
  · exact decimal_digits n c hc

/-- A padded number has a digit. -/
theorem padded_ne_nil (width n : Nat) : padded width n ≠ [] :=
  List.append_ne_nil_of_right_ne_nil _ (decimal_ne_nil n)

/-- A number that fits is as long as the width. -/
theorem length_padded {width n : Nat} (hw : 0 < width) (h : n < 10 ^ width) :
    (padded width n).length = width := by
  have hlen := length_decimal_le hw h
  rw [padded, List.length_append, List.length_replicate]
  omega

/-- The number of two texts of digits, one behind the other. -/
theorem value_append (a b : List UInt8) :
    value (a ++ b) = value a * 10 ^ b.length + value b := by
  induction b using List.reverseRecOn with
  | nil => rw [List.append_nil, List.length_nil, Nat.pow_zero, Nat.mul_one]; rfl
  | append_singleton b c ih =>
    have hlast : ∀ l : List UInt8, value (l ++ [c]) = 10 * value l + (c.toNat - 48) := by
      intro l
      rw [value, List.foldl_append]
      rfl
    rw [← List.append_assoc, hlast, hlast, ih, List.length_append, List.length_singleton,
      Nat.pow_succ]
    ring

/-- Zeros stand for zero. -/
theorem value_replicate_zero (k : Nat) : value (List.replicate k 48) = 0 := by
  induction k with
  | zero => rfl
  | succ k ih =>
    have hzero : value [48] = 0 := rfl
    rw [List.replicate_succ, ← List.singleton_append, value_append, ih, hzero, Nat.zero_mul]

/-- **A padded number stands for its number.** -/
theorem value_padded (width n : Nat) : value (padded width n) = n := by
  rw [padded, value_append, value_replicate_zero, value_decimal, Nat.zero_mul, Nat.zero_add]

/-- How large the number of digits is at most. -/
theorem value_lt {l : List UInt8} (h : ∀ c ∈ l, isDigit c = true) : value l < 10 ^ l.length := by
  induction l using List.reverseRecOn with
  | nil => exact Nat.one_pos
  | append_singleton l c ih =>
    have hl := ih fun d hd => h d (List.mem_append_left _ hd)
    have hc := h c (List.mem_append_right _ (List.mem_singleton_self c))
    rw [isDigit, Bool.and_eq_true, decide_eq_true_eq, decide_eq_true_eq] at hc
    have hc : c.toNat ≤ 57 := hc.2
    have hlast : value [c] = c.toNat - 48 := by
      rw [value, List.foldl_cons, List.foldl_nil, Nat.mul_zero, Nat.zero_add]
    have hlen : (l ++ [c]).length = l.length + 1 := List.length_append
    rw [value_append, hlast, hlen, Nat.pow_succ, List.length_singleton, Nat.pow_one]
    omega

/-- Digits with zeros behind them are digits. -/
theorem isDigit_resize {l : List UInt8} (h : ∀ c ∈ l, isDigit c = true) (k : Nat) :
    ∀ c ∈ l ++ List.replicate k 48, isDigit c = true := by
  intro c hc
  rcases List.mem_append.1 hc with hc | hc
  · exact h c hc
  · rw [List.eq_of_mem_replicate hc]
    rfl

/-- Digits cut or filled to a width. -/
theorem value_resize {frac : List UInt8} (h : ∀ c ∈ frac, isDigit c = true) (width : Nat) :
    value (frac.take width ++ List.replicate (width - frac.length) 48) =
      value frac * 10 ^ width / 10 ^ frac.length := by
  rcases Nat.le_total frac.length width with hle | hle
  · obtain ⟨k, rfl⟩ := Nat.exists_eq_add_of_le hle
    rw [List.take_of_length_le hle, Nat.add_sub_cancel_left, value_append, value_replicate_zero,
      List.length_replicate, Nat.pow_add, Nat.mul_comm (10 ^ frac.length), ← Nat.mul_assoc,
      Nat.mul_div_cancel _ (Nat.pow_pos (by decide)), Nat.add_zero]
  · obtain ⟨k, hk⟩ := Nat.exists_eq_add_of_le hle
    have hcut := value_append (frac.take width) (frac.drop width)
    have hrest := value_lt (l := frac.drop width) fun c hc => h c (List.mem_of_mem_drop hc)
    have hlen : (frac.drop width).length = k := by
      rw [List.length_drop, hk, Nat.add_sub_cancel_left]
    rw [List.take_append_drop, hlen] at hcut
    rw [hlen] at hrest
    rw [Nat.sub_eq_zero_of_le hle, List.replicate_zero, List.append_nil, hk, Nat.pow_add,
      Nat.mul_comm (10 ^ width), Nat.mul_div_mul_right _ _ (Nat.pow_pos (by decide)), hcut,
      Nat.add_comm, Nat.add_mul_div_right _ _ (Nat.pow_pos (by decide)), Nat.div_eq_of_lt hrest,
      Nat.zero_add]

/-! ## Reading by directives -/

/-- `%d`, `%c`, a blank, and any other character. -/
inductive Directive where
  | int | char | blank
  | literal (c : UInt8)

/-- The number at the front, with the blanks and the sign before it, and what follows. -/
def readInt (s : List UInt8) : Option (Int × List UInt8) :=
  match s.dropWhile isSpace with
  | 45 :: s => (readDigits s).map fun n : Nat => (-(n : Int), s.dropWhile isDigit)
  | 43 :: s => (readDigits s).map fun n : Nat => ((n : Int), s.dropWhile isDigit)
  | s => (readDigits s).map fun n : Nat => ((n : Int), s.dropWhile isDigit)

/-- What is stored in an `int`: the number as a `long`, the nearest one there is, cut to 32 bits. -/
def storeInt (n : Int) : Int := (max (-2 ^ 63) (min n (2 ^ 63 - 1))).bmod (2 ^ 32)

/-- What `sscanf` assigns. A character is given as its code. -/
def sscanf : List Directive → List UInt8 → List Int
  | [], _ => []
  | .int :: format, s =>
    match readInt s with
    | some (n, rest) => storeInt n :: sscanf format rest
    | none => []
  | .char :: format, c :: rest => (c.toNat : Int) :: sscanf format rest
  | .char :: _, [] => []
  | .blank :: format, s => sscanf format (s.dropWhile isSpace)
  | .literal c :: format, d :: rest => if d = c then sscanf format rest else []
  | .literal _ :: _, [] => []

/-- An `int` is stored as it is. -/
theorem storeInt_eq {n : Int} (hlow : -2 ^ 31 ≤ n) (hhigh : n < 2 ^ 31) : storeInt n = n := by
  rw [storeInt, min_eq_left (by omega), max_eq_right (by omega)]
  exact Int.bmod_eq_of_le (by omega) (by omega)

/-- The digits at the front are those before the first other character. -/
theorem takeWhile_digits {ds rest : List UInt8} (h : ∀ c ∈ ds, isDigit c = true)
    (hrest : ∀ c ∈ rest.head?, isDigit c = false) :
    (ds ++ rest).takeWhile isDigit = ds ∧ (ds ++ rest).dropWhile isDigit = rest := by
  rw [List.takeWhile_append_of_pos h, List.dropWhile_append_of_pos h]
  cases rest with
  | nil => exact ⟨List.append_nil ds, rfl⟩
  | cons c rest =>
    have hc : ¬ isDigit c = true := Bool.eq_false_iff.1 (hrest c rfl)
    rw [List.takeWhile_cons_of_neg hc, List.dropWhile_cons_of_neg hc]
    exact ⟨List.append_nil ds, rfl⟩

/-- They are read as their number. -/
theorem readDigits_append {ds rest : List UInt8} (hne : ds ≠ []) (h : ∀ c ∈ ds, isDigit c = true)
    (hrest : ∀ c ∈ rest.head?, isDigit c = false) :
    readDigits (ds ++ rest) = some (value ds) ∧ (ds ++ rest).dropWhile isDigit = rest := by
  obtain ⟨htake, hdrop⟩ := takeWhile_digits h hrest
  rw [readDigits, htake]
  simp only [List.isEmpty_iff, hne, if_false, hdrop, and_self]

/-- What is read is a number that no digit follows. -/
theorem readDigits_eq_some {s : List UInt8} {n : Nat} (h : readDigits s = some n) :
    ∃ ds, ds ≠ [] ∧ (∀ c ∈ ds, isDigit c = true) ∧ s = ds ++ s.dropWhile isDigit ∧
      (∀ c ∈ (s.dropWhile isDigit).head?, isDigit c = false) ∧ n = value ds := by
  rw [readDigits] at h
  split at h
  · cases h
  · next hne =>
    cases h
    refine ⟨s.takeWhile isDigit, by simpa using hne, fun c hc => List.mem_takeWhile_imp hc,
      List.takeWhile_append_dropWhile.symm, fun c hc => ?_, rfl⟩
    have hhead := List.head?_dropWhile_not isDigit s
    rw [hc] at hhead
    exact hhead

/-- The text of a number as `%d` takes it: blanks, a sign or none, and digits. -/
def Numeral (t : List UInt8) (n : Int) : Prop :=
  ∃ blanks sign ds, t = blanks ++ (sign ++ ds) ∧ (∀ c ∈ blanks, isSpace c = true) ∧ ds ≠ [] ∧
    (∀ c ∈ ds, isDigit c = true) ∧
    ((sign = [] ∨ sign = [43]) ∧ n = value ds ∨ sign = [45] ∧ n = -(value ds : Int))

/-- A numeral is not empty. -/
theorem Numeral.ne_nil {t : List UInt8} {n : Int} (h : Numeral t n) : t ≠ [] := by
  obtain ⟨blanks, sign, ds, rfl, -, hne, -⟩ := h
  exact List.append_ne_nil_of_right_ne_nil _ (List.append_ne_nil_of_right_ne_nil _ hne)

/-- What `%d` reads is a numeral. -/
theorem exists_numeral {s rest : List UInt8} {n : Int} (h : readInt s = some (n, rest)) :
    ∃ t, s = t ++ rest ∧ Numeral t n ∧ ∀ c ∈ rest.head?, isDigit c = false := by
  have hblanks : s.takeWhile isSpace ++ s.dropWhile isSpace = s :=
    List.takeWhile_append_dropWhile
  have hspace : ∀ c ∈ s.takeWhile isSpace, isSpace c = true := fun c hc =>
    List.mem_takeWhile_imp hc
  rw [readInt] at h
  split at h
  all_goals
    obtain ⟨k, hk, heq⟩ := Option.map_eq_some_iff.1 h
    cases heq
    obtain ⟨ds, hne, hds, hl, hrest, rfl⟩ := readDigits_eq_some hk
  · next l hsign =>
    refine ⟨s.takeWhile isSpace ++ ([45] ++ ds), ?_, ⟨_, [45], ds, rfl, hspace, hne, hds,
      .inr ⟨rfl, rfl⟩⟩, hrest⟩
    rw [List.append_assoc, List.append_assoc, ← hl, List.singleton_append, ← hsign, hblanks]
  · next l hsign =>
    refine ⟨s.takeWhile isSpace ++ ([43] ++ ds), ?_, ⟨_, [43], ds, rfl, hspace, hne, hds,
      .inl ⟨.inr rfl, rfl⟩⟩, hrest⟩
    rw [List.append_assoc, List.append_assoc, ← hl, List.singleton_append, ← hsign, hblanks]
  · refine ⟨s.takeWhile isSpace ++ ([] ++ ds), ?_, ⟨_, [], ds, rfl, hspace, hne, hds,
      .inl ⟨.inl rfl, rfl⟩⟩, hrest⟩
    rw [List.nil_append, List.append_assoc, ← hl, hblanks]

/-- And every numeral is read. -/
theorem Numeral.readInt_append {t rest : List UInt8} {n : Int} (h : Numeral t n)
    (hrest : ∀ c ∈ rest.head?, isDigit c = false) : readInt (t ++ rest) = some (n, rest) := by
  obtain ⟨blanks, sign, ds, rfl, hblanks, hne, hds, hsign⟩ := h
  obtain ⟨hread, hdrop⟩ := readDigits_append hne hds hrest
  rw [readInt, List.append_assoc, List.dropWhile_append_of_pos hblanks]
  rcases hsign with ⟨rfl | rfl, rfl⟩ | ⟨rfl, rfl⟩
  · -- the first digit is no blank and no sign
    obtain ⟨c, ds', rfl⟩ := List.exists_cons_of_ne_nil hne
    have hc := hds c List.mem_cons_self
    rw [List.nil_append, List.cons_append, List.dropWhile_cons_of_neg
      (by simp [isSpace_of_isDigit hc])]
    split
    · next h => cases h; cases hc
    · next h => cases h; cases hc
    · rw [← List.cons_append, hread, hdrop]
      rfl
  · have hplus : ([43] ++ ds ++ rest).dropWhile isSpace = 43 :: (ds ++ rest) := rfl
    rw [hplus]
    show (readDigits (ds ++ rest)).map
      (fun k : Nat => ((k : Int), (ds ++ rest).dropWhile isDigit)) = _
    rw [hread, hdrop]
    rfl
  · have hminus : ([45] ++ ds ++ rest).dropWhile isSpace = 45 :: (ds ++ rest) := rfl
    rw [hminus]
    show (readDigits (ds ++ rest)).map
      (fun k : Nat => (-(k : Int), (ds ++ rest).dropWhile isDigit)) = _
    rw [hread, hdrop]
    rfl

/-- **What `%d` takes**: a numeral that no digit follows. -/
theorem readInt_eq_some {s rest : List UInt8} {n : Int} :
    readInt s = some (n, rest) ↔
      ∃ t, s = t ++ rest ∧ Numeral t n ∧ ∀ c ∈ rest.head?, isDigit c = false := by
  constructor
  · intro h
    exact exists_numeral h
  · rintro ⟨t, rfl, hnumeral, hrest⟩
    exact hnumeral.readInt_append hrest

/-- Digits are a numeral. -/
theorem numeral_digits {ds : List UInt8} (hne : ds ≠ []) (h : ∀ c ∈ ds, isDigit c = true) :
    Numeral ds (value ds) := by
  refine ⟨[], [], ds, rfl, ?_, hne, h, .inl ⟨.inl rfl, rfl⟩⟩
  intro c hc
  cases hc

/-- Digits are read by `strtol`. -/
theorem strtol_digits {ds : List UInt8} (hne : ds ≠ []) (h : ∀ c ∈ ds, isDigit c = true) :
    strtol ds = some (value ds : Int) := by
  obtain ⟨c, ds', rfl⟩ := List.exists_cons_of_ne_nil hne
  have hc := h c List.mem_cons_self
  have hspace : (c :: ds').dropWhile isSpace = c :: ds' :=
    List.dropWhile_cons_of_neg (by simp [isSpace_of_isDigit hc])
  have hread : readDigits (c :: ds') = some (value (c :: ds')) := by
    rw [readDigits, List.takeWhile_eq_self_iff.2 h]
    rfl
  rw [strtol, hspace]
  split
  · next h => cases h; cases hc
  · next h => cases h; cases hc
  · rw [hread]
    rfl

/-- A character that is there is taken. -/
@[simp] theorem sscanf_literal (c : UInt8) (format : List Directive) (rest : List UInt8) :
    sscanf (.literal c :: format) (c :: rest) = sscanf format rest := if_pos rfl

/-- `%d` stores a number, and goes on behind it. -/
theorem sscanf_int_cons (format : List Directive) (s : List UInt8) :
    sscanf (.int :: format) s =
      match readInt s with
      | some (n, rest) => storeInt n :: sscanf format rest
      | none => [] := rfl

/-- A character is taken if it is there. -/
@[simp] theorem sscanf_literal_cons (c d : UInt8) (format : List Directive) (rest : List UInt8) :
    sscanf (.literal c :: format) (d :: rest) = if d = c then sscanf format rest else [] := rfl

/-- At the end no character is taken. -/
@[simp] theorem sscanf_literal_nil (c : UInt8) (format : List Directive) :
    sscanf (.literal c :: format) [] = [] := rfl

/-- Digits that no digit follows are taken by `%d`. -/
theorem sscanf_int {ds rest : List UInt8} (format : List Directive) (hne : ds ≠ [])
    (h : ∀ c ∈ ds, isDigit c = true) (hrest : ∀ c ∈ rest.head?, isDigit c = false) :
    sscanf (.int :: format) (ds ++ rest) = storeInt (value ds) :: sscanf format rest := by
  rw [sscanf_int_cons, readInt_eq_some.2 ⟨ds, rfl, numeral_digits hne h, hrest⟩]

/-- What `%d` has stored has been read. -/
theorem sscanf_int_eq_cons {format : List Directive} {s : List UInt8} {v : Int} {vs : List Int} :
    sscanf (.int :: format) s = v :: vs ↔
      ∃ n rest, readInt s = some (n, rest) ∧ storeInt n = v ∧ sscanf format rest = vs := by
  rw [sscanf_int_cons]
  cases readInt s with
  | none => simp
  | some r => simp [Prod.ext_iff, and_assoc]

/-- Something is stored behind a character only if the character is there. -/
theorem sscanf_literal_eq_cons {c : UInt8} {format : List Directive} {s : List UInt8} {v : Int}
    {vs : List Int} :
    sscanf (.literal c :: format) s = v :: vs ↔
      ∃ rest, s = c :: rest ∧ sscanf format rest = v :: vs := by
  cases s with
  | nil => simp
  | cons d rest =>
    rw [sscanf_literal_cons]
    by_cases hd : d = c
    · simp [hd]
    · simp [hd]

/-- Nothing is left for `%c`. -/
theorem sscanf_char_eq_nil {s : List UInt8} : sscanf [.char] s = [] ↔ s = [] := by
  cases s with
  | nil => simp [sscanf]
  | cons c rest => simp [sscanf]

/-- A number takes the blanks before it in any case. -/
theorem sscanf_blank_int (format : List Directive) (s : List UInt8) :
    sscanf (.blank :: .int :: format) s = sscanf (.int :: format) s := by
  have hread : readInt (s.dropWhile isSpace) = readInt s := by
    rw [readInt, readInt, List.dropWhile_idempotent]
  show sscanf (.int :: format) (s.dropWhile isSpace) = _
  rw [sscanf_int_cons, sscanf_int_cons, hread]

/-- A blank before a number makes no difference. -/
theorem sscanf_int_space {c : UInt8} (format : List Directive) (s : List UInt8)
    (hc : isSpace c = true) : sscanf (.int :: format) (c :: s) = sscanf (.int :: format) s := by
  have hread : readInt (c :: s) = readInt s := by
    rw [readInt, readInt, List.dropWhile_cons_of_pos hc]
  rw [sscanf_int_cons, sscanf_int_cons, hread]

end Scan
