import FastCppServer.Lib.Scan
import FastCppServer.MyAirdropLock.AirdropLock

/-!
# The duty cycle

`NormalizeDutyCycleCommand` takes exactly the texts of a number up to 999, with an `F` or `f` before
it or without, and gives the command of three digits (`normalizeDutyCycleCommand_ok_iff`). It throws
on every other text, and `SetDutyCycle` does not catch what it throws: its caller gets no `false`
and no `err` (`setDutyCycleErr_of_not_dutyCycle`).
-/

namespace MyAirdropLock

/-! ## Texts of a duty cycle -/

/-- The blanks `TrimCopy` strips. -/
def isBlank (c : Char) : Bool := c = ' ' || c = '\t' || c = '\r' || c = '\n'

/-- Blanks, an `F` or `f` or nothing, decimal digits that name `n`, and blanks. -/
def DutyCycle (text : String) (n : Nat) : Prop :=
  ∃ pre mark digits post : List Char, text.toList = pre ++ (mark ++ digits) ++ post ∧
    (∀ c ∈ pre, isBlank c = true) ∧ (∀ c ∈ post, isBlank c = true) ∧
    (mark = [] ∨ mark = ['F'] ∨ mark = ['f']) ∧ digits ≠ [] ∧
    (∀ c ∈ digits, isDigit c = true) ∧ Nat.ofDigitChars 10 digits 0 = n

/-- `F` and three digits. -/
def commandOf (n : Nat) : String :=
  .ofList ['F', (n / 100).digitChar, (n / 10 % 10).digitChar, (n % 10).digitChar]

/-- A digit by its code point. -/
theorem isDigit_iff {c : Char} : isDigit c = true ↔ 48 ≤ c.toNat ∧ c.toNat ≤ 57 := by
  rw [isDigit, Bool.and_eq_true, decide_eq_true_eq, decide_eq_true_eq]
  exact Iff.rfl

/-- The characters Lean prints for digits are digits of the source. -/
theorem isDigit_digitChar {d : Nat} (h : d < 10) : isDigit d.digitChar = true := by
  rw [isDigit_iff, Nat.toNat_digitChar_of_lt_ten h]
  omega

/-- No digit is a blank. -/
theorem isBlank_of_isDigit {c : Char} (h : isDigit c = true) : isBlank c = false := by
  cases hb : isBlank c with
  | false => rfl
  | true =>
    rw [isBlank] at hb
    simp only [Bool.or_eq_true, decide_eq_true_eq] at hb
    obtain ((rfl | rfl) | rfl) | rfl := hb <;> exact absurd h (by decide)

/-! ## The parts of the normalisation -/

/-- `TrimCopy` is the generic trim on the characters of the text. -/
theorem toList_trimCopy (value : String) :
    (trimCopy value).toList = Scan.trim isBlank value.toList := by
  rw [trimCopy, String.toList_ofList]
  rfl

/-- The fold of `stoi`, over the numbers that the digits are. -/
theorem foldl_digits {digits : List Char} (h : ∀ c ∈ digits, isDigit c = true) (k : Nat) :
    digits.foldl (fun n c => 10 * n + (c.toNat - '0'.toNat : Int)) (k : Int) =
      (Nat.ofDigitChars 10 digits k : Int) := by
  induction digits generalizing k with
  | nil => rfl
  | cons c digits ih =>
    rw [List.forall_mem_cons] at h
    have hc := isDigit_iff.1 h.1
    have h0 : '0'.toNat = 48 := rfl
    have hstep : 10 * (k : Int) + (c.toNat - '0'.toNat : Int) =
        ((10 * k + (c.toNat - 48) : Nat) : Int) := by omega
    rw [List.foldl_cons, hstep, ih h.2, Nat.ofDigitChars_cons, h0]

/-- `stoi` of decimal digits. -/
theorem stoi_digits {digits : List Char} (hne : digits ≠ [])
    (h : ∀ c ∈ digits, isDigit c = true) :
    stoi (.ofList digits) =
      if 2 ^ 31 ≤ Nat.ofDigitChars 10 digits 0 then .error "stoi"
      else .ok (Int32.ofInt (Nat.ofDigitChars 10 digits 0)) := by
  have htake : digits.takeWhile isDigit = digits := List.takeWhile_eq_self_iff.2 h
  have hfold := foldl_digits h 0
  obtain ⟨c, rest, rfl⟩ := List.exists_cons_of_ne_nil hne
  have hc := isDigit_iff.1 (h c List.mem_cons_self)
  have hminus : c ≠ '-' := fun hm => absurd hc.1 (by rw [hm]; decide)
  have hplus : c ≠ '+' := fun hm => absurd hc.1 (by rw [hm]; decide)
  have hspace : (c = ' ' || ('\t' ≤ c && c ≤ '\r')) = false := by
    rw [Bool.or_eq_false_iff, decide_eq_false_iff_not, Bool.and_eq_false_iff]
    refine ⟨fun hm => absurd hc.1 (by rw [hm]; decide), .inr (decide_eq_false fun hm => ?_)⟩
    have : c.toNat ≤ 13 := hm
    omega
  rw [stoi, String.toList_ofList]
  simp only
  rw [List.dropWhile_cons_of_neg (by simp [hspace])]
  split
  · next heq => exact absurd (List.cons.inj heq).1 hminus
  · next heq => exact absurd (List.cons.inj heq).1 hplus
  · have hvalue : List.foldl (fun n c => 10 * n + (c.toNat - '0'.toNat : Int)) 0 (c :: rest) =
        (Nat.ofDigitChars 10 (c :: rest) 0 : Int) := hfold
    simp only [htake, Int.one_mul, hvalue]
    generalize Nat.ofDigitChars 10 (c :: rest) 0 = n
    by_cases hn : 2 ^ 31 ≤ n
    · rw [if_pos hn, if_pos (.inr (.inr (by omega)))]
    · rw [if_neg hn, if_neg]
      rintro (hnil | hlow | hhigh)
      · cases hnil
      · omega
      · omega

/-- The digits of a command: zeros in front, up to three. -/
theorem padded_digits {n : Nat} (h : n ≤ 999) :
    List.replicate (3 - (Nat.toDigits 10 n).length) '0' ++ Nat.toDigits 10 n =
      [(n / 100).digitChar, (n / 10 % 10).digitChar, (n % 10).digitChar] := by
  have hone : ∀ d < 10, Nat.toDigits 10 d = [d.digitChar] := fun d hd =>
    Nat.toDigits_of_lt_base hd
  by_cases h10 : n < 10
  · rw [hone n h10, Nat.div_eq_of_lt (show n < 100 by omega), Nat.div_eq_of_lt h10,
      Nat.mod_eq_of_lt h10]
    rfl
  by_cases h100 : n < 100
  · rw [Nat.toDigits_of_base_le (by decide) (Nat.not_lt.1 h10), hone (n / 10) (by omega),
      Nat.div_eq_of_lt h100, Nat.mod_eq_of_lt (show n / 10 < 10 by omega)]
    rfl
  · rw [Nat.toDigits_of_base_le (by decide) (Nat.not_lt.1 h10),
      Nat.toDigits_of_base_le (by decide) (show 10 ≤ n / 10 by omega),
      hone (n / 10 / 10) (by omega), Nat.div_div_eq_div_mul]
    rfl

/-- A text that is a duty cycle, stripped of its blanks. -/
theorem trim_dutyCycle {pre mark digits post : List Char} (hpre : ∀ c ∈ pre, isBlank c = true)
    (hpost : ∀ c ∈ post, isBlank c = true) (hmark : mark = [] ∨ mark = ['F'] ∨ mark = ['f'])
    (hne : digits ≠ []) (hdigits : ∀ c ∈ digits, isDigit c = true) :
    Scan.trim isBlank (pre ++ (mark ++ digits) ++ post) = mark ++ digits := by
  have hcore : ∀ c ∈ mark ++ digits, isBlank c = false := by
    intro c hc
    rcases List.mem_append.1 hc with hc | hc
    · rcases hmark with rfl | rfl | rfl
      · cases hc
      · rw [List.mem_singleton.1 hc]; rfl
      · rw [List.mem_singleton.1 hc]; rfl
    · exact isBlank_of_isDigit (hdigits c hc)
  rw [Scan.trim_append_core (List.append_ne_nil_of_right_ne_nil _ hne) hcore hpost,
    List.dropWhile_eq_nil_iff.2 hpre, List.nil_append]

/-- What the normalisation does behind the stripping and the `F`. -/
def normalizeDigits (value : List Char) : Except String String :=
  if value = [] ∨ ¬ value.all isDigit then .error "占空比/频率必须是数字，示例：50 或 F050"
  else
    match stoi (.ofList value) with
    | .error what => .error what
    | .ok n =>
      if n < 0 ∨ 999 < n then .error "占空比/频率范围必须在 0~999 之间"
      else
        let digits := (toString n.toInt).toList
        .ok (.ofList ('F' :: (List.replicate (3 - digits.length) '0' ++ digits)))

/-- Normalisation as a match on the trimmed characters. -/
theorem normalizeDutyCycleCommand_eq (dutyCycle : String) :
    normalizeDutyCycleCommand dutyCycle =
      match Scan.trim isBlank dutyCycle.toList with
      | [] => .error "占空比/频率不能为空"
      | c :: rest => normalizeDigits (if c = 'F' ∨ c = 'f' then rest else c :: rest) := by
  rw [← toList_trimCopy, normalizeDutyCycleCommand]
  cases (trimCopy dutyCycle).toList with
  | nil => rfl
  | cons c rest => rfl

/-- The digits are accepted exactly when there are some, nothing else, and their value is at most
999. -/
theorem normalizeDigits_ok_iff {value : List Char} {command : String} :
    normalizeDigits value = .ok command ↔
      value ≠ [] ∧ (∀ c ∈ value, isDigit c = true) ∧ Nat.ofDigitChars 10 value 0 ≤ 999 ∧
        command = commandOf (Nat.ofDigitChars 10 value 0) := by
  by_cases hv : value = [] ∨ ¬ value.all isDigit
  · rw [normalizeDigits, if_pos hv]
    refine ⟨(fun h => by cases h), fun ⟨hne, hall, _⟩ => ?_⟩
    exact absurd hv (not_or.2 ⟨hne, not_not.2 (List.all_eq_true.2 hall)⟩)
  rw [normalizeDigits, if_neg hv]
  obtain ⟨hne, hall⟩ := not_or.1 hv
  rw [not_not, List.all_eq_true] at hall
  rw [stoi_digits hne hall]
  generalize Nat.ofDigitChars 10 value 0 = n
  by_cases hn : 2 ^ 31 ≤ n
  · rw [if_pos hn]
    refine ⟨(fun h => by cases h), fun ⟨_, _, hle, _⟩ => by omega⟩
  rw [if_neg hn]
  have hint : (Int32.ofInt n).toInt = n := Int32.toInt_ofInt_of_le (by omega) (by omega)
  have hlt : ¬ Int32.ofInt n < 0 := by
    rw [Int32.lt_iff_toInt_lt, hint]
    exact Int.not_lt.2 (Int.natCast_nonneg n)
  have hgt : 999 < Int32.ofInt n ↔ 999 < n := by
    rw [Int32.lt_iff_toInt_lt, hint]
    exact Int.ofNat_lt
  simp only [hint, hgt, hlt, false_or]
  by_cases h999 : n ≤ 999
  · have hdigits : (toString (n : Int)).toList = Nat.toDigits 10 n := Nat.toList_repr
    rw [if_neg (Nat.not_lt.2 h999), hdigits, padded_digits h999]
    exact ⟨fun h => ⟨hne, hall, h999, (Except.ok.inj h).symm⟩, fun h => by rw [h.2.2.2, commandOf]⟩
  · rw [if_pos (Nat.lt_of_not_le h999)]
    exact ⟨(fun h => by cases h), fun h => absurd h.2.2.1 h999⟩

/-- **The normalisation.** -/
theorem normalizeDutyCycleCommand_ok_iff {dutyCycle command : String} :
    normalizeDutyCycleCommand dutyCycle = .ok command ↔
      ∃ n, DutyCycle dutyCycle n ∧ n ≤ 999 ∧ command = commandOf n := by
  rw [normalizeDutyCycleCommand_eq]
  constructor
  · intro h
    obtain ⟨pre, post, hsplit, hpre, hpost⟩ := Scan.exists_trim isBlank dutyCycle.toList
    generalize Scan.trim isBlank dutyCycle.toList = core at h hsplit
    cases core with
    | nil => cases h
    | cons c rest =>
      by_cases hc : c = 'F' ∨ c = 'f'
      · simp only [if_pos hc] at h
        obtain ⟨hne, hall, hle, rfl⟩ := normalizeDigits_ok_iff.1 h
        refine ⟨_, ⟨pre, [c], rest, post, hsplit, hpre, hpost, .inr ?_, hne, hall, rfl⟩, hle, rfl⟩
        exact hc.imp (congrArg (fun c => [c])) (congrArg (fun c => [c]))
      · simp only [if_neg hc] at h
        obtain ⟨hne, hall, hle, rfl⟩ := normalizeDigits_ok_iff.1 h
        exact ⟨_, ⟨pre, [], c :: rest, post, hsplit, hpre, hpost, .inl rfl, hne, hall, rfl⟩, hle,
          rfl⟩
  · rintro ⟨n, ⟨pre, mark, digits, post, htext, hpre, hpost, hmark, hne, hall, rfl⟩, hle, rfl⟩
    rw [htext, trim_dutyCycle hpre hpost hmark hne hall]
    have hok := normalizeDigits_ok_iff.2 ⟨hne, hall, hle, rfl⟩
    obtain ⟨d, ds, rfl⟩ := List.exists_cons_of_ne_nil hne
    rcases hmark with rfl | rfl | rfl
    · have hd := isDigit_iff.1 (hall d List.mem_cons_self)
      have hd' : ¬ (d = 'F' ∨ d = 'f') := by
        rintro (rfl | rfl) <;> exact absurd hd (by decide)
      simp only [List.nil_append, if_neg hd']
      exact hok
    · exact hok
    · exact hok

/-! ## The commands themselves -/

/-- The normal form of a number up to 999 denotes that number. -/
theorem dutyCycle_commandOf {n : Nat} (h : n ≤ 999) : DutyCycle (commandOf n) n := by
  have h100 : n / 100 < 10 := by omega
  have h10 : n / 10 % 10 < 10 := Nat.mod_lt _ (by decide)
  have h1 : n % 10 < 10 := Nat.mod_lt _ (by decide)
  refine ⟨[], ['F'], [(n / 100).digitChar, (n / 10 % 10).digitChar, (n % 10).digitChar], [], ?_,
    by simp, by simp, by simp, by simp, ?_, ?_⟩
  · rw [commandOf, String.toList_ofList]
    rfl
  · intro c hc
    simp only [List.mem_cons, List.not_mem_nil, or_false] at hc
    obtain rfl | rfl | rfl := hc
    · exact isDigit_digitChar h100
    · exact isDigit_digitChar h10
    · exact isDigit_digitChar h1
  · rw [Nat.ofDigitChars_cons_digitChar_of_lt_ten h100,
      Nat.ofDigitChars_cons_digitChar_of_lt_ten h10, Nat.ofDigitChars_cons_digitChar_of_lt_ten h1,
      Nat.ofDigitChars_nil]
    omega

/-- Normalising twice is normalising once. -/
theorem normalizeDutyCycleCommand_idem {dutyCycle command : String}
    (h : normalizeDutyCycleCommand dutyCycle = .ok command) :
    normalizeDutyCycleCommand command = .ok command := by
  obtain ⟨n, -, hle, rfl⟩ := normalizeDutyCycleCommand_ok_iff.1 h
  exact normalizeDutyCycleCommand_ok_iff.2 ⟨n, dutyCycle_commandOf hle, hle, rfl⟩

/-- A text of a number up to 999. -/
def Accepted (text : String) : Prop := ∃ n, DutyCycle text n ∧ n ≤ 999

/-- The accepted texts are those the normalisation answers with a command. -/
theorem accepted_iff {text : String} :
    Accepted text ↔ ∃ command, normalizeDutyCycleCommand text = .ok command := by
  constructor
  · intro ⟨n, hn, hle⟩
    exact ⟨commandOf n, normalizeDutyCycleCommand_ok_iff.2 ⟨n, hn, hle, rfl⟩⟩
  · intro ⟨command, h⟩
    obtain ⟨n, hn, hle, -⟩ := normalizeDutyCycleCommand_ok_iff.1 h
    exact ⟨n, hn, hle⟩

/-- Every other text is answered with an error. -/
theorem normalizeDutyCycleCommand_error {text : String} (h : ¬ Accepted text) :
    ∃ what, normalizeDutyCycleCommand text = .error what := by
  cases hn : normalizeDutyCycleCommand text with
  | error what => exact ⟨what, rfl⟩
  | ok command => exact absurd (accepted_iff.2 ⟨command, hn⟩) h

/-! ## `std::to_string` -/

/-- The decimal expansion of a number holds digits only. -/
theorem isDigit_toDigits {n : Nat} : ∀ c ∈ Nat.toDigits 10 n, isDigit c = true := by
  intro c hc
  have h := Nat.isDigit_of_mem_toDigits (by decide) (by decide) hc
  rw [Char.isDigit, Bool.and_eq_true, decide_eq_true_eq, decide_eq_true_eq] at h
  exact isDigit_iff.2 h

/-- A text that denotes a duty cycle holds no minus sign. -/
theorem notMem_minus {text : String} {n : Nat} (h : DutyCycle text n) : '-' ∉ text.toList := by
  obtain ⟨pre, mark, digits, post, htext, hpre, hpost, hmark, -, hall, -⟩ := h
  rw [htext]
  intro hm
  rcases List.mem_append.1 hm with hm | hm
  · rcases List.mem_append.1 hm with hm | hm
    · exact absurd (hpre _ hm) (by decide)
    · rcases List.mem_append.1 hm with hm | hm
      · rcases hmark with rfl | rfl | rfl <;> exact absurd hm (by decide)
      · exact absurd (hall _ hm) (by decide)
  · exact absurd (hpost _ hm) (by decide)

/-- A text of digits alone is the duty cycle that the digits name, and no other. -/
theorem dutyCycle_digits_iff {text : String} (hne : text.toList ≠ [])
    (h : ∀ c ∈ text.toList, isDigit c = true) {n : Nat} :
    DutyCycle text n ↔ Nat.ofDigitChars 10 text.toList 0 = n := by
  constructor
  · intro ⟨pre, mark, digits, post, htext, hpre, hpost, hmark, _, _, hvalue⟩
    rw [htext] at h
    have hempty : ∀ l : List Char, (∀ c ∈ l, isBlank c = true) → (∀ c ∈ l, isDigit c = true) →
        l = [] := by
      intro l hblank hdigit
      cases l with
      | nil => rfl
      | cons c l =>
        have hc := hblank c List.mem_cons_self
        rw [isBlank_of_isDigit (hdigit c List.mem_cons_self)] at hc
        cases hc
    obtain rfl := hempty pre hpre fun c hc => h c (by simp [hc])
    obtain rfl := hempty post hpost fun c hc => h c (by simp [hc])
    have hnil : mark = [] := by
      rcases hmark with rfl | rfl | rfl
      · rfl
      · exact absurd (h 'F' (by simp)) (by decide)
      · exact absurd (h 'f' (by simp)) (by decide)
    rw [htext, hnil, ← hvalue]
    simp
  · intro hvalue
    exact ⟨[], [], text.toList, [], by simp, by simp, by simp, .inl rfl, hne, h, hvalue⟩

/-- Of the numbers handed over as integers, exactly those from 0 to 999 are accepted. -/
theorem accepted_toString (n : Int32) : Accepted (toString n.toInt) ↔ 0 ≤ n ∧ n ≤ 999 := by
  have h999 : (999 : Int32).toInt = 999 := rfl
  have h0 : (0 : Int32).toInt = 0 := rfl
  rw [Int32.le_iff_toInt_le, Int32.le_iff_toInt_le, h999, h0, Int.toString_eq_repr,
    Int.repr_eq_if]
  by_cases hn : 0 ≤ n.toInt
  · have hlist : n.toInt.toNat.repr.toList = Nat.toDigits 10 n.toInt.toNat := Nat.toList_repr
    have hdigits : ∀ k, DutyCycle n.toInt.toNat.repr k ↔ n.toInt.toNat = k := by
      intro k
      rw [dutyCycle_digits_iff (by rw [hlist]; exact Nat.toDigits_ne_nil)
        (by rw [hlist]; exact isDigit_toDigits), hlist, Nat.ofDigitChars_ten_toDigits]
    rw [if_pos hn]
    constructor
    · intro ⟨k, hk, hle⟩
      have := (hdigits k).1 hk
      omega
    · intro ⟨_, hle⟩
      exact ⟨n.toInt.toNat, (hdigits _).2 rfl, by omega⟩
  · rw [if_neg hn]
    refine ⟨fun ⟨k, hk, _⟩ => ?_, fun h => absurd h.1 hn⟩
    refine absurd ?_ (notMem_minus hk)
    rw [String.toList_append]
    exact List.mem_append_left _ (by decide)

/-! ## `SetDutyCycle` -/

/-- What a call leaves: what it returns or throws, `err`, and the manager. -/
structure Call where
  result : Except String Bool
  err : String
  manager : Manager

/-- `SetDutyCycle` with its `err`. `SendCommandLocked` sets it to the last error on every path; what
`NormalizeDutyCycleCommand` throws is not caught. -/
def Manager.setDutyCycleErr (m : Manager) (dutyCycle err : String) (o : Outcome) : Call :=
  match normalizeDutyCycleCommand dutyCycle with
  | .error what => ⟨.error what, err, m⟩
  | .ok command =>
    match m.sendCommandLocked command "设置占空比/频率" o with
    | (false, m) => ⟨.ok false, m.lastError, m⟩
    | (true, m) => ⟨.ok true, m.lastError, { m with currentDutyCycle := trimCopy dutyCycle }⟩

/-- `SetDutyCycle(int)`. -/
def Manager.setDutyCycleInt (m : Manager) (dutyCycle : Int32) (err : String) (o : Outcome) : Call :=
  m.setDutyCycleErr (toString dutyCycle.toInt) err o

/-- The calls of the step are those with an `err`. -/
theorem setDutyCycle_eq (m : Manager) (dutyCycle err : String) (o : Outcome) :
    m.setDutyCycle dutyCycle o =
      (m.setDutyCycleErr dutyCycle err o).result.map
        fun b => (b, (m.setDutyCycleErr dutyCycle err o).manager) := by
  unfold Manager.setDutyCycle Manager.setDutyCycleErr
  cases normalizeDutyCycleCommand dutyCycle with
  | error what => rfl
  | ok command =>
    dsimp only
    cases m.sendCommandLocked command "设置占空比/频率" o with
    | mk b m' => cases b <;> rfl

/-- `false` with a text in `err`; nothing is written and the manager is as it was. -/
structure Rejected (m : Manager) (c : Call) : Prop where
  result : c.result = .ok false
  err : c.err ≠ ""
  manager : c.manager = m

/-- A text that is no duty cycle throws. -/
theorem setDutyCycleErr_of_not_accepted {dutyCycle : String} (h : ¬ Accepted dutyCycle)
    (m : Manager) (err : String) (o : Outcome) :
    ∃ what, m.setDutyCycleErr dutyCycle err o = ⟨.error what, err, m⟩ := by
  obtain ⟨what, hwhat⟩ := normalizeDutyCycleCommand_error h
  refine ⟨what, ?_⟩
  rw [Manager.setDutyCycleErr, hwhat]

/-- The call answers a bad text as asked only where the text is not bad: on every other it
throws. -/
theorem rejected_iff (m : Manager) (dutyCycle err : String) (o : Outcome) :
    (¬ Accepted dutyCycle → Rejected m (m.setDutyCycleErr dutyCycle err o)) ↔
      Accepted dutyCycle := by
  constructor
  · intro h
    by_contra hn
    obtain ⟨what, hwhat⟩ := setDutyCycleErr_of_not_accepted hn m err o
    have hresult := (h hn).result
    rw [hwhat] at hresult
    cases hresult
  · exact fun h hn => absurd h hn

/-- **Duty cycles.** The normalisation is as it should be, for every text; what it throws leaves the
manager and the line as they were, but it comes out of `SetDutyCycle`, so that a rejected input is
never answered with `false` and a text in `err`. -/
theorem dutyCycle_spec (dutyCycle : String) (n : Int32) (m : Manager) (err : String)
    (o : Outcome) :
    (∀ command, normalizeDutyCycleCommand dutyCycle = .ok command ↔
        ∃ k, DutyCycle dutyCycle k ∧ k ≤ 999 ∧ command = commandOf k) ∧
      (∀ command, normalizeDutyCycleCommand dutyCycle = .ok command →
        normalizeDutyCycleCommand command = .ok command) ∧
      ((¬ Accepted dutyCycle → Rejected m (m.setDutyCycleErr dutyCycle err o)) ↔
        Accepted dutyCycle) ∧
      ((¬ (0 ≤ n ∧ n ≤ 999) → Rejected m (m.setDutyCycleInt n err o)) ↔ 0 ≤ n ∧ n ≤ 999) ∧
      (¬ Accepted dutyCycle →
        ∃ what, m.setDutyCycleErr dutyCycle err o = ⟨.error what, err, m⟩) := by
  refine ⟨fun command => normalizeDutyCycleCommand_ok_iff,
    fun command => normalizeDutyCycleCommand_idem, rejected_iff m dutyCycle err o, ?_,
    fun h => setDutyCycleErr_of_not_accepted h m err o⟩
  rw [← accepted_toString]
  exact rejected_iff m _ err o

/-- 1000 as text and as a number: both throw. -/
theorem dutyCycle_spec_1000 :
    (∃ what, Manager.setDutyCycleErr {} "1000" "" (.returns 0) = ⟨.error what, "", {}⟩) ∧
      normalizeDutyCycleCommand "F050" = .ok "F050" :=
  ⟨(dutyCycle_spec "1000" 1000 {} "" (.returns 0)).2.2.2.2
      (by rw [accepted_iff]; intro ⟨command, h⟩; cases h),
    (dutyCycle_spec " f50\n" 50 {} "" (.returns 0)).2.1 "F050" rfl⟩

/-- The text `1000` is one that makes it throw. -/
theorem setDutyCycle_not_rejected :
    ¬ ∀ (m : Manager) (dutyCycle err : String) (o : Outcome), ¬ Accepted dutyCycle →
      Rejected m (m.setDutyCycleErr dutyCycle err o) := by
  intro h
  have hn : ¬ Accepted "1000" := by
    rw [accepted_iff]
    intro ⟨command, hc⟩
    cases hc
  have hresult : Except.error "占空比/频率范围必须在 0~999 之间" = .ok false :=
    (h {} "1000" "" (.returns 0) hn).result
  cases hresult

end MyAirdropLock
