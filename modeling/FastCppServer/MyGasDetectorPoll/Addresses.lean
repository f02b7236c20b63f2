import FastCppServer.MyGasDetectorPoll.Config

/-!
# The grammar of the addresses

A text of addresses is `item (',' item)*`, an item being a number or an ascending range, with blanks
around items and bounds (`Items`). What `ParseAddresses` accepts is that with three liberties: a
comma after the last item, a plus sign before a number, and vertical tabs and form feeds before it
(`AddressText`, `LooseNumber`; `stoull` takes the last two). So it is exact just for the values that
use none of them, or are not accepted all the same (`parses_exactly_iff`).
-/

namespace MyGasDetectorPoll

open MyData

/-! ## The grammar -/

/-- The blanks that `TrimCopy` takes off. -/
def isBlank (c : UInt8) : Bool := c ∈ [32, 9, 13, 10]

/-- A number in decimal digits. -/
structure Digits (digits : List UInt8) (n : Nat) : Prop where
  ne_nil : digits ≠ []
  isDigit : ∀ c ∈ digits, Scan.isDigit c = true
  value_eq : Scan.value digits = n

/-- A number, with blanks around it. -/
def PlainNumber (text : List UInt8) (n : Nat) : Prop :=
  ∃ pre digits post, text = pre ++ digits ++ post ∧ (∀ c ∈ pre, isBlank c = true) ∧
    Digits digits n ∧ ∀ c ∈ post, isBlank c = true

/-- A number as `stoull` takes it, with blanks around it. -/
def LooseNumber (text : List UInt8) (n : Nat) : Prop :=
  ∃ pre sign digits post, text = pre ++ sign ++ digits ++ post ∧
    (∀ c ∈ pre, Scan.isSpace c = true) ∧ (sign = [] ∨ sign = [43]) ∧ Digits digits n ∧
      ∀ c ∈ post, isBlank c = true

variable (number : List UInt8 → Nat → Prop)

/-- An item, and what it names. -/
inductive Item : List UInt8 → List Nat → Prop where
  | single {text : List UInt8} {n : Nat} (hn : number text n) (hlow : 1 ≤ n) (hhigh : n ≤ 255) :
      Item text [n]
  | range {a b : List UInt8} {m n : Nat} (hm : number a m) (hn : number b n) (hlow : 1 ≤ m)
      (hle : m ≤ n) (hhigh : n ≤ 255) : Item (a ++ 45 :: b) (List.range' m (n + 1 - m))

/-- Items with commas between them, and what they name. -/
inductive Items : List UInt8 → List Nat → Prop where
  | last {text : List UInt8} {ns : List Nat} (h : Item number text ns) : Items text ns
  | cons {item rest : List UInt8} {ns ms : List Nat} (h : Item number item ns)
      (hrest : Items rest ms) : Items (item ++ 44 :: rest) (ns ++ ms)

/-- Items, with or without a comma after the last one. -/
def AddressText (text : List UInt8) (ns : List Nat) : Prop :=
  Items LooseNumber text ns ∨
    ∃ items post, text = items ++ 44 :: post ∧ Items LooseNumber items ns ∧
      ∀ c ∈ post, isBlank c = true

/-- The bytes of a text. -/
def bytes (s : String) : List UInt8 := s.toUTF8.data.toList

variable (text : List UInt8 → List Nat → Prop)

/-- A number or a text. -/
inductive One : Json → List Nat → Prop where
  | number {n : Nat} (hlow : 1 ≤ n) (hhigh : n ≤ 255) : One (.integer n) [n]
  | text {s : String} {ns : List Nat} (h : text (bytes s) ns) : One (.string s) ns

/-- A number, a text, or a list of them that is not empty. -/
inductive Value : Json → List Nat → Prop where
  | one {value : Json} {ns : List Nat} (h : One text value ns) : Value value ns
  | list {values : List Json} {nss : List (List Nat)} (hne : values ≠ [])
      (h : List.Forall₂ (One text) values nss) : Value (.array values) nss.flatten

/-- The addresses in the order of their first occurrence. -/
def named (ns : List Nat) : List UInt8 := ns.eraseDups.map .ofNat

/-! ## What an item adds -/

/-- What `AppendAddress` makes of an address in its range. -/
def Addresses.add (s : Addresses) (n : Nat) : Addresses :=
  if n ∈ s.seen then s else { addresses := s.addresses ++ [.ofNat n], seen := insert n s.seen }

/-- What the loop makes of addresses in their range. -/
def Addresses.addAll (s : Addresses) (ns : List Nat) : Addresses := ns.foldl Addresses.add s

variable {s t : Addresses}

/-- Addresses are added one after the other. -/
@[simp] theorem addAll_append (s : Addresses) (ns ms : List Nat) :
    s.addAll (ns ++ ms) = (s.addAll ns).addAll ms := List.foldl_append

/-- An address is taken if it is in its range. -/
theorem appendAddress_ok_iff {n : Nat} :
    appendAddress s n = .ok t ↔ 1 ≤ n ∧ n ≤ 255 ∧ t = s.add n := by
  rw [appendAddress, Addresses.add]
  by_cases hrange : n < 1 ∨ 255 < n
  · rw [if_pos hrange]
    constructor
    · intro h
      cases h
    · rintro ⟨hlow, hhigh, -⟩
      omega
  · rw [if_neg hrange]
    split <;>
      exact ⟨fun h => ⟨by omega, by omega, (Except.ok.inj h).symm⟩, fun h => by rw [h.2.2]⟩

/-- Addresses are taken if all of them are in their range. -/
theorem foldlM_appendAddress_ok_iff {ns : List Nat} :
    ns.foldlM appendAddress s = .ok t ↔ (∀ n ∈ ns, 1 ≤ n ∧ n ≤ 255) ∧ t = s.addAll ns := by
  induction ns generalizing s with
  | nil =>
    constructor
    · intro h
      exact ⟨fun n hn => absurd hn List.not_mem_nil, (Except.ok.inj h).symm⟩
    · rintro ⟨-, rfl⟩
      rfl
  | cons n ns ih =>
    rw [List.foldlM_cons]
    constructor
    · intro h
      obtain ⟨m, hm, h⟩ := exists_of_bind_ok h
      obtain ⟨hlow, hhigh, rfl⟩ := appendAddress_ok_iff.1 hm
      obtain ⟨hall, rfl⟩ := ih.1 h
      refine ⟨fun k hk => ?_, rfl⟩
      rcases List.mem_cons.1 hk with rfl | hk
      · exact ⟨hlow, hhigh⟩
      · exact hall k hk
    · rintro ⟨hall, rfl⟩
      obtain ⟨hlow, hhigh⟩ := hall n (List.mem_cons_self ..)
      rw [appendAddress_ok_iff.2 ⟨hlow, hhigh, rfl⟩]
      exact ih.2 ⟨fun k hk => hall k (List.mem_cons_of_mem n hk), rfl⟩

/-- A range is taken if both of its ends are. -/
theorem appendRange_ok_iff {m n : Nat} (hle : m ≤ n) :
    appendRange s m n = .ok t ↔
      1 ≤ m ∧ n ≤ 255 ∧ t = s.addAll (List.range' m (n + 1 - m)) := by
  rw [appendRange, foldlM_appendAddress_ok_iff]
  constructor
  · rintro ⟨hall, rfl⟩
    have hfirst := hall m (List.mem_range'_1.2 (by omega))
    have hlast := hall n (List.mem_range'_1.2 (by omega))
    exact ⟨hfirst.1, hlast.2, rfl⟩
  · rintro ⟨hlow, hhigh, rfl⟩
    refine ⟨fun k hk => ?_, rfl⟩
    have hk := List.mem_range'_1.1 hk
    omega

/-- The addresses added are those not seen, in the order of their first occurrence. -/
theorem addresses_addAll (s : Addresses) (ns : List Nat) :
    (s.addAll ns).addresses = s.addresses ++ named (ns.filter fun n => decide (n ∉ s.seen)) := by
  induction ns generalizing s with
  | nil => simp [Addresses.addAll, named]
  | cons n ns ih =>
    have hstep : s.addAll (n :: ns) = (s.add n).addAll ns := rfl
    rw [hstep, ih, Addresses.add]
    by_cases hseen : n ∈ s.seen
    · rw [if_pos hseen, List.filter_cons_of_neg (by simpa using hseen)]
    · have hrest : ns.filter (fun k => decide (k ∉ insert n s.seen)) =
          ns.filter fun k => !(k == n) && decide (k ∉ s.seen) := by
        refine List.filter_congr fun k _ => ?_
        rw [Bool.eq_iff_iff]
        simp [Finset.mem_insert, not_or]
      rw [if_neg hseen, List.filter_cons_of_pos (by simpa using hseen), hrest, List.append_assoc,
        named, named, List.eraseDups_cons, List.filter_filter]
      rfl

/-- From nothing seen. -/
theorem addresses_addAll_empty (ns : List Nat) :
    (Addresses.addAll {} ns).addresses = named ns := by
  rw [addresses_addAll]
  simp

/-! ## Numbers -/

/-- What is trimmed is a blank for `stoull`, too. -/
theorem isSpace_of_isBlank {c : UInt8} (h : isBlank c = true) : Scan.isSpace c = true := by
  rw [isBlank, decide_eq_true_eq] at h
  simp only [List.mem_cons, List.not_mem_nil, or_false] at h
  rcases h with rfl | rfl | rfl | rfl <;> rfl

/-- No digit is trimmed. -/
theorem isBlank_of_isDigit {c : UInt8} (h : Scan.isDigit c = true) : isBlank c = false := by
  cases hblank : isBlank c with
  | false => rfl
  | true =>
    have hspace := isSpace_of_isBlank hblank
    rw [Scan.isSpace_of_isDigit h] at hspace
    cases hspace

/-- `TrimCopy` trims blanks at both ends. -/
theorem trimCopy_eq_trim (text : List UInt8) : trimCopy text = Scan.trim isBlank text := rfl

/-- A number is stripped down to its digits, but for what `stoull` passes over. -/
theorem trimCopy_number {pre sign digits post : List UInt8} {n : Nat} (hdigits : Digits digits n)
    (hsign : ∀ c ∈ sign, isBlank c = false) (hpost : ∀ c ∈ post, isBlank c = true) :
    trimCopy (pre ++ sign ++ digits ++ post) = pre.dropWhile isBlank ++ (sign ++ digits) := by
  have hne : sign ++ digits ≠ [] := by
    intro hnil
    exact hdigits.ne_nil (List.append_eq_nil_iff.1 hnil).2
  have hall : ∀ c ∈ sign ++ digits, isBlank c = false := by
    intro c hc
    rcases List.mem_append.1 hc with hc | hc
    · exact hsign c hc
    · exact isBlank_of_isDigit (hdigits.isDigit c hc)
  rw [trimCopy_eq_trim, List.append_assoc pre]
  exact Scan.trim_append_core hne hall hpost pre

/-- Digits are read as their number. -/
theorem readDigits_digits {digits : List UInt8} {n : Nat} (h : Digits digits n) :
    Scan.readDigits digits = some n := by
  have htake : digits.takeWhile Scan.isDigit = digits := List.takeWhile_eq_self_iff.2 h.isDigit
  have hne : digits.isEmpty = false := List.isEmpty_eq_false_iff.2 h.ne_nil
  rw [Scan.readDigits, htake, hne, h.value_eq]
  rfl

/-- `stoull` passes over the blanks and one sign. -/
theorem strtol_number {pre sign digits : List UInt8} {n : Nat}
    (hpre : ∀ c ∈ pre, Scan.isSpace c = true) (hsign : sign = [] ∨ sign = [43])
    (hdigits : Digits digits n) :
    Scan.strtol (pre ++ (sign ++ digits)) = some (n : Int) ∧
      afterSign ((pre ++ (sign ++ digits)).dropWhile Scan.isSpace) = digits := by
  obtain ⟨d, ds, rfl⟩ := List.exists_cons_of_ne_nil hdigits.ne_nil
  have hd := hdigits.isDigit d (List.mem_cons_self ..)
  have hread := readDigits_digits hdigits
  have hdrop : ∀ {c l}, Scan.isSpace c = false →
      (pre ++ c :: l).dropWhile Scan.isSpace = c :: l := by
    intro c l hc
    rw [List.dropWhile_append_of_pos hpre, List.dropWhile_cons_of_neg (by simp [hc])]
  rcases hsign with rfl | rfl
  · have hplus : d ≠ 43 := by
      rintro rfl
      cases hd
    have hminus : d ≠ 45 := by
      rintro rfl
      cases hd
    rw [Scan.strtol, List.nil_append, hdrop (Scan.isSpace_of_isDigit hd)]
    constructor
    · split
      · next heq => exact absurd (List.cons.inj heq).1 hminus
      · next heq => exact absurd (List.cons.inj heq).1 hplus
      · rw [hread]
        rfl
    · rw [afterSign.eq_def]
      split
      · next heq => exact absurd (List.cons.inj heq).1 hplus
      · next heq => exact absurd (List.cons.inj heq).1 hminus
      · rfl
  · rw [Scan.strtol, List.singleton_append, hdrop (by decide)]
    refine ⟨?_, rfl⟩
    change (Scan.readDigits (d :: ds)).map Nat.cast = some (n : Int)
    rw [hread]
    rfl

/-- What `stoull` reads to its end is a number. -/
theorem number_of_strtol {text : List UInt8} {n : Int} (hdash : 45 ∉ text)
    (h : Scan.strtol text = some n)
    (hall : (afterSign (text.dropWhile Scan.isSpace)).all Scan.isDigit = true) :
    ∃ sign digits m, text.dropWhile Scan.isSpace = sign ++ digits ∧ (sign = [] ∨ sign = [43]) ∧
      Digits digits m ∧ n = m := by
  have hread : ∀ {digits : List UInt8}, digits.all Scan.isDigit = true →
      (Scan.readDigits digits).map (Nat.cast : Nat → Int) = some n →
        ∃ m, Digits digits m ∧ n = m := by
    intro digits hdigits hmap
    obtain ⟨m, hm, rfl⟩ := Option.map_eq_some_iff.1 hmap
    have hmem := List.all_eq_true.1 hdigits
    rw [Scan.readDigits, List.takeWhile_eq_self_iff.2 hmem] at hm
    split at hm
    · cases hm
    · next hne => exact ⟨m, ⟨by simpa using hne, hmem, Option.some.inj hm⟩, rfl⟩
  have hmem : 45 ∉ text.dropWhile Scan.isSpace :=
    fun hc => hdash ((List.dropWhile_sublist _).subset hc)
  rw [Scan.strtol] at h
  split at h
  · next heq => exact absurd (by rw [heq]; exact List.mem_cons_self ..) hmem
  · next digits heq =>
    rw [heq] at hall
    obtain ⟨m, hm, rfl⟩ := hread hall h
    exact ⟨[43], digits, m, heq, .inr rfl, hm, rfl⟩
  · next hminus hplus =>
    have hafter : afterSign (text.dropWhile Scan.isSpace) = text.dropWhile Scan.isSpace := by
      rw [afterSign.eq_def]
      split
      · next digits heq => exact absurd heq (hplus digits)
      · next digits heq => exact absurd heq (hminus digits)
      · rfl
    rw [hafter] at hall
    obtain ⟨m, hm, rfl⟩ := hread hall h
    exact ⟨[], _, m, rfl, .inl rfl, hm, rfl⟩

/-- What does not stand in a text does not stand in it when it is trimmed. -/
theorem notMem_trimCopy {c : UInt8} {text : List UInt8} (h : c ∉ text) : c ∉ trimCopy text := by
  obtain ⟨pre, post, htext, -, -⟩ := Scan.exists_trim isBlank text
  intro hc
  rw [htext] at h
  exact h (List.mem_append_left _ (List.mem_append_right _ hc))

/-- What `ParseUnsignedText` takes is a number as `stoull` takes it, below 2^64. -/
theorem looseNumber_of_parseUnsignedText {text : List UInt8} {fieldName : String} {n : Nat}
    (hdash : 45 ∉ text) (h : parseUnsignedText text fieldName = .ok n) :
    LooseNumber text n ∧ n < 2 ^ 64 := by
  obtain ⟨pre, post, htext, hpre, hpost⟩ := Scan.exists_trim isBlank text
  rw [← trimCopy_eq_trim] at htext
  rw [parseUnsignedText] at h
  split at h
  · cases h
  · split at h
    · cases h
    · split at h
      · cases h
      · next parsed hparsed =>
        split at h
        · next hall =>
          cases h
          rw [Scan.stoull, Option.map_eq_some_iff] at hparsed
          obtain ⟨m, hm, hvalue⟩ := hparsed
          obtain ⟨hstrtol, hlt⟩ := Option.filter_eq_some_iff.1 hm
          obtain ⟨sign, digits, k, hsplit, hsign, hdigits, rfl⟩ :=
            number_of_strtol (notMem_trimCopy hdash) hstrtol hall
          have hlt' : k < 2 ^ 64 := by simpa using hlt
          have hkn : k = n := by omega
          refine ⟨⟨pre ++ (trimCopy text).takeWhile Scan.isSpace, sign, digits, post, ?_, ?_, hsign,
            hkn ▸ hdigits, hpost⟩, hkn ▸ hlt'⟩
          · have hnumber : trimCopy text =
                (trimCopy text).takeWhile Scan.isSpace ++ (sign ++ digits) := by
              rw [← hsplit, List.takeWhile_append_dropWhile]
            rw [List.append_assoc pre, List.append_assoc pre, List.append_assoc _ sign, ← hnumber,
              ← htext]
          · intro c hc
            rcases List.mem_append.1 hc with hc | hc
            · exact isSpace_of_isBlank (hpre c hc)
            · exact List.mem_takeWhile_imp hc
        · cases h

/-- And each of these is taken. -/
theorem parseUnsignedText_of_looseNumber {text : List UInt8} {fieldName : String} {n : Nat}
    (hdash : 45 ∉ text) (h : LooseNumber text n) (hlt : n < 2 ^ 64) :
    parseUnsignedText text fieldName = .ok n := by
  obtain ⟨pre, sign, digits, post, rfl, hpre, hsign, hdigits, hpost⟩ := h
  have hsign' : ∀ c ∈ sign, isBlank c = false := by
    rcases hsign with rfl | rfl
    · exact fun c hc => absurd hc List.not_mem_nil
    · intro c hc
      rw [List.mem_singleton.1 hc]
      rfl
  have hpre' : ∀ c ∈ pre.dropWhile isBlank, Scan.isSpace c = true :=
    fun c hc => hpre c ((List.dropWhile_sublist _).subset hc)
  obtain ⟨hstrtol, hafter⟩ := strtol_number hpre' hsign hdigits
  have hstoull : Scan.stoull (pre.dropWhile isBlank ++ (sign ++ digits)) = some n := by
    rw [Scan.stoull, hstrtol, Option.filter_some, if_pos (by simpa using hlt), Option.map_some]
    congr 1
    omega
  rw [parseUnsignedText, trimCopy_number hdigits hsign' hpost]
  rw [if_neg, if_neg, hstoull]
  · dsimp only
    rw [hafter, if_pos (List.all_eq_true.2 hdigits.isDigit)]
  · intro hhead
    refine hdash ?_
    have hmem := List.mem_of_mem_head? hhead
    rcases List.mem_append.1 hmem with hc | hc
    · simp [(List.dropWhile_sublist _).subset hc]
    · rcases List.mem_append.1 hc with hc | hc <;> simp [hc]
  · intro hnil
    exact hdigits.ne_nil (List.append_eq_nil_iff.1 (List.append_eq_nil_iff.1 hnil).2).2

/-- **What `ParseUnsignedText` reads** of a text without a dash. -/
theorem parseUnsignedText_ok_iff {text : List UInt8} {fieldName : String} {n : Nat}
    (hdash : 45 ∉ text) :
    parseUnsignedText text fieldName = .ok n ↔ LooseNumber text n ∧ n < 2 ^ 64 :=
  ⟨looseNumber_of_parseUnsignedText hdash,
    fun h => parseUnsignedText_of_looseNumber hdash h.1 h.2⟩

/-! ## Items -/

/-- What a number is written with. -/
theorem LooseNumber.mem {text : List UInt8} {n : Nat} (h : LooseNumber text n) :
    ∀ c ∈ text, Scan.isSpace c = true ∨ c = 43 ∨ Scan.isDigit c = true := by
  obtain ⟨pre, sign, digits, post, rfl, hpre, hsign, hdigits, hpost⟩ := h
  intro c hc
  rcases List.mem_append.1 hc with hc | hc
  · rcases List.mem_append.1 hc with hc | hc
    · rcases List.mem_append.1 hc with hc | hc
      · exact .inl (hpre c hc)
      · rcases hsign with rfl | rfl
        · exact absurd hc List.not_mem_nil
        · exact .inr (.inl (List.mem_singleton.1 hc))
    · exact .inr (.inr (hdigits.isDigit c hc))
  · exact .inl (isSpace_of_isBlank (hpost c hc))

/-- There are blanks, digits and a plus sign in a number, and nothing else. -/
theorem LooseNumber.notMem {text : List UInt8} {n : Nat} (h : LooseNumber text n) {c : UInt8}
    (hspace : Scan.isSpace c = false) (hplus : c ≠ 43) (hdigit : Scan.isDigit c = false) :
    c ∉ text := by
  intro hc
  rcases h.mem c hc with h | h | h
  · rw [hspace] at h
    cases h
  · exact hplus h
  · rw [hdigit] at h
    cases h

/-- A number is not empty. -/
theorem LooseNumber.ne_nil {text : List UInt8} {n : Nat} (h : LooseNumber text n) : text ≠ [] := by
  obtain ⟨pre, sign, digits, post, rfl, -, -, hdigits, -⟩ := h
  intro hnil
  exact hdigits.ne_nil (List.append_eq_nil_iff.1 (List.append_eq_nil_iff.1 hnil).1).2

/-- Blanks at either end make no difference. -/
structure IgnoresBlanks (p : List UInt8 → Prop) : Prop where
  cons_iff : ∀ {c text}, isBlank c = true → (p (c :: text) ↔ p text)
  concat_iff : ∀ {c text}, isBlank c = true → (p (text ++ [c]) ↔ p text)

/-- Blanks in front make no difference. -/
theorem IgnoresBlanks.front_iff {p : List UInt8 → Prop} (h : IgnoresBlanks p) {pre : List UInt8}
    (hpre : ∀ c ∈ pre, isBlank c = true) (text : List UInt8) : p (pre ++ text) ↔ p text := by
  induction pre with
  | nil => rfl
  | cons c pre ih =>
    rw [List.cons_append, h.cons_iff (hpre c (List.mem_cons_self ..))]
    exact ih fun b hb => hpre b (List.mem_cons_of_mem c hb)

/-- Blanks behind make no difference. -/
theorem IgnoresBlanks.back_iff {p : List UInt8 → Prop} (h : IgnoresBlanks p) {post : List UInt8}
    (hpost : ∀ c ∈ post, isBlank c = true) (text : List UInt8) : p (text ++ post) ↔ p text := by
  induction post using List.reverseRecOn with
  | nil => rw [List.append_nil]
  | append_singleton post c ih =>
    rw [← List.append_assoc, h.concat_iff (hpost c (by simp))]
    exact ih fun b hb => hpost b (List.mem_append_left _ hb)

/-- Trimming makes no difference. -/
theorem IgnoresBlanks.trimCopy_iff {p : List UInt8 → Prop} (h : IgnoresBlanks p)
    (text : List UInt8) : p (trimCopy text) ↔ p text := by
  obtain ⟨pre, post, htext, hpre, hpost⟩ := Scan.exists_trim isBlank text
  rw [← trimCopy_eq_trim] at htext
  conv => rhs; rw [htext]
  rw [h.back_iff hpost, h.front_iff hpre]

/-- Trimming the front makes no difference. -/
theorem IgnoresBlanks.dropWhile_iff {p : List UInt8 → Prop} (h : IgnoresBlanks p)
    (text : List UInt8) : p (text.dropWhile isBlank) ↔ p text := by
  conv => rhs; rw [← List.takeWhile_append_dropWhile (p := isBlank) (l := text)]
  rw [h.front_iff fun c hc => List.mem_takeWhile_imp hc]

/-- Trimming the back makes no difference. -/
theorem IgnoresBlanks.rdropWhile_iff {p : List UInt8 → Prop} (h : IgnoresBlanks p)
    (text : List UInt8) : p (text.rdropWhile isBlank) ↔ p text := by
  conv => rhs; rw [← List.rdropWhile_append_rtakeWhile (p := isBlank) (l := text)]
  rw [h.back_iff fun c hc => List.mem_rtakeWhile_imp hc]

/-- Blanks around a number make no difference. -/
theorem looseNumber_ignoresBlanks (n : Nat) : IgnoresBlanks (LooseNumber · n) := by
  refine ⟨fun {c text} hc => ⟨?_, ?_⟩, fun {c text} hc => ⟨?_, ?_⟩⟩
  · rintro ⟨pre, sign, digits, post, heq, hpre, hsign, hdigits, hpost⟩
    cases pre with
    | cons b pre =>
      obtain ⟨-, heq⟩ := List.cons.inj heq
      exact ⟨pre, sign, digits, post, heq, fun d hd => hpre d (List.mem_cons_of_mem b hd), hsign,
        hdigits, hpost⟩
    | nil =>
      -- A blank is neither the sign nor a digit.
      obtain ⟨d, ds, rfl⟩ := List.exists_cons_of_ne_nil hdigits.ne_nil
      rcases hsign with rfl | rfl
      · obtain ⟨rfl, -⟩ := List.cons.inj heq
        rw [isBlank_of_isDigit (hdigits.isDigit c (List.mem_cons_self ..))] at hc
        cases hc
      · obtain ⟨rfl, -⟩ := List.cons.inj heq
        cases hc
  · rintro ⟨pre, sign, digits, post, rfl, hpre, hsign, hdigits, hpost⟩
    refine ⟨c :: pre, sign, digits, post, rfl, fun d hd => ?_, hsign, hdigits, hpost⟩
    rcases List.mem_cons.1 hd with rfl | hd
    · exact isSpace_of_isBlank hc
    · exact hpre d hd
  · rintro ⟨pre, sign, digits, post, heq, hpre, hsign, hdigits, hpost⟩
    induction post using List.reverseRecOn with
    | append_singleton post d _ =>
      rw [← List.append_assoc] at heq
      obtain ⟨htext, -⟩ := List.append_inj' heq rfl
      exact ⟨pre, sign, digits, post, htext, hpre, hsign, hdigits,
        fun b hb => hpost b (List.mem_append_left _ hb)⟩
    | nil =>
      have hlast : c = digits.getLast hdigits.ne_nil := by
        have h := congrArg List.getLast? heq
        rw [List.append_nil, List.getLast?_append, List.getLast?_append,
          List.getLast?_eq_getLast_of_ne_nil hdigits.ne_nil] at h
        simpa using h
      rw [hlast, isBlank_of_isDigit (hdigits.isDigit _ (List.getLast_mem _))] at hc
      cases hc
  · rintro ⟨pre, sign, digits, post, rfl, hpre, hsign, hdigits, hpost⟩
    refine ⟨pre, sign, digits, post ++ [c], by rw [List.append_assoc], hpre, hsign, hdigits,
      fun d hd => ?_⟩
    rcases List.mem_append.1 hd with hd | hd
    · exact hpost d hd
    · rw [List.mem_singleton.1 hd]
      exact hc

section
variable {number : List UInt8 → Nat → Prop}

/-- What stands on either side of a character ignores the blanks at the other ends. -/
theorem cons_eq_append_cons {c d : UInt8} {text a b : List UInt8} (hne : c ≠ d)
    (h : c :: text = a ++ d :: b) : ∃ a', a = c :: a' ∧ text = a' ++ d :: b := by
  cases a with
  | nil => exact absurd (List.cons.inj h).1 hne
  | cons e a =>
    obtain ⟨rfl, htext⟩ := List.cons.inj h
    exact ⟨a, rfl, htext⟩

/-- What stands behind a character that is not the last one. -/
theorem concat_eq_append_cons {c d : UInt8} {text a b : List UInt8} (hne : c ≠ d)
    (h : text ++ [c] = a ++ d :: b) : ∃ b', b = b' ++ [c] ∧ text = a ++ d :: b' := by
  induction b using List.reverseRecOn with
  | nil => exact absurd (List.cons.inj (List.append_inj' h rfl).2).1 hne
  | append_singleton b e _ =>
    rw [← List.cons_append, ← List.append_assoc] at h
    obtain ⟨htext, hlast⟩ := List.append_inj' h rfl
    obtain rfl := (List.cons.inj hlast).1
    exact ⟨b, rfl, htext⟩

/-- Blanks around an item make no difference, if they make none around a number. -/
theorem item_ignoresBlanks (hnumber : ∀ n, IgnoresBlanks (number · n)) (ns : List Nat) :
    IgnoresBlanks (Item number · ns) := by
  refine ⟨fun {c text} hc => ⟨fun h => ?_, fun h => ?_⟩,
    fun {c text} hc => ⟨fun h => ?_, fun h => ?_⟩⟩
  · generalize heq : c :: text = whole at h
    cases h with
    | single hn hlow hhigh =>
      exact .single (((hnumber _).cons_iff hc).1 (heq ▸ hn)) hlow hhigh
    | range hm hn hlow hle hhigh =>
      obtain ⟨a', rfl, rfl⟩ := cons_eq_append_cons (by rintro rfl; cases hc) heq
      exact .range (((hnumber _).cons_iff hc).1 hm) hn hlow hle hhigh
  · cases h with
    | single hn hlow hhigh => exact .single (((hnumber _).cons_iff hc).2 hn) hlow hhigh
    | range hm hn hlow hle hhigh =>
      exact .range (((hnumber _).cons_iff hc).2 hm) hn hlow hle hhigh
  · generalize heq : text ++ [c] = whole at h
    cases h with
    | single hn hlow hhigh =>
      exact .single (((hnumber _).concat_iff hc).1 (heq ▸ hn)) hlow hhigh
    | range hm hn hlow hle hhigh =>
      obtain ⟨b', rfl, rfl⟩ := concat_eq_append_cons (by rintro rfl; cases hc) heq
      exact .range hm (((hnumber _).concat_iff hc).1 hn) hlow hle hhigh
  · cases h with
    | single hn hlow hhigh => exact .single (((hnumber _).concat_iff hc).2 hn) hlow hhigh
    | range hm hn hlow hle hhigh =>
      rw [List.append_assoc, List.cons_append]
      exact .range hm (((hnumber _).concat_iff hc).2 hn) hlow hle hhigh

/-- Blanks around items make no difference, if they make none around a number. -/
theorem items_ignoresBlanks (hnumber : ∀ n, IgnoresBlanks (number · n)) (ns : List Nat) :
    IgnoresBlanks (Items number · ns) := by
  refine ⟨fun {c text} hc => ⟨fun h => ?_, fun h => ?_⟩,
    fun {c text} hc => ⟨fun h => ?_, fun h => ?_⟩⟩
  · generalize heq : c :: text = whole at h
    cases h with
    | last h => exact .last (((item_ignoresBlanks hnumber _).cons_iff hc).1 (heq ▸ h))
    | cons h hrest =>
      obtain ⟨a', rfl, rfl⟩ := cons_eq_append_cons (by rintro rfl; cases hc) heq
      exact .cons (((item_ignoresBlanks hnumber _).cons_iff hc).1 h) hrest
  · cases h with
    | last h => exact .last (((item_ignoresBlanks hnumber _).cons_iff hc).2 h)
    | cons h hrest =>
      exact .cons (((item_ignoresBlanks hnumber _).cons_iff hc).2 h) hrest
  · generalize heq : text ++ [c] = whole at h
    induction h generalizing text with
    | last h => exact .last (((item_ignoresBlanks hnumber _).concat_iff hc).1 (heq ▸ h))
    | cons h hrest ih =>
      obtain ⟨b', rfl, rfl⟩ := concat_eq_append_cons (by rintro rfl; cases hc) heq
      exact .cons h (ih rfl)
  · induction h with
    | last h => exact .last (((item_ignoresBlanks hnumber _).concat_iff hc).2 h)
    | cons h hrest ih =>
      rw [List.append_assoc, List.cons_append]
      exact .cons h ih

end

/-- What an item is read as, without the blanks around it. -/
theorem item_of_parseItem {raw : List UInt8} (h : parseItem s raw = .ok t) :
    ∃ ns, Item LooseNumber (trimCopy raw) ns ∧ t = s.addAll ns := by
  rw [parseItem] at h
  dsimp only at h
  split at h
  · cases h
  · split at h
    · next hfind =>
      obtain ⟨n, hn, h⟩ := exists_of_bind_ok h
      split at h
      · cases h
      · obtain ⟨hlow, hhigh, rfl⟩ := appendAddress_ok_iff.1 h
        have hn := (parseUnsignedText_ok_iff (Scan.find_eq_none.1 hfind)).1 hn
        exact ⟨[n], .single hn.1 hlow hhigh, rfl⟩
    · next dash hfind =>
      have hmem : 45 ∈ trimCopy raw := by
        by_contra hnot
        rw [Scan.find_eq_none.2 hnot] at hfind
        cases hfind
      obtain ⟨a, b, ha, hsplit⟩ := Scan.exists_find hmem
      rw [hsplit, Scan.find_append ha] at hfind
      obtain rfl := Option.some.inj hfind
      have hdrop : (a ++ 45 :: b).drop (a.length + 1) = b := by simp
      rw [hsplit, hdrop, List.take_left] at h
      rw [hsplit]
      split at h
      · cases h
      · next hb =>
        obtain ⟨m, hm, h⟩ := exists_of_bind_ok h
        obtain ⟨n, hn, h⟩ := exists_of_bind_ok h
        split at h
        · cases h
        · split at h
          · cases h
          · next hle =>
            have hm := ((parseUnsignedText_ok_iff (notMem_trimCopy ha)).1 hm).1
            have hn := ((parseUnsignedText_ok_iff (notMem_trimCopy hb)).1 hn).1
            obtain ⟨hlow, hhigh, rfl⟩ := (appendRange_ok_iff (Nat.not_lt.1 hle)).1 h
            have hm := ((looseNumber_ignoresBlanks m).trimCopy_iff a).1 hm
            have hn := ((looseNumber_ignoresBlanks n).trimCopy_iff b).1 hn
            exact ⟨_, .range hm hn hlow (Nat.not_lt.1 hle) hhigh, rfl⟩

/-- A single number in its range is taken. -/
theorem parseItem_single {raw : List UInt8} {n : Nat} (hn : LooseNumber raw n) (hlow : 1 ≤ n)
    (hhigh : n ≤ 255) : parseItem s raw = .ok (s.addAll [n]) := by
  have hn := ((looseNumber_ignoresBlanks n).trimCopy_iff raw).2 hn
  have hdash : 45 ∉ trimCopy raw := hn.notMem rfl (by decide) rfl
  rw [parseItem]
  dsimp only
  rw [if_neg hn.ne_nil, Scan.find_eq_none.2 hdash]
  dsimp only
  rw [(parseUnsignedText_ok_iff hdash).2 ⟨hn, by omega⟩]
  change (if 255 < _ then _ else _) = _
  rw [if_neg (by omega)]
  exact appendAddress_ok_iff.2 ⟨hlow, hhigh, rfl⟩

/-- A range whose ends are in their range and in order is taken. -/
theorem parseItem_range {a b : List UInt8} {m n : Nat} (hm : LooseNumber a m)
    (hn : LooseNumber b n) (hlow : 1 ≤ m) (hle : m ≤ n) (hhigh : n ≤ 255) :
    parseItem s (a ++ 45 :: b) = .ok (s.addAll (List.range' m (n + 1 - m))) := by
  have hm' := ((looseNumber_ignoresBlanks m).dropWhile_iff a).2 hm
  have hn' := ((looseNumber_ignoresBlanks n).rdropWhile_iff b).2 hn
  have ha : 45 ∉ a.dropWhile isBlank := hm'.notMem rfl (by decide) rfl
  have hb : 45 ∉ b.rdropWhile isBlank := hn'.notMem rfl (by decide) rfl
  have hm' := ((looseNumber_ignoresBlanks m).trimCopy_iff _).2 hm'
  have hn' := ((looseNumber_ignoresBlanks n).trimCopy_iff _).2 hn'
  have htrim : trimCopy (a ++ 45 :: b) = a.dropWhile isBlank ++ 45 :: b.rdropWhile isBlank :=
    Scan.trim_append_cons rfl a b
  have hdrop : (a.dropWhile isBlank ++ 45 :: b.rdropWhile isBlank).drop
      ((a.dropWhile isBlank).length + 1) = b.rdropWhile isBlank := by simp
  rw [parseItem]
  dsimp only
  rw [htrim, if_neg (by simp), Scan.find_append ha]
  dsimp only
  rw [hdrop, List.take_left, if_neg hb,
    (parseUnsignedText_ok_iff (notMem_trimCopy ha)).2 ⟨hm', by omega⟩,
    (parseUnsignedText_ok_iff (notMem_trimCopy hb)).2 ⟨hn', by omega⟩]
  change (if _ then _ else _) = _
  rw [if_neg (by omega)]
  change (if _ then _ else _) = _
  rw [if_neg (by omega)]
  exact (appendRange_ok_iff hle).2 ⟨hlow, hhigh, rfl⟩

/-- **An item is read as the grammar has it.** -/
theorem parseItem_ok_iff {raw : List UInt8} :
    parseItem s raw = .ok t ↔ ∃ ns, Item LooseNumber raw ns ∧ t = s.addAll ns := by
  have hitem := item_ignoresBlanks looseNumber_ignoresBlanks
  constructor
  · intro h
    obtain ⟨ns, hns, ht⟩ := item_of_parseItem h
    exact ⟨ns, ((hitem ns).trimCopy_iff raw).1 hns, ht⟩
  · rintro ⟨ns, hns, rfl⟩
    cases hns with
    | single hn hlow hhigh => exact parseItem_single hn hlow hhigh
    | range hm hn hlow hle hhigh => exact parseItem_range hm hn hlow hle hhigh

/-! ## Texts -/

/-- There is no comma in an item. -/
theorem Item.comma_notMem {text : List UInt8} {ns : List Nat} (h : Item LooseNumber text ns) :
    44 ∉ text := by
  cases h with
  | single hn => exact hn.notMem rfl (by decide) rfl
  | range hm hn =>
    intro hc
    rcases List.mem_append.1 hc with hc | hc
    · exact hm.notMem rfl (by decide) rfl hc
    · rcases List.mem_cons.1 hc with hc | hc
      · cases hc
      · exact hn.notMem rfl (by decide) rfl hc

/-- An item is not empty, and it names an address. -/
theorem Item.ne_nil {text : List UInt8} {ns : List Nat} (h : Item LooseNumber text ns) :
    text ≠ [] ∧ ns ≠ [] := by
  cases h with
  | single hn => exact ⟨hn.ne_nil, by simp⟩
  | range hm hn hlow hle =>
    refine ⟨by simp, fun hnil => ?_⟩
    have hlen := congrArg List.length hnil
    rw [List.length_range', List.length_nil] at hlen
    omega

/-- Items are not empty, and they name an address. -/
theorem Items.ne_nil {text : List UInt8} {ns : List Nat} (h : Items LooseNumber text ns) :
    text ≠ [] ∧ ns ≠ [] := by
  cases h with
  | last h => exact h.ne_nil
  | cons h => exact ⟨by simp, fun hnil => h.ne_nil.2 (List.append_eq_nil_iff.1 hnil).1⟩

/-- Items do not end with a comma. -/
theorem Items.getLast?_ne {text : List UInt8} {ns : List Nat} (h : Items LooseNumber text ns) :
    text.getLast? ≠ some 44 := by
  induction h with
  | last h => exact fun hlast => h.comma_notMem (List.mem_of_getLast? hlast)
  | @cons item rest ns ms h hrest ih =>
    intro hlast
    obtain ⟨c, rest', rfl⟩ := List.exists_cons_of_ne_nil hrest.ne_nil.1
    rw [List.getLast?_append, List.getLast?_cons_cons, Option.or_eq_some_iff] at hlast
    rcases hlast with hlast | ⟨hnone, -⟩
    · exact ih hlast
    · simp at hnone

/-- Without a comma there is one item. -/
theorem items_iff_item {text : List UInt8} (h : 44 ∉ text) {ns : List Nat} :
    Items LooseNumber text ns ↔ Item LooseNumber text ns := by
  constructor
  · intro hitems
    cases hitems with
    | last hitem => exact hitem
    | cons hitem hrest => simp at h
  · exact .last

/-- Before the first comma stands one item, and behind it the others. -/
theorem items_cons_iff {item rest : List UInt8} (h : 44 ∉ item) {ns : List Nat} :
    Items LooseNumber (item ++ 44 :: rest) ns ↔
      ∃ ks ms, Item LooseNumber item ks ∧ Items LooseNumber rest ms ∧ ns = ks ++ ms := by
  constructor
  · intro hitems
    generalize heq : item ++ 44 :: rest = text at hitems
    cases hitems with
    | last hitem =>
      refine absurd ?_ hitem.comma_notMem
      rw [← heq]
      simp
    | cons hitem hrest =>
      obtain ⟨rfl, rfl⟩ := Scan.cut_unique h hitem.comma_notMem heq
      exact ⟨_, _, hitem, hrest, rfl⟩
  · rintro ⟨ks, ms, hitem, hrest, rfl⟩
    exact .cons hitem hrest

/-- Without a comma the loop finds one text. -/
theorem itemsFrom_of_notMem {text : List UInt8} (h : 44 ∉ text) (item : List UInt8) :
    itemsFrom item text = [item ++ text] := by
  induction text generalizing item with
  | nil => rw [itemsFrom, List.append_nil]
  | cons c text ih =>
    rw [itemsFrom, if_neg fun hc : c = 44 => h (by simp [hc]),
      ih fun hc => h (List.mem_cons_of_mem c hc)]
    simp

/-- At the first comma the loop ends its text, and begins the next one if there is more. -/
theorem itemsFrom_append {text : List UInt8} (h : 44 ∉ text) (item rest : List UInt8) :
    itemsFrom item (text ++ 44 :: rest) =
      if rest = [] then [item ++ text] else (item ++ text) :: itemsFrom [] rest := by
  induction text generalizing item with
  | nil =>
    rw [List.nil_append, itemsFrom, if_pos rfl, List.append_nil]
  | cons c text ih =>
    rw [List.cons_append, itemsFrom, if_neg fun hc : c = 44 => h (by simp [hc]),
      ih fun hc => h (List.mem_cons_of_mem c hc)]
    simp

/-- What the loop takes: items, and a comma that may follow the last one. -/
def Listed (text : List UInt8) (ns : List Nat) : Prop :=
  Items LooseNumber text ns ∨ ∃ items, text = items ++ [44] ∧ Items LooseNumber items ns

/-- Without a comma the loop takes one item. -/
theorem listed_iff_of_notMem {text : List UInt8} (h : 44 ∉ text) {ns : List Nat} :
    Listed text ns ↔ Item LooseNumber text ns := by
  rw [Listed, items_iff_item h]
  refine ⟨fun hor => hor.elim id ?_, .inl⟩
  rintro ⟨items, rfl, -⟩
  simp at h

/-- The loop takes a comma behind the last item. -/
theorem listed_comma_iff {item : List UInt8} (h : 44 ∉ item) {ns : List Nat} :
    Listed (item ++ [44]) ns ↔ Item LooseNumber item ns := by
  constructor
  · rintro (hitems | ⟨items, heq, hitems⟩)
    · exact absurd (by simp) hitems.getLast?_ne
    · obtain rfl := List.append_cancel_right heq
      exact (items_iff_item h).1 hitems
  · exact fun hitem => .inr ⟨item, rfl, .last hitem⟩

/-- The loop takes the first item, and then the others. -/
theorem listed_cons_iff {item rest : List UInt8} (h : 44 ∉ item) (hrest : rest ≠ [])
    {ns : List Nat} :
    Listed (item ++ 44 :: rest) ns ↔
      ∃ ks ms, Item LooseNumber item ks ∧ Listed rest ms ∧ ns = ks ++ ms := by
  constructor
  · rintro (hitems | ⟨items, heq, hitems⟩)
    · obtain ⟨ks, ms, hitem, hitems', rfl⟩ := (items_cons_iff h).1 hitems
      exact ⟨ks, ms, hitem, .inl hitems', rfl⟩
    · induction rest using List.reverseRecOn with
      | nil => exact absurd rfl hrest
      | append_singleton rest c _ =>
        rw [← List.cons_append, ← List.append_assoc] at heq
        obtain ⟨rfl, hc⟩ := List.append_inj' heq rfl
        obtain rfl := (List.cons.inj hc).1
        obtain ⟨ks, ms, hitem, hitems', rfl⟩ := (items_cons_iff h).1 hitems
        exact ⟨ks, ms, hitem, .inr ⟨rest, rfl, hitems'⟩, rfl⟩
  · rintro ⟨ks, ms, hitem, hitems | ⟨items, rfl, hitems⟩, rfl⟩
    · exact .inl (.cons hitem hitems)
    · refine .inr ⟨item ++ 44 :: items, by simp, .cons hitem hitems⟩

/-- **The loop over the items.** -/
theorem parseItems_ok_iff (text : List UInt8) :
    ∀ {s : Addresses}, (itemsFrom [] text).foldlM parseItem s = .ok t ↔
      ∃ ns, Listed text ns ∧ t = s.addAll ns := by
  have hone : ∀ {s : Addresses} {item : List UInt8},
      [item].foldlM parseItem s = .ok t ↔ ∃ ns, Item LooseNumber item ns ∧ t = s.addAll ns := by
    intro s item
    rw [← parseItem_ok_iff, List.foldlM_cons]
    cases parseItem s item <;> rfl
  -- The texts get shorter: the rest after a comma is one of them.
  induction hlen : text.length using Nat.strongRecOn generalizing text with
  | ind k ih =>
    intro s
    by_cases hcomma : 44 ∈ text
    · obtain ⟨item, rest, hitem, rfl⟩ := Scan.exists_find hcomma
      rw [itemsFrom_append hitem, List.nil_append]
      by_cases hrest : rest = []
      · rw [if_pos hrest, hone, hrest]
        exact exists_congr fun ns => and_congr_left fun _ => (listed_comma_iff hitem).symm
      · have hlt : rest.length < k := by
          rw [← hlen, List.length_append, List.length_cons]
          omega
        rw [if_neg hrest, List.foldlM_cons]
        constructor
        · intro h
          obtain ⟨m, hm, h⟩ := exists_of_bind_ok h
          obtain ⟨ks, hks, rfl⟩ := parseItem_ok_iff.1 hm
          obtain ⟨ms, hms, rfl⟩ := (ih rest.length hlt rest rfl).1 h
          exact ⟨ks ++ ms, (listed_cons_iff hitem hrest).2 ⟨ks, ms, hks, hms, rfl⟩,
            (addAll_append ..).symm⟩
        · rintro ⟨ns, hns, rfl⟩
          obtain ⟨ks, ms, hks, hms, rfl⟩ := (listed_cons_iff hitem hrest).1 hns
          rw [parseItem_ok_iff.2 ⟨ks, hks, rfl⟩]
          exact (ih rest.length hlt rest rfl).2 ⟨ms, hms, addAll_append ..⟩
    · rw [itemsFrom_of_notMem hcomma, List.nil_append, hone]
      exact exists_congr fun ns => and_congr_left fun _ => (listed_iff_of_notMem hcomma).symm

/-- The blanks around a text make no difference. -/
theorem listed_trimCopy_iff {text : List UInt8} {ns : List Nat} :
    Listed (trimCopy text) ns ↔ AddressText text ns := by
  have hitems := items_ignoresBlanks looseNumber_ignoresBlanks
  constructor
  · rintro (h | ⟨items, heq, h⟩)
    · exact .inl (((hitems ns).trimCopy_iff text).1 h)
    · obtain ⟨pre, post, htext, hpre, hpost⟩ := Scan.exists_trim isBlank text
      rw [← trimCopy_eq_trim, heq] at htext
      refine .inr ⟨pre ++ items, post, ?_, ((hitems ns).front_iff hpre items).2 h, hpost⟩
      rw [htext]
      simp
  · rintro (h | ⟨items, post, rfl, h, hpost⟩)
    · exact .inl (((hitems ns).trimCopy_iff text).2 h)
    · have htrim : trimCopy (items ++ 44 :: post) = items.dropWhile isBlank ++ [44] := by
        rw [trimCopy_eq_trim, Scan.trim_append_cons rfl, List.rdropWhile_eq_nil_iff.2 hpost]
      exact .inr ⟨_, htrim, ((hitems ns).dropWhile_iff items).2 h⟩

/-- **A text is read as the wider grammar has it.** -/
theorem parseAddressText_ok_iff {text : List UInt8} :
    parseAddressText s text = .ok t ↔ ∃ ns, AddressText text ns ∧ t = s.addAll ns := by
  rw [parseAddressText]
  by_cases hnil : trimCopy text = []
  · rw [if_pos hnil]
    constructor
    · intro h
      cases h
    · rintro ⟨ns, hns, -⟩
      rcases listed_trimCopy_iff.2 hns with h | ⟨items, heq, -⟩
      · exact absurd hnil h.ne_nil.1
      · rw [hnil] at heq
        simp at heq
  · rw [if_neg hnil, parseItems_ok_iff]
    exact exists_congr fun ns => and_congr_left fun _ => listed_trimCopy_iff

/-! ## Values -/

/-- **What is taken as one value**, and what is named by it. -/
theorem parseValue_ok_iff {value : Json} :
    parseValue s value = .ok t ↔ ∃ ns, One AddressText value ns ∧ t = s.addAll ns := by
  have hnone : (∀ n, value ≠ .integer n) → (∀ text, value ≠ .string text) →
      ¬ ∃ ns, One AddressText value ns ∧ t = s.addAll ns := by
    rintro hinteger hstring ⟨ns, hns, -⟩
    cases hns with
    | number => exact hinteger _ rfl
    | text => exact hstring _ rfl
  cases value with
  | string text =>
    rw [parseValue, parseAddressText_ok_iff]
    constructor
    · rintro ⟨ns, hns, ht⟩
      exact ⟨ns, .text hns, ht⟩
    · rintro ⟨ns, hns, ht⟩
      cases hns with
      | text hns => exact ⟨ns, hns, ht⟩
  | integer n =>
    constructor
    · intro h
      obtain ⟨m, hm, h⟩ := exists_of_bind_ok (x := jsonUnsigned (.integer n) "addresses" 0) h
      rw [jsonUnsigned] at hm
      split at hm
      · cases hm
      · next hsign =>
        obtain rfl := Except.ok.inj hm
        split at h
        · cases h
        · obtain ⟨hlow, hhigh, rfl⟩ := appendAddress_ok_iff.1 h
          have hn : n = (n.toNat : Int) := by omega
          refine ⟨[n.toNat], ?_, rfl⟩
          conv => arg 2; rw [hn]
          exact .number hlow hhigh
    · rintro ⟨ns, hns, rfl⟩
      cases hns with
      | @number n hlow hhigh =>
        change (if 255 < n then _ else _) = _
        rw [if_neg (by omega)]
        exact appendAddress_ok_iff.2 ⟨hlow, hhigh, rfl⟩
  | null =>
    refine iff_of_false (fun h => ?_) (hnone (by simp) (by simp))
    cases h
  | boolean value =>
    refine iff_of_false (fun h => ?_) (hnone (by simp) (by simp))
    cases h
  | float bits =>
    refine iff_of_false (fun h => ?_) (hnone (by simp) (by simp))
    cases h
  | array items =>
    refine iff_of_false (fun h => ?_) (hnone (by simp) (by simp))
    cases h
  | object fields =>
    refine iff_of_false (fun h => ?_) (hnone (by simp) (by simp))
    cases h

/-- A list of values is taken if each of them is. -/
theorem foldlM_parseValue_ok_iff {values : List Json} :
    values.foldlM parseValue s = .ok t ↔
      ∃ nss, List.Forall₂ (One AddressText) values nss ∧ t = s.addAll nss.flatten := by
  induction values generalizing s with
  | nil =>
    constructor
    · intro h
      exact ⟨[], .nil, (Except.ok.inj h).symm⟩
    · rintro ⟨nss, hnss, rfl⟩
      cases hnss
      rfl
  | cons value values ih =>
    rw [List.foldlM_cons]
    constructor
    · intro h
      obtain ⟨m, hm, h⟩ := exists_of_bind_ok h
      obtain ⟨ns, hns, rfl⟩ := parseValue_ok_iff.1 hm
      obtain ⟨nss, hnss, rfl⟩ := ih.1 h
      exact ⟨ns :: nss, .cons hns hnss, (addAll_append ..).symm⟩
    · rintro ⟨nss, hnss, rfl⟩
      cases hnss with
      | cons hns hnss =>
        rw [parseValue_ok_iff.2 ⟨_, hns, rfl⟩]
        exact ih.2 ⟨_, hnss, addAll_append ..⟩

/-- One value names an address. -/
theorem One.ne_nil {value : Json} {ns : List Nat} (h : One AddressText value ns) : ns ≠ [] := by
  cases h with
  | number => simp
  | text h =>
    rcases h with h | ⟨items, post, -, h, -⟩
    · exact h.ne_nil.2
    · exact h.ne_nil.2

/-- A value names an address. -/
theorem Value.ne_nil {value : Json} {ns : List Nat} (h : Value AddressText value ns) : ns ≠ [] := by
  cases h with
  | one h => exact h.ne_nil
  | list hne h =>
    cases h with
    | nil => exact absurd rfl hne
    | cons h =>
      intro hnil
      rw [List.flatten_cons] at hnil
      exact h.ne_nil (List.append_eq_nil_iff.1 hnil).1

/-- If something is named there is an address. -/
theorem named_ne_nil {ns : List Nat} (h : ns ≠ []) : named ns ≠ [] := by
  obtain ⟨n, ns, rfl⟩ := List.exists_cons_of_ne_nil h
  rw [named, List.eraseDups_cons, List.map_cons]
  exact List.cons_ne_nil _ _

/-- **What is taken as a value**, and what is named by it. -/
theorem parseValues_ok_iff {value : Json} (hne : value ≠ .array []) :
    parseValues value = .ok t ↔ ∃ ns, Value AddressText value ns ∧ t = Addresses.addAll {} ns := by
  rw [parseValues.eq_def]
  split
  · next values =>
    rw [foldlM_parseValue_ok_iff]
    constructor
    · rintro ⟨nss, hnss, ht⟩
      exact ⟨_, .list (fun hnil => hne (by rw [hnil])) hnss, ht⟩
    · rintro ⟨ns, hns, ht⟩
      cases hns with
      | one h => cases h
      | list _ h => exact ⟨_, h, ht⟩
  · next hvalue =>
    rw [parseValue_ok_iff]
    constructor
    · rintro ⟨ns, hns, ht⟩
      exact ⟨ns, .one hns, ht⟩
    · rintro ⟨ns, hns, ht⟩
      cases hns with
      | one h => exact ⟨_, h, ht⟩
      | list _ h => exact absurd rfl (hvalue _)

/-- **What is accepted** is the wider grammar, and the addresses are those that are named. -/
theorem parseAddresses_ok_iff {value : Json} {l : List UInt8} :
    parseAddresses value = .ok l ↔ ∃ ns, Value AddressText value ns ∧ l = named ns := by
  by_cases hempty : value = .array []
  · subst hempty
    refine iff_of_false (fun h => ?_) ?_
    · cases h
    · rintro ⟨ns, hns, -⟩
      cases hns with
      | one h => cases h
      | list hne => exact hne rfl
  · constructor
    · intro h
      obtain ⟨s, hs, h⟩ := exists_of_bind_ok h
      obtain ⟨ns, hns, rfl⟩ := (parseValues_ok_iff hempty).1 hs
      rw [addresses_addAll_empty, if_neg (named_ne_nil hns.ne_nil)] at h
      exact ⟨ns, hns, (Except.ok.inj h).symm⟩
    · rintro ⟨ns, hns, rfl⟩
      rw [parseAddresses, (parseValues_ok_iff hempty).2 ⟨ns, hns, rfl⟩]
      change (if _ then _ else _) = _
      rw [addresses_addAll_empty, if_neg (named_ne_nil hns.ne_nil)]

/-! ## The liberties -/

/-- No plus sign, vertical tab or form feed, and no comma after the last item. -/
def PlainText (text : List UInt8) : Prop :=
  43 ∉ text ∧ 11 ∉ text ∧ 12 ∉ text ∧ (trimCopy text).getLast? ≠ some 44

/-- A text of a value takes none of the liberties. -/
def PlainOne : Json → Prop
  | .string s => PlainText (bytes s)
  | _ => True

/-- No text of a value does. -/
def PlainValue : Json → Prop
  | .array values => ∀ value ∈ values, PlainOne value
  | value => PlainOne value

/-- A number in decimal digits is one for `stoull`. -/
theorem PlainNumber.loose {text : List UInt8} {n : Nat} (h : PlainNumber text n) :
    LooseNumber text n := by
  obtain ⟨pre, digits, post, rfl, hpre, hdigits, hpost⟩ := h
  exact ⟨pre, [], digits, post, by rw [List.append_nil],
    fun c hc => isSpace_of_isBlank (hpre c hc), .inl rfl, hdigits, hpost⟩

/-- There are blanks and digits in a plain number. -/
theorem PlainNumber.mem {text : List UInt8} {n : Nat} (h : PlainNumber text n) :
    ∀ c ∈ text, isBlank c = true ∨ Scan.isDigit c = true := by
  obtain ⟨pre, digits, post, rfl, hpre, hdigits, hpost⟩ := h
  intro c hc
  rcases List.mem_append.1 hc with hc | hc
  · rcases List.mem_append.1 hc with hc | hc
    · exact .inl (hpre c hc)
    · exact .inr (hdigits.isDigit c hc)
  · exact .inl (hpost c hc)

/-- A blank for `stoull` is trimmed, but for the vertical tab and the form feed. -/
theorem isBlank_of_isSpace {c : UInt8} (h : Scan.isSpace c = true) (h11 : c ≠ 11) (h12 : c ≠ 12) :
    isBlank c = true := by
  have hcases : c = 9 ∨ c = 10 ∨ c = 11 ∨ c = 12 ∨ c = 13 ∨ c = 32 := by
    simp only [Scan.isSpace, Bool.or_eq_true, Bool.and_eq_true, decide_eq_true_eq,
      UInt8.le_iff_toNat_le, ← UInt8.toNat_inj, UInt8.reduceToNat] at h ⊢
    omega
  rcases hcases with rfl | rfl | rfl | rfl | rfl | rfl
  · rfl
  · rfl
  · exact absurd rfl h11
  · exact absurd rfl h12
  · rfl
  · rfl

/-- A number for `stoull` is plain, if none of its liberties is taken. -/
theorem LooseNumber.plain {text : List UInt8} {n : Nat} (h : LooseNumber text n) (h43 : 43 ∉ text)
    (h11 : 11 ∉ text) (h12 : 12 ∉ text) : PlainNumber text n := by
  obtain ⟨pre, sign, digits, post, rfl, hpre, hsign, hdigits, hpost⟩ := h
  rcases hsign with rfl | rfl
  · refine ⟨pre, digits, post, by rw [List.append_nil], fun c hc => ?_, hdigits, hpost⟩
    refine isBlank_of_isSpace (hpre c hc) ?_ ?_
    · rintro rfl
      exact h11 (by simp [hc])
    · rintro rfl
      exact h12 (by simp [hc])
  · exact absurd (by simp) h43

section
variable {number number' : List UInt8 → Nat → Prop}

/-- An item stays one when more numbers are admitted. -/
theorem Item.mono {text : List UInt8} {ns : List Nat}
    (hnumber : ∀ sub n, sub ⊆ text → number sub n → number' sub n) (h : Item number text ns) :
    Item number' text ns := by
  cases h with
  | single hn hlow hhigh => exact .single (hnumber _ _ (List.Subset.refl _) hn) hlow hhigh
  | range hm hn hlow hle hhigh =>
    exact .range (hnumber _ _ (List.subset_append_left _ _) hm)
      (hnumber _ _ (fun c hc => by simp [hc]) hn) hlow hle hhigh

/-- Items stay items when more numbers are admitted. -/
theorem Items.mono {text : List UInt8} {ns : List Nat}
    (hnumber : ∀ sub n, sub ⊆ text → number sub n → number' sub n) (h : Items number text ns) :
    Items number' text ns := by
  induction h with
  | last h => exact .last (h.mono hnumber)
  | @cons item rest ns ms h hrest ih =>
    refine .cons (h.mono fun sub n hsub => ?_) (ih fun sub n hsub => ?_)
    · exact hnumber sub n fun c hc => List.mem_append_left _ (hsub hc)
    · exact hnumber sub n fun c hc => by simp [hsub hc]

/-- What is true of the characters of the numbers and of the separators is true of a text. -/
theorem Items.forall_mem {p : UInt8 → Prop} (hnumber : ∀ text n, number text n → ∀ c ∈ text, p c)
    (hdash : p 45) (hcomma : p 44) {text : List UInt8} {ns : List Nat} (h : Items number text ns) :
    ∀ c ∈ text, p c := by
  have hitem : ∀ {text ns}, Item number text ns → ∀ c ∈ text, p c := by
    intro text ns h
    cases h with
    | single hn => exact hnumber _ _ hn
    | range hm hn =>
      intro c hc
      rcases List.mem_append.1 hc with hc | hc
      · exact hnumber _ _ hm c hc
      · rcases List.mem_cons.1 hc with rfl | hc
        · exact hdash
        · exact hnumber _ _ hn c hc
  induction h with
  | last h => exact hitem h
  | cons h hrest ih =>
    intro c hc
    rcases List.mem_append.1 hc with hc | hc
    · exact hitem h c hc
    · rcases List.mem_cons.1 hc with rfl | hc
      · exact hcomma
      · exact ih c hc

end

/-- Items of plain numbers are taken. -/
theorem items_plain_loose {text : List UInt8} {ns : List Nat} (h : Items PlainNumber text ns) :
    Items LooseNumber text ns := h.mono fun _ _ _ => PlainNumber.loose

/-- **A text of the grammar** is one of the wider grammar that takes no liberty. -/
theorem items_plain_iff {text : List UInt8} {ns : List Nat} :
    Items PlainNumber text ns ↔ AddressText text ns ∧ PlainText text := by
  constructor
  · intro h
    have hmem : ∀ c ∈ text, c ≠ 43 ∧ c ≠ 11 ∧ c ≠ 12 := by
      refine h.forall_mem (fun sub n hn c hc => ?_) (by decide) (by decide)
      refine ⟨?_, ?_, ?_⟩ <;>
        (rintro rfl; rcases hn.mem _ hc with h | h <;> cases h)
    have hloose := items_plain_loose h
    refine ⟨.inl hloose, fun hc => (hmem 43 hc).1 rfl, fun hc => (hmem 11 hc).2.1 rfl,
      fun hc => (hmem 12 hc).2.2 rfl, ?_⟩
    have htrimmed := ((items_ignoresBlanks looseNumber_ignoresBlanks ns).trimCopy_iff text).2 hloose
    exact htrimmed.getLast?_ne
  · rintro ⟨h | ⟨items, post, rfl, -, hpost⟩, h43, h11, h12, hlast⟩
    · refine h.mono fun sub n hsub hn => hn.plain ?_ ?_ ?_
      · exact fun hc => h43 (hsub hc)
      · exact fun hc => h11 (hsub hc)
      · exact fun hc => h12 (hsub hc)
    · rw [trimCopy_eq_trim, Scan.trim_append_cons rfl, List.rdropWhile_eq_nil_iff.2 hpost] at hlast
      simp at hlast

/-- A value is that of the grammar if it is taken and none of the liberties is. -/
theorem one_plain_iff {value : Json} {ns : List Nat} :
    One (Items PlainNumber) value ns ↔ One AddressText value ns ∧ PlainOne value := by
  constructor
  · intro h
    cases h with
    | number hlow hhigh => exact ⟨.number hlow hhigh, trivial⟩
    | text h =>
      obtain ⟨htext, hplain⟩ := items_plain_iff.1 h
      exact ⟨.text htext, hplain⟩
  · rintro ⟨h, hplain⟩
    cases h with
    | number hlow hhigh => exact .number hlow hhigh
    | text h => exact .text (items_plain_iff.2 ⟨h, hplain⟩)

/-- **A value of the grammar** is one of the wider grammar that takes no liberty. -/
theorem value_plain_iff {value : Json} {ns : List Nat} :
    Value (Items PlainNumber) value ns ↔ Value AddressText value ns ∧ PlainValue value := by
  have hlist : ∀ {values : List Json} {nss : List (List Nat)},
      List.Forall₂ (One (Items PlainNumber)) values nss ↔
        List.Forall₂ (One AddressText) values nss ∧ ∀ value ∈ values, PlainOne value := by
    intro values
    induction values with
    | nil => simp
    | cons value values ih =>
      intro nss
      cases nss with
      | nil => simp
      | cons ns nss =>
        rw [List.forall₂_cons, List.forall₂_cons, ih, one_plain_iff, List.forall_mem_cons]
        exact and_and_and_comm
  have hone : ∀ {value : Json}, One AddressText value ns → PlainValue value = PlainOne value := by
    intro value h
    cases h <;> rfl
  constructor
  · intro h
    cases h with
    | one h =>
      obtain ⟨h, hplain⟩ := one_plain_iff.1 h
      exact ⟨.one h, hone h ▸ hplain⟩
    | list hne h =>
      obtain ⟨h, hplain⟩ := hlist.1 h
      exact ⟨.list hne h, hplain⟩
  · rintro ⟨h, hplain⟩
    cases h with
    | one h => exact .one (one_plain_iff.2 ⟨h, hone h ▸ hplain⟩)
    | list hne h => exact .list hne (hlist.2 ⟨h, hplain⟩)

/-- The value is parsed as the grammar has it: it is accepted just if the grammar has it, and the
addresses are those that are named, in the order of their first occurrence. -/
def ParsesExactly (value : Json) : Prop :=
  ∀ l, parseAddresses value = .ok l ↔ ∃ ns, Value (Items PlainNumber) value ns ∧ l = named ns

/-- One value names addresses in their range. -/
theorem one_pos {value : Json} {ns : List Nat} (h : One AddressText value ns) :
    ∀ n ∈ ns, 1 ≤ n ∧ n ≤ 255 := by
  have hitem : ∀ {text ns}, Item LooseNumber text ns → ∀ n ∈ ns, 1 ≤ n ∧ n ≤ 255 := by
    intro text ns h
    cases h with
    | single _ hlow hhigh =>
      intro n hn
      rw [List.mem_singleton.1 hn]
      exact ⟨hlow, hhigh⟩
    | range _ _ hlow hle hhigh =>
      intro n hn
      have := List.mem_range'_1.1 hn
      omega
  have hitems : ∀ {text ns}, Items LooseNumber text ns → ∀ n ∈ ns, 1 ≤ n ∧ n ≤ 255 := by
    intro text ns h
    induction h with
    | last h => exact hitem h
    | cons h _ ih => exact List.forall_mem_append.2 ⟨hitem h, ih⟩
  cases h with
  | number hlow hhigh =>
    intro n hn
    rw [List.mem_singleton.1 hn]
    exact ⟨hlow, hhigh⟩
  | text h =>
    rcases h with h | ⟨items, post, -, h, -⟩
    · exact hitems h
    · exact hitems h

/-- A value names addresses in their range. -/
theorem value_pos {value : Json} {ns : List Nat} (h : Value AddressText value ns) :
    ∀ n ∈ ns, 1 ≤ n ∧ n ≤ 255 := by
  cases h with
  | one h => exact one_pos h
  | list _ h =>
    clear * - h
    induction h with
    | nil => simp
    | cons h _ ih => exact List.forall_mem_append.2 ⟨one_pos h, ih⟩

/-- **The addresses are parsed exactly** just where a value that is accepted takes none of the
liberties; and what comes of any value is a list without duplicates of addresses from 1 on that is
not empty, or an error. -/
theorem parses_exactly_iff (value : Json) :
    (∀ l, parseAddresses value = .ok l → l ≠ [] ∧ l.Nodup ∧ ∀ address ∈ l, 1 ≤ address.toNat) ∧
    (ParsesExactly value ↔ ∀ ns, Value AddressText value ns → PlainValue value) := by
  refine ⟨fun l h => ?_, fun hexact ns hns => ?_, fun hplain l => ?_⟩
  · obtain ⟨ns, hns, rfl⟩ := parseAddresses_ok_iff.1 h
    refine ⟨named_ne_nil hns.ne_nil, parseAddresses_nodup h, fun address haddress => ?_⟩
    obtain ⟨n, hn, rfl⟩ := List.mem_map.1 haddress
    have hbounds := value_pos hns n (List.mem_eraseDups.1 hn)
    rw [UInt8.toNat_ofNat']
    omega
  · obtain ⟨ms, hms, -⟩ := (hexact (named ns)).1 (parseAddresses_ok_iff.2 ⟨ns, hns, rfl⟩)
    exact (value_plain_iff.1 hms).2
  · rw [parseAddresses_ok_iff]
    refine exists_congr fun ns => and_congr_left fun _ => ⟨fun h => ?_, fun h => ?_⟩
    · exact value_plain_iff.2 ⟨h, hplain ns h⟩
    · exact (value_plain_iff.1 h).1

/-- A text with an overlap of its items: each address comes once. -/
theorem parses_exactly_range :
    ParsesExactly (.string "3, 1-4") ∧ ([3, 1, 2, 4] : List UInt8).Nodup := by
  obtain ⟨hlist, hexact⟩ := parses_exactly_iff (.string "3, 1-4")
  exact ⟨hexact.2 fun _ _ => ⟨by decide, by decide, by decide, by decide⟩,
    (hlist _ (by decide)).2.1⟩

/-- A comma after the last item is accepted. -/
theorem not_parses_exactly : ¬ ∀ value, ParsesExactly value := by
  intro hexact
  have hparse : parseAddresses (.string "1,") = .ok [1] := by decide
  obtain ⟨ns, hns, -⟩ := (hexact (.string "1,") [1]).1 hparse
  have hplain : PlainText (bytes "1,") := (value_plain_iff.1 hns).2
  exact hplain.2.2.2 (by decide)

end MyGasDetectorPoll
