import FastCppServer.Lib.Scan
import FastCppServer.MyData.Json

/-!
# The YAML of a configuration

`JsonToYaml` writes the fields of an object line by line: a container has its key on a line of its
own and its content behind it, further in. Keys and the strings of fields are written as they are,
what stands behind a dash is dumped as JSON. Only objects have a content, so an array that is an
element of an array comes to nothing.

The JSON library is not part of the repository. `dump` is what it documents; of a `double` it is
the digits of a `FloatDump`. A scalar is read back from its text (`Writes.injective`,
`dump_injective`).
-/

namespace MyMediamtxMonitor

open MyData

/-- A text, character by character. -/
abbrev Text := List Char

/-! ## What the JSON library writes -/

/-- The bits of a `double` that is a number. -/
def Finite (bits : UInt64) : Prop := (bits >>> 52) &&& 0x7FF ≠ 0x7FF

instance (bits : UInt64) : Decidable (Finite bits) := inferInstanceAs (Decidable (_ ≠ _))

/-- `dump` of a `double`: the shortest digits that are read as the same number, never as an
integer. -/
structure FloatDump where
  dump : UInt64 → Text
  dump_injective : ∀ {a b}, Finite a → Finite b → dump a = dump b → a = b
  dump_chars : ∀ {a}, Finite a → ∀ c ∈ dump a, c.isDigit = true ∨ c ∈ ['-', '+', '.', 'e']
  dump_mark : ∀ {a}, Finite a → '.' ∈ dump a ∨ 'e' ∈ dump a
  dump_null : ∀ {a}, ¬ Finite a → dump a = ['n', 'u', 'l', 'l']

/-- `dump_escaped`. -/
def escapeChar (c : Char) : Text :=
  if c = '\x08' then ['\\', 'b']
  else if c = '\t' then ['\\', 't']
  else if c = '\n' then ['\\', 'n']
  else if c = '\x0c' then ['\\', 'f']
  else if c = '\r' then ['\\', 'r']
  else if c = '"' then ['\\', '"']
  else if c = '\\' then ['\\', '\\']
  else if c.toNat ≤ 31 then
    ['\\', 'u', '0', '0', (c.toNat / 16).digitChar, (c.toNat % 16).digitChar]
  else [c]

/-- An integer in decimal digits. -/
def dumpInt (n : Int) : Text :=
  if n < 0 then '-' :: Nat.toDigits 10 n.natAbs else Nat.toDigits 10 n.natAbs

/-- `dump` of a scalar. -/
def dump (d : FloatDump) : Json → Text
  | .null => ['n', 'u', 'l', 'l']
  | .boolean true => ['t', 'r', 'u', 'e']
  | .boolean false => ['f', 'a', 'l', 's', 'e']
  | .integer n => dumpInt n
  | .float bits => d.dump bits
  | .string s => '"' :: (s.toList.flatMap escapeChar ++ ['"'])
  | .array _ | .object _ => []

/-! ## The source's function -/

/-- `is_array`. -/
def isArray : Json → Bool
  | .array _ => true
  | _ => false

/-- `std::string(indent * 2, ' ')`. -/
def pad (indent : Nat) : Text := List.replicate (indent * 2) ' '

mutual

/-- `JsonToYaml`. -/
def jsonToYaml (d : FloatDump) (indent : Nat) : Json → Text
  | .object fields => fieldsToYaml d indent fields
  | _ => []

/-- The loop over the fields of an object. -/
def fieldsToYaml (d : FloatDump) (indent : Nat) : List (String × Json) → Text
  | [] => []
  | (key, value) :: rest =>
    (if value.isObject then
        pad indent ++ key.toList ++ [':', '\n'] ++ jsonToYaml d (indent + 1) value
      else
        match value with
        | .array items => pad indent ++ key.toList ++ [':', '\n'] ++ itemsToYaml d indent items
        | .string s => pad indent ++ key.toList ++ [':', ' ', '"'] ++ s.toList ++ ['"', '\n']
        | .boolean b =>
          pad indent ++ key.toList ++ [':', ' '] ++ (if b then ['y', 'e', 's'] else ['n', 'o']) ++
            ['\n']
        | value => pad indent ++ key.toList ++ [':', ' '] ++ dump d value ++ ['\n']) ++
      fieldsToYaml d indent rest

/-- The loop over the elements of an array that is a field. -/
def itemsToYaml (d : FloatDump) (indent : Nat) : List Json → Text
  | [] => []
  | elem :: rest =>
    (if elem.isObject || isArray elem then
        pad indent ++ [' ', ' ', '-', '\n'] ++ jsonToYaml d (indent + 2) elem
      else pad indent ++ [' ', ' ', '-', ' '] ++ dump d elem ++ ['\n']) ++
      itemsToYaml d indent rest

end

/-! ## Scalars -/

section
variable {d : FloatDump}

/-- A number, if it is a `double` then no infinity and no NaN. -/
def IsNumber : Json → Prop
  | .integer _ => True
  | .float bits => Finite bits
  | _ => False

/-- A character that a number may have. -/
def NumberChar (c : Char) : Prop := c.isDigit = true ∨ c ∈ ['-', '+', '.', 'e']

instance (c : Char) : Decidable (NumberChar c) := inferInstanceAs (Decidable (_ ∨ _))

/-- There are digits and a minus sign in an integer, and nothing else. -/
theorem dumpInt_chars {n : Int} {c : Char} (h : c ∈ dumpInt n) : c.isDigit = true ∨ c = '-' := by
  have hdigits : ∀ c ∈ Nat.toDigits 10 n.natAbs, c.isDigit = true := fun c hc =>
    Nat.isDigit_of_mem_toDigits (by decide) (by decide) hc
  rw [dumpInt] at h
  split at h
  · rcases List.mem_cons.1 h with rfl | h
    · exact .inr rfl
    · exact .inl (hdigits c h)
  · exact .inl (hdigits c h)

/-- Two numbers are not written alike. -/
theorem toDigits_injective {a b : Nat} (h : Nat.toDigits 10 a = Nat.toDigits 10 b) : a = b := by
  rw [← Nat.ofDigitChars_ten_toDigits (n := a), h, Nat.ofDigitChars_ten_toDigits]

/-- Two integers are not written alike. -/
theorem dumpInt_injective {n n' : Int} (h : dumpInt n = dumpInt n') : n = n' := by
  have hminus : ∀ (a : Nat) (l : Text), Nat.toDigits 10 a ≠ '-' :: l := by
    intro a l h
    have hc := Nat.isDigit_of_mem_toDigits (n := a) (b := 10) (c := '-') (by decide) (by decide)
      (by rw [h]; exact List.mem_cons_self)
    cases hc
  rw [dumpInt, dumpInt] at h
  split at h
  · split at h
    · have habs := toDigits_injective (List.cons.inj h).2
      omega
    · exact absurd h.symm (hminus _ _)
  · split at h
    · exact absurd h (hminus _ _)
    · have habs := toDigits_injective h
      omega

/-- The characters of a number. -/
theorem dump_number_chars {v : Json} (hv : IsNumber v) : ∀ c ∈ dump d v, NumberChar c := by
  cases v with
  | integer n =>
    intro c hc
    refine (dumpInt_chars hc).imp_right ?_
    rintro rfl
    decide
  | float bits => exact d.dump_chars hv
  | null | boolean _ | string _ | array _ | object _ => cases hv

/-- The text of a number is no word. -/
theorem dump_number_ne {v : Json} (hv : IsNumber v) {w : Text} (hw : ∃ c ∈ w, ¬ NumberChar c) :
    dump d v ≠ w := by
  obtain ⟨c, hc, hnot⟩ := hw
  intro h
  exact hnot (dump_number_chars hv c (h ▸ hc))

/-- **A number by its text.** -/
theorem dump_number_injective {v v' : Json} (hv : IsNumber v) (hv' : IsNumber v')
    (h : dump d v = dump d v') : v = v' := by
  -- the text of an integer has no point and no exponent
  have hmixed : ∀ (n : Int) (bits : UInt64), Finite bits → dumpInt n ≠ d.dump bits := by
    intro n bits hbits h
    rcases d.dump_mark hbits with hmark | hmark <;>
      rcases dumpInt_chars (h.symm ▸ hmark) with hc | hc <;> revert hc <;> decide
  cases v with
  | integer n =>
    cases v' with
    | integer n' => rw [dumpInt_injective h]
    | float bits => exact absurd h (hmixed n bits hv')
    | null | boolean _ | string _ | array _ | object _ => cases hv'
  | float bits =>
    cases v' with
    | integer n => exact absurd h.symm (hmixed n bits hv)
    | float bits' => rw [d.dump_injective hv hv' h]
    | null | boolean _ | string _ | array _ | object _ => cases hv'
  | null | boolean _ | string _ | array _ | object _ => cases hv

/-- The scalars that are written as words. -/
def words : List Json := [.null, .boolean true, .boolean false]

/-- A number, or a scalar that is written as a word. -/
def IsScalar (v : Json) : Prop := IsNumber v ∨ v ∈ words

/-- The text of a field that is no string. -/
def fieldScalar (d : FloatDump) : Json → Text
  | .boolean b => if b then ['y', 'e', 's'] else ['n', 'o']
  | v => dump d v

/-- No mark of the format is in the text. -/
def Clean (w : Text) : Prop := ':' ∉ w ∧ '"' ∉ w ∧ '\n' ∉ w

instance (w : Text) : Decidable (Clean w) := inferInstanceAs (Decidable (_ ∧ _ ∧ _))

/-- A way to write scalars: the numbers as they are dumped, and three words. -/
structure Writes (d : FloatDump) (text : Json → Text) : Prop where
  number : ∀ v, IsNumber v → text v = dump d v
  word : ∀ v ∈ words, Clean (text v) ∧ ∃ c ∈ text v, ¬ NumberChar c
  distinct : ∀ v ∈ words, ∀ v' ∈ words, text v = text v' → v = v'

/-- The scalars of fields are written so. -/
theorem writes_fieldScalar (d : FloatDump) : Writes d (fieldScalar d) where
  number v hv := by
    cases v with
    | integer _ | float _ => rfl
    | null | boolean _ | string _ | array _ | object _ => cases hv
  word := by
    simp only [words, List.forall_mem_cons, fieldScalar, dump]
    exact ⟨⟨by decide, 'n', by decide, by decide⟩, ⟨by decide, 'y', by decide, by decide⟩,
      ⟨by decide, 'n', by decide, by decide⟩, fun _ h => by cases h⟩
  distinct := by simp [words, fieldScalar, dump]

/-- The scalars of items are written so. -/
theorem writes_dump (d : FloatDump) : Writes d (dump d) where
  number _ _ := rfl
  word := by
    simp only [words, List.forall_mem_cons, dump]
    exact ⟨⟨by decide, 'n', by decide, by decide⟩, ⟨by decide, 't', by decide, by decide⟩,
      ⟨by decide, 'f', by decide, by decide⟩, fun _ h => by cases h⟩
  distinct := by simp [words, dump]

section
variable {text : Json → Text} (htext : Writes d text)
include htext

/-- No mark of the format is in a scalar. -/
theorem Writes.clean {v : Json} (hv : IsScalar v) : Clean (text v) := by
  rcases hv with hv | hv
  · rw [htext.number v hv]
    have hchars := dump_number_chars (d := d) hv
    refine ⟨fun h => ?_, fun h => ?_, fun h => ?_⟩
    all_goals
      have hc := hchars _ h
      revert hc
      decide
  · exact (htext.word v hv).1

/-- **A scalar by its text.** -/
theorem Writes.injective {v v' : Json} (hv : IsScalar v) (hv' : IsScalar v')
    (h : text v = text v') : v = v' := by
  have hmixed : ∀ {v v' : Json}, IsNumber v → v' ∈ words → text v ≠ text v' := by
    intro v v' hv hv'
    rw [htext.number v hv]
    exact dump_number_ne hv (htext.word v' hv').2
  rcases hv with hv | hv
  · rcases hv' with hv' | hv'
    · rw [htext.number v hv, htext.number v' hv'] at h
      exact dump_number_injective hv hv' h
    · exact absurd h (hmixed hv hv')
  · rcases hv' with hv' | hv'
    · exact absurd h.symm (hmixed hv' hv)
    · exact htext.distinct v hv v' hv' h

end

/-! ## Elements -/

/-- The characters that are escaped. -/
def specials : List Char := '"' :: '\\' :: (List.range 32).map Char.ofNat

/-- Control characters are escaped. -/
theorem mem_specials {c : Char} (h : c.toNat ≤ 31) : c ∈ specials := by
  refine List.mem_cons_of_mem _ (List.mem_cons_of_mem _ (List.mem_map.2 ⟨c.toNat, ?_, ?_⟩))
  · exact List.mem_range.2 (Nat.lt_succ_of_le h)
  · exact Char.ofNat_toNat c

/-- Another character stands for itself. -/
theorem escapeChar_of_notMem {c : Char} (h : c ∉ specials) : escapeChar c = [c] := by
  have hne : ∀ s ∈ specials, c ≠ s := fun s hs heq => h (heq ▸ hs)
  have h31 : ¬ c.toNat ≤ 31 := fun hle => h (mem_specials hle)
  rw [escapeChar, if_neg (hne _ (by decide)), if_neg (hne _ (by decide)),
    if_neg (hne _ (by decide)), if_neg (hne _ (by decide)), if_neg (hne _ (by decide)),
    if_neg (hne _ (by decide)), if_neg (hne _ (by decide)), if_neg h31]

/-- An escape begins with the backslash and has no newline, and none begins another. -/
theorem escapeChar_specials : ∀ c ∈ specials, (escapeChar c).head? = some '\\' ∧
    '\n' ∉ escapeChar c ∧ ∀ c' ∈ specials, escapeChar c <+: escapeChar c' → c = c' := by
  have hall : (specials.all fun c => decide ((escapeChar c).head? = some '\\') &&
      decide ('\n' ∉ escapeChar c) && specials.all fun c' =>
        !(escapeChar c).isPrefixOf (escapeChar c') || decide (c = c')) = true := by
    decide +kernel
  intro c hc
  have hescape := List.all_eq_true.1 hall c hc
  rw [Bool.and_eq_true, Bool.and_eq_true] at hescape
  obtain ⟨⟨hhead, hnewline⟩, hprefix⟩ := hescape
  refine ⟨of_decide_eq_true hhead, of_decide_eq_true hnewline, fun c' hc' hp => ?_⟩
  have hsame := List.all_eq_true.1 hprefix c' hc'
  rw [List.isPrefixOf_iff_prefix.2 hp] at hsame
  exact of_decide_eq_true hsame

/-- Two characters are not escaped alike. -/
theorem escapeChar_injective {c c' : Char} {r r' : Text}
    (h : escapeChar c ++ r = escapeChar c' ++ r') : c = c' ∧ r = r' := by
  have hhead : ∀ {c c' : Char} {r r' : Text}, c ∈ specials → c' ∉ specials →
      escapeChar c ++ r ≠ escapeChar c' ++ r' := by
    intro c c' r r' hc hc' h
    obtain ⟨l, hl⟩ := List.head?_eq_some_iff.1 (escapeChar_specials c hc).1
    rw [hl, escapeChar_of_notMem hc'] at h
    exact hc' ((List.cons.inj h).1 ▸ by decide)
  have hcc' : c = c' := by
    by_cases hc : c ∈ specials
    · by_cases hc' : c' ∈ specials
      · rcases List.prefix_or_prefix_of_prefix ⟨r, h⟩ (List.prefix_append (escapeChar c') r') with
          hp | hp
        · exact (escapeChar_specials c hc).2.2 c' hc' hp
        · exact ((escapeChar_specials c' hc').2.2 c hc hp).symm
      · exact absurd h (hhead hc hc')
    · by_cases hc' : c' ∈ specials
      · exact absurd h.symm (hhead hc' hc)
      · rw [escapeChar_of_notMem hc, escapeChar_of_notMem hc'] at h
        exact (List.cons.inj h).1
  subst hcc'
  exact ⟨rfl, List.append_cancel_left h⟩

/-- Two texts are not escaped alike. -/
theorem escape_injective {s s' : Text} (h : s.flatMap escapeChar = s'.flatMap escapeChar) :
    s = s' := by
  have hne : ∀ (c : Char) (l : Text), (c :: l).flatMap escapeChar ≠ [] := by
    intro c l hnil
    rw [List.flatMap_cons] at hnil
    by_cases hc : c ∈ specials
    · have hhead := (escapeChar_specials c hc).1
      rw [(List.append_eq_nil_iff.1 hnil).1] at hhead
      cases hhead
    · rw [escapeChar_of_notMem hc] at hnil
      cases hnil
  induction s generalizing s' with
  | nil =>
    cases s' with
    | nil => rfl
    | cons c s' => exact absurd h.symm (hne c s')
  | cons c s ih =>
    cases s' with
    | nil => exact absurd h (hne c s)
    | cons c' s' =>
      rw [List.flatMap_cons, List.flatMap_cons] at h
      obtain ⟨rfl, hrest⟩ := escapeChar_injective h
      rw [ih hrest]

/-- There is no end of a line in an escaped text. -/
theorem newline_notMem_escape (s : Text) : '\n' ∉ s.flatMap escapeChar := by
  intro h
  obtain ⟨c, -, hc⟩ := List.mem_flatMap.1 h
  by_cases hs : c ∈ specials
  · exact (escapeChar_specials c hs).2.1 hc
  · rw [escapeChar_of_notMem hs, List.mem_singleton] at hc
    exact hs (hc ▸ by decide)

/-- What stands behind a dash. -/
def IsElement (v : Json) : Prop := IsScalar v ∨ ∃ s, v = .string s

/-- There is no end of a line in an item. -/
theorem newline_notMem_dump {v : Json} (hv : IsElement v) : '\n' ∉ dump d v := by
  rcases hv with hv | ⟨s, rfl⟩
  · exact ((writes_dump d).clean hv).2.2
  · intro h
    rcases List.mem_cons.1 h with h | h
    · cases h
    · rcases List.mem_append.1 h with h | h
      · exact newline_notMem_escape _ h
      · revert h
        decide

/-- **Two items are not dumped alike.** -/
theorem dump_injective {v v' : Json} (hv : IsElement v) (hv' : IsElement v')
    (h : dump d v = dump d v') : v = v' := by
  have hquote : ∀ {v : Json} (s : String), IsScalar v → dump d v ≠ dump d (.string s) := by
    intro v s hv h
    exact ((writes_dump d).clean hv).2.1 (h ▸ List.mem_cons_self)
  rcases hv with hv | ⟨s, rfl⟩
  · rcases hv' with hv' | ⟨s', rfl⟩
    · exact (writes_dump d).injective hv hv' h
    · exact absurd h (hquote s' hv)
  · rcases hv' with hv' | ⟨s', rfl⟩
    · exact absurd h.symm (hquote s hv')
    · rw [dump, dump] at h
      have htext := escape_injective (List.append_cancel_right (List.cons.inj h).2)
      rw [String.toList_inj.1 htext]

end

end MyMediamtxMonitor
