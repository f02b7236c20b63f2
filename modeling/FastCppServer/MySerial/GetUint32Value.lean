import FastCppServer.Lib.Scanf

/-!
# The numbers of a serial configuration

`GetUint32Value` takes the value of the first key that is there and not null. A JSON integer is
compared with the range of `uint32_t`, in either of its two representations. A string is handed to
`stoull`, which passes over blanks and a sign, stops at the first character that is no digit and
takes a negative number modulo `2 ^ 64`: strings that are no number are read as one
(`LooseText`), and they are the only values that are misread (`getUint32Value_exact_iff`).
-/

namespace MySerial

open Scan

/-- A text of the configuration, as its bytes. -/
abbrev Text := List UInt8

/-- `nlohmann::json`. An integer has one of two representations, a floating-point number is its
bits. -/
inductive Json where
  | null
  | boolean (value : Bool)
  | unsigned (value : UInt64)
  | integer (value : Int64)
  | float (bits : UInt64)
  | string (value : Text)
  | array (items : List Json)
  | object (fields : List (String × Json))

/-- `cfg.at(key)`, where `cfg.contains(key)`. -/
def Json.find : Json → String → Option Json
  | object fields, key => fields.lookup key
  | _, _ => none

/-- Whether a value is null. -/
def Json.isNull : Json → Bool
  | null => true
  | _ => false

/-- What is thrown. -/
inductive Error where
  | invalidArgument (what : String)
  /-- An exception of `std::stoull`, `invalid_argument` or `out_of_range`. -/
  | stoull
  deriving DecidableEq

/-- The error for a number that does not fit. -/
def outOfUint32Range (key : String) : Error :=
  .invalidArgument ("serial config field '" ++ key ++ "' is out of uint32 range")

/-- The error for a value that is no number. -/
def mustBeUnsigned (key : String) : Error :=
  .invalidArgument ("serial config field '" ++ key ++ "' must be an unsigned integer")

/-- The body of the loop, for a value that is there and not null. -/
def readUint32 (key : String) : Json → Except Error UInt32
  | .unsigned parsed =>
    if parsed.toNat > 2 ^ 32 - 1 then .error (outOfUint32Range key)
    else .ok (.ofNat parsed.toNat)
  | .integer parsed =>
    if parsed.toInt < 0 ∨ parsed.toInt > 2 ^ 32 - 1 then .error (outOfUint32Range key)
    else .ok (.ofNat parsed.toInt.toNat)
  | .string text =>
    match stoull text with
    | none => .error .stoull
    | some parsed =>
      if parsed > 2 ^ 32 - 1 then .error (outOfUint32Range key) else .ok (.ofNat parsed)
  | _ => .error (mustBeUnsigned key)

/-- `getUint32Value`: the first key with a value that is not null decides; without one the default
is used. -/
def getUint32Value (cfg : Json) (keys : List String) (defaultValue : UInt32) :
    Except Error UInt32 :=
  match keys with
  | [] => .ok defaultValue
  | key :: keys =>
    match cfg.find key with
    | none => getUint32Value cfg keys defaultValue
    | some value =>
      if value.isNull then getUint32Value cfg keys defaultValue else readUint32 key value

/-! ## What a value denotes -/

/-- A text of decimal digits only. -/
structure Digits (text : Text) (n : Nat) : Prop where
  ne_nil : text ≠ []
  isDigit : ∀ c ∈ text, isDigit c = true
  value_eq : Scan.value text = n

/-- The number that a value denotes: the integer it is, or that its digits are. -/
inductive Denotes : Json → Nat → Prop where
  | unsigned {v : UInt64} : Denotes (.unsigned v) v.toNat
  | integer {v : Int64} {n : Nat} (h : v.toInt = n) : Denotes (.integer v) n
  | string {text : Text} {n : Nat} (h : Digits text n) : Denotes (.string text) n

/-- A text that `stoull` takes for a 32-bit number although it is more than digits: there is a blank
or a sign before them, or anything behind them. -/
def LooseText (text : Text) : Prop :=
  (∃ numeral rest n, text = numeral ++ rest ∧ Numeral numeral n ∧
    (∀ c ∈ rest.head?, isDigit c = false) ∧ n.natAbs < 2 ^ 64 ∧ n % 2 ^ 64 < 2 ^ 32) ∧
  ¬ ∃ n, Digits text n

/-- The value of the first key that is there and not null, with the key. -/
def firstPresent (cfg : Json) (keys : List String) : Option (String × Json) :=
  keys.findSome? fun key => ((cfg.find key).filter fun value => !value.isNull).map (key, ·)

/-! ## Which values are misread -/

/-- The value of `strtol` without its end. -/
theorem strtol_eq (s : Text) : strtol s = (readInt s).map Prod.fst := by
  have hmap : ∀ (f : Nat → Int) (l : Text), (readDigits l).map f =
      ((readDigits l).map fun n => (f n, l.dropWhile isDigit)).map Prod.fst := by
    intro f l
    rw [Option.map_map]
    rfl
  rw [readInt]
  split
  · next l hl =>
    rw [strtol, hl]
    exact hmap _ l
  · next l hl =>
    rw [strtol, hl]
    exact hmap _ l
  · next hminus hplus =>
    rw [strtol]
    split
    · next l hl => exact absurd hl (hminus l)
    · next l hl => exact absurd hl (hplus l)
    · exact hmap _ _

/-- **What `stoull` takes.** -/
theorem stoull_eq_some {text : Text} {m : Nat} :
    stoull text = some m ↔ ∃ numeral rest n, text = numeral ++ rest ∧ Numeral numeral n ∧
      (∀ c ∈ rest.head?, isDigit c = false) ∧ n.natAbs < 2 ^ 64 ∧ n % 2 ^ 64 = m := by
  rw [stoull, Option.map_eq_some_iff]
  constructor
  · rintro ⟨n, hn, rfl⟩
    obtain ⟨hread, hlt⟩ := Option.filter_eq_some_iff.1 hn
    rw [strtol_eq, Option.map_eq_some_iff] at hread
    obtain ⟨⟨n', rest⟩, hint, rfl⟩ := hread
    obtain ⟨numeral, htext, hnumeral, hrest⟩ := readInt_eq_some.1 hint
    exact ⟨numeral, rest, n', htext, hnumeral, hrest, by simpa using hlt, by omega⟩
  · rintro ⟨numeral, rest, n, htext, hnumeral, hrest, hlt, hm⟩
    refine ⟨n, Option.filter_eq_some_iff.2 ⟨?_, by simpa using hlt⟩, by omega⟩
    rw [strtol_eq, readInt_eq_some.2 ⟨numeral, htext, hnumeral, hrest⟩]
    rfl

/-- Digits are taken for what they are. -/
theorem Digits.stoull_eq {text : Text} {n : Nat} (h : Digits text n) (hn : n < 2 ^ 64) :
    stoull text = some n := by
  refine stoull_eq_some.2 ⟨text, [], n, (List.append_nil text).symm, ?_, ?_, by omega, by omega⟩
  · rw [← h.value_eq]
    exact numeral_digits h.ne_nil h.isDigit
  · intro c hc
    cases hc

/-- Digits of too large a number are refused by `stoull`. -/
theorem Digits.stoull_none {text : Text} {n : Nat} (h : Digits text n) (hn : 2 ^ 64 ≤ n) :
    stoull text = none := by
  rw [stoull, strtol_digits h.ne_nil h.isDigit, h.value_eq, Option.map_eq_none_iff,
    Option.filter_some, if_neg]
  simpa using hn

/-- A value is read as what it denotes and as nothing else. -/
def ReadExactly (value : Json) (result : Except Error UInt32) : Prop :=
  ∀ n : UInt32, result = .ok n ↔ Denotes value n.toNat

/-- Casting loses nothing below 2^32. -/
theorem ofNat_eq_iff {m : Nat} (hm : m < 2 ^ 32) {n : UInt32} :
    UInt32.ofNat m = n ↔ m = n.toNat := by
  rw [← UInt32.toNat_inj, UInt32.toNat_ofNat', Nat.mod_eq_of_lt hm]

/-- What an unsigned number denotes. -/
theorem denotes_unsigned {v : UInt64} {n : Nat} : Denotes (.unsigned v) n ↔ v.toNat = n := by
  constructor
  · intro h
    cases h with
    | unsigned => rfl
  · intro h
    rw [← h]
    exact .unsigned

/-- What a signed number denotes. -/
theorem denotes_integer {v : Int64} {n : Nat} : Denotes (.integer v) n ↔ v.toInt = n := by
  constructor
  · intro h
    cases h with
    | integer hv => exact hv
  · exact .integer

/-- What a text denotes. -/
theorem denotes_string {text : Text} {n : Nat} : Denotes (.string text) n ↔ Digits text n := by
  constructor
  · intro h
    cases h with
    | string hdigits => exact hdigits
  · exact .string

/-- Unsigned numbers are read exactly. -/
theorem readUint32_unsigned (key : String) (v : UInt64) :
    ReadExactly (.unsigned v) (readUint32 key (.unsigned v)) := by
  intro n
  have hn : n.toNat < 2 ^ 32 := n.toNat_lt
  rw [readUint32, denotes_unsigned]
  constructor
  · intro h
    split at h
    · cases h
    · next hle => rwa [Except.ok.injEq, ofNat_eq_iff (by omega)] at h
  · intro h
    rw [if_neg (by omega), Except.ok.injEq, ofNat_eq_iff (by omega)]
    exact h

/-- So are signed ones. -/
theorem readUint32_integer (key : String) (v : Int64) :
    ReadExactly (.integer v) (readUint32 key (.integer v)) := by
  intro n
  have hn : n.toNat < 2 ^ 32 := n.toNat_lt
  rw [readUint32, denotes_integer]
  constructor
  · intro h
    split at h
    · cases h
    · next hin =>
      rw [Except.ok.injEq, ofNat_eq_iff (by omega)] at h
      omega
  · intro h
    rw [if_neg (by omega), Except.ok.injEq, ofNat_eq_iff (by omega)]
    omega

/-- What `stoull` takes is returned, if it is small enough. -/
theorem readUint32_taken {key : String} {text : Text} {n : UInt32} :
    readUint32 key (.string text) = .ok n ↔ stoull text = some n.toNat := by
  have hn : n.toNat < 2 ^ 32 := n.toNat_lt
  rw [readUint32]
  constructor
  · intro h
    split at h
    · cases h
    · next parsed htaken =>
      split at h
      · cases h
      · next hle =>
        rw [Except.ok.injEq, ofNat_eq_iff (by omega)] at h
        rw [htaken, h]
  · intro h
    rw [h]
    dsimp only
    rw [if_neg (by omega), UInt32.ofNat_toNat]

/-- Digits are read for the number that they are. -/
theorem readUint32_digits (key : String) {text : Text} {m : Nat} (hm : Digits text m) :
    ReadExactly (.string text) (readUint32 key (.string text)) := by
  intro n
  have hn : n.toNat < 2 ^ 32 := n.toNat_lt
  rw [readUint32_taken, denotes_string]
  constructor
  · intro htaken
    by_cases hfits : m < 2 ^ 64
    · rw [hm.stoull_eq hfits, Option.some.injEq] at htaken
      rwa [← htaken]
    · rw [hm.stoull_none (by omega)] at htaken
      cases htaken
  · intro hdigits
    exact hdigits.stoull_eq (by omega)

/-- **A string is misread** where `stoull` takes more than digits. -/
theorem readUint32_string (key : String) (text : Text) :
    ReadExactly (.string text) (readUint32 key (.string text)) ↔ ¬ LooseText text := by
  constructor
  · -- What is taken loosely is returned, though no digits denote it.
    rintro hexact ⟨⟨numeral, rest, n, htext, hnumeral, hrest, hlt, hsmall⟩, hno⟩
    obtain ⟨m, hm⟩ := Int.eq_ofNat_of_zero_le (Int.emod_nonneg n (by decide : (2 : Int) ^ 64 ≠ 0))
    have hback : (UInt32.ofNat m).toNat = m := ((ofNat_eq_iff (by omega)).1 rfl).symm
    have hread : readUint32 key (.string text) = .ok (.ofNat m) := by
      rw [readUint32_taken, hback]
      exact stoull_eq_some.2 ⟨numeral, rest, n, htext, hnumeral, hrest, hlt, hm⟩
    exact hno ⟨_, denotes_string.1 ((hexact (.ofNat m)).1 hread)⟩
  · intro hloose
    by_cases hdigits : ∃ m, Digits text m
    · obtain ⟨m, hm⟩ := hdigits
      exact readUint32_digits key hm
    · -- Neither digits nor taken: nothing is returned.
      intro n
      have hn : n.toNat < 2 ^ 32 := n.toNat_lt
      rw [readUint32_taken, denotes_string]
      constructor
      · intro htaken
        obtain ⟨numeral, rest, k, htext, hnumeral, hrest, hlt, hm⟩ := stoull_eq_some.1 htaken
        exact absurd ⟨⟨numeral, rest, k, htext, hnumeral, hrest, hlt, by omega⟩, hdigits⟩ hloose
      · intro h
        exact absurd ⟨_, h⟩ hdigits

/-- No other kind of value is read. -/
theorem readUint32_other {key : String} {value : Json}
    (h : readUint32 key value = .error (mustBeUnsigned key)) (hno : ∀ n, ¬ Denotes value n) :
    ReadExactly value (readUint32 key value) := by
  intro n
  rw [h]
  constructor
  · intro hok
    cases hok
  · intro hdenotes
    exact absurd hdenotes (hno _)

/-- **A value is read exactly** unless it is a loose text. -/
theorem readUint32_exact_iff (key : String) (value : Json) :
    ReadExactly value (readUint32 key value) ↔ ∀ text, value = .string text → ¬ LooseText text := by
  cases value with
  | string text =>
    rw [readUint32_string]
    constructor
    · rintro h _ ⟨⟩
      exact h
    · intro h
      exact h text rfl
  | unsigned v => exact iff_of_true (readUint32_unsigned key v) (by rintro _ ⟨⟩)
  | integer v => exact iff_of_true (readUint32_integer key v) (by rintro _ ⟨⟩)
  | null => exact iff_of_true (readUint32_other rfl (by rintro _ ⟨⟩)) (by rintro _ ⟨⟩)
  | boolean b => exact iff_of_true (readUint32_other rfl (by rintro _ ⟨⟩)) (by rintro _ ⟨⟩)
  | float bits => exact iff_of_true (readUint32_other rfl (by rintro _ ⟨⟩)) (by rintro _ ⟨⟩)
  | array items => exact iff_of_true (readUint32_other rfl (by rintro _ ⟨⟩)) (by rintro _ ⟨⟩)
  | object fields => exact iff_of_true (readUint32_other rfl (by rintro _ ⟨⟩)) (by rintro _ ⟨⟩)

/-! ## The keys -/

/-- The loop returns at the first key that is there and not null. -/
theorem getUint32Value_eq (cfg : Json) (keys : List String) (defaultValue : UInt32) :
    getUint32Value cfg keys defaultValue =
      match firstPresent cfg keys with
      | none => .ok defaultValue
      | some (key, value) => readUint32 key value := by
  induction keys with
  | nil => rfl
  | cons key keys ih =>
    rw [getUint32Value, firstPresent, List.findSome?_cons, ← firstPresent]
    cases cfg.find key with
    | none => exact ih
    | some value =>
      by_cases hnull : value.isNull = true
      · rw [Option.filter_some, hnull]
        show (if value.isNull = true then _ else _) = _
        rw [if_pos hnull]
        exact ih
      · rw [Option.filter_some, Bool.eq_false_iff.2 hnull]
        show (if value.isNull = true then _ else _) = _
        rw [if_neg hnull]
        rfl

/-- **When a number is read exactly.** Without a key that is there and not null the default is
returned. Otherwise the number returned is the one that the value denotes, and without such a number
the call throws, unless the value is a string that is more than digits but begins with a number that
`stoull` takes. -/
theorem getUint32Value_exact_iff (cfg : Json) (keys : List String) (defaultValue : UInt32) :
    (firstPresent cfg keys = none → getUint32Value cfg keys defaultValue = .ok defaultValue) ∧
    ∀ key value, firstPresent cfg keys = some (key, value) →
      (ReadExactly value (getUint32Value cfg keys defaultValue) ↔
        ∀ text, value = .string text → ¬ LooseText text) := by
  rw [getUint32Value_eq]
  constructor
  · intro h
    rw [h]
  · intro key value h
    rw [h]
    exact readUint32_exact_iff key value

/-- A configuration with a rate given as a text, under the second of its keys. -/
def rateConfig (text : String) : Json :=
  .object [("baud_rate", .string text.toUTF8.toList), ("baudrate", .null)]

/-- Digits are read for what they are, more than digits is read for a number that it is not. -/
theorem getUint32Value_exact_rate :
    getUint32Value (rateConfig "115200") ["baudrate", "baud_rate"] 9600 = .ok 115200 ∧
    ReadExactly (.string "115200".toUTF8.toList)
      (getUint32Value (rateConfig "115200") ["baudrate", "baud_rate"] 9600) ∧
    ¬ ReadExactly (.string "5abc".toUTF8.toList)
      (getUint32Value (rateConfig "5abc") ["baudrate", "baud_rate"] 9600) := by
  have hplain := (getUint32Value_exact_iff (rateConfig "115200") ["baudrate", "baud_rate"] 9600).2
    "baud_rate" (.string "115200".toUTF8.toList) (by rfl)
  have hloose := (getUint32Value_exact_iff (rateConfig "5abc") ["baudrate", "baud_rate"] 9600).2
    "baud_rate" (.string "5abc".toUTF8.toList) (by rfl)
  refine ⟨by decide +kernel, hplain.2 ?_, ?_⟩
  · rintro text htext ⟨-, hno⟩
    cases htext
    exact hno ⟨115200, by decide +kernel, by decide +kernel, by decide +kernel⟩
  · intro hexact
    refine hloose.1 hexact _ rfl ⟨⟨[53], [97, 98, 99], 5, by decide +kernel, ?_,
      by decide +kernel, by decide, by decide⟩, ?_⟩
    · exact ⟨[], [], [53], rfl, by decide +kernel, by decide, by decide +kernel,
        .inl ⟨.inl rfl, rfl⟩⟩
    · rintro ⟨n, hdigits⟩
      have hlast := hdigits.isDigit 97 (by decide +kernel)
      cases hlast

/-- A negative text is returned as the number it is modulo `2 ^ 64`. -/
theorem getUint32Value_negative : ¬ ∀ (fields : List (String × Json)) (keys : List String)
    (defaultValue : UInt32) (key : String) (value : Json),
    firstPresent (.object fields) keys = some (key, value) →
      ReadExactly value (getUint32Value (.object fields) keys defaultValue) := by
  intro h
  have hexact := h [("timeout_ms", .string "-18446744073709551615".toUTF8.toList)] ["timeout_ms"]
    1000 "timeout_ms" (.string "-18446744073709551615".toUTF8.toList) (by rfl)
  have hread : getUint32Value (.object [("timeout_ms", .string
      "-18446744073709551615".toUTF8.toList)]) ["timeout_ms"] 1000 = .ok 1 := by
    decide +kernel
  have hdigits := denotes_string.1 ((hexact 1).1 hread)
  have hsign := hdigits.isDigit 45 (by decide +kernel)
  cases hsign

end MySerial
