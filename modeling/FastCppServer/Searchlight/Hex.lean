import FastCppServer.Lib.Scan
import FastCppServer.Searchlight.Protocol

/-!
# Hexadecimal text

`toHex` writes two digits for each byte, `fromHex` reads the digits of a text two by two and skips
everything else. What it reads depends only on the values of the digits (`fromHex_eq`), so the bytes
come back from their text, and the text of what was read is the text itself in canonical form.
-/

namespace SearchlightControl

open Bytes

/-- A text, byte by byte. -/
abbrev Text := List UInt8

/-! ## The C library -/

/-- `std::isxdigit` in the C locale. -/
def isxdigit (c : UInt8) : Bool :=
  (48 ≤ c && c ≤ 57) || (65 ≤ c && c ≤ 70) || (97 ≤ c && c ≤ 102)

/-- `std::tolower` in the C locale. -/
def tolower (c : UInt8) : UInt8 := if 65 ≤ c ∧ c ≤ 90 then c + 32 else c

/-- `std::toupper` in the C locale. -/
def toupper (c : UInt8) : UInt8 := if 97 ≤ c ∧ c ≤ 122 then c - 32 else c

/-- The value of a hexadecimal digit. -/
def xdigit (c : UInt8) : Nat :=
  if c ≤ 57 then c.toNat - 48 else if c ≤ 70 then c.toNat - 55 else c.toNat - 87

/-- `strtol(s, &end, 16)` and what is left from `end` on, for a number that is a `long`. -/
def strtol16 (s : Text) : Int × Text :=
  let body := s.dropWhile Scan.isSpace
  let negative := body.head? = some 45
  let body := if negative ∨ body.head? = some 43 then body.tail else body
  let marked := body.head? = some 48 ∧ (body[1]? = some 120 ∨ body[1]? = some 88) ∧
    (body[2]?.map isxdigit) = some true
  let body := if marked then body.drop 2 else body
  let digits := body.takeWhile isxdigit
  let value : Int := digits.foldl (fun n c => 16 * n + xdigit c) 0
  if digits = [] then (0, s) else (if negative then -value else value, body.dropWhile isxdigit)

/-! ## The source's function -/

/-- The digits of the text, in lower case. -/
def compact (hexText : Text) : Text := (hexText.filter isxdigit).map tolower

/-- The byte of an item. `*end` is the zero behind the text where the item is read to its end. -/
def readItem (item : Text) : Option Byte :=
  let value := (strtol16 item).1
  let stop := (strtol16 item).2
  if byteAt stop 0 ≠ 0 ∨ value < 0 ∨ 255 < value then none else some (.ofInt value)

/-- The loop over the items of two digits. -/
def readItems : Text → List Byte → Bool × List Byte
  | [], bytes => (true, bytes)
  | [c], bytes =>
    match readItem [c] with
    | some byte => (true, bytes ++ [byte])
    | none => (false, [])
  | c :: d :: rest, bytes =>
    match readItem [c, d] with
    | some byte => readItems rest (bytes ++ [byte])
    | none => (false, [])

/-- `fromHex`, with the bytes it leaves. -/
def fromHex (hexText : Text) : Bool × List Byte :=
  if (compact hexText).length % 2 ≠ 0 then (false, []) else readItems (compact hexText) []

/-! ## Digits -/

/-- The digit of a value, in upper case. -/
def upperDigit (n : Nat) : UInt8 := .ofNat (hexDigit n).toNat

/-- The upper-case digits are digits, and stand for their number. -/
theorem upperDigit_spec : ∀ n < 16, (hexDigit n).toNat < 128 ∧ isxdigit (upperDigit n) = true ∧
    xdigit (upperDigit n) = n := by
  decide

/-- What holds of the 256 codes holds of every byte. -/
theorem forall_byte {p : UInt8 → Prop} (h : ∀ n < 256, p (.ofNat n)) (c : UInt8) : p c := by
  have hc := h c.toNat c.toNat_lt
  rwa [UInt8.ofNat_toNat] at hc

/-- What is known of a digit: its value and its two spellings. -/
theorem digit_spec {c : UInt8} (h : isxdigit c = true) :
    xdigit c < 16 ∧ upperDigit (xdigit c) = toupper c ∧ isxdigit (tolower c) = true ∧
      xdigit (tolower c) = xdigit c := by
  revert h
  revert c
  apply forall_byte
  decide +kernel

/-- A digit is neither a blank nor a sign. -/
theorem digit_plain {c : UInt8} (h : isxdigit c = true) :
    Scan.isSpace c = false ∧ c ≠ 45 ∧ c ≠ 43 := by
  revert h
  revert c
  apply forall_byte
  decide +kernel

/-- **An item of two digits** is the byte they denote. -/
theorem readItem_digits {c d : UInt8} (hc : isxdigit c = true) (hd : isxdigit d = true) :
    readItem [c, d] = some (.ofNat (16 * xdigit c + xdigit d)) := by
  obtain ⟨hspace, hminus, hplus⟩ := digit_plain hc
  have hlow := (digit_spec hc).1
  have hlow' := (digit_spec hd).1
  have hstrtol : strtol16 [c, d] = (((16 * xdigit c + xdigit d : Nat) : Int), []) := by
    simp [strtol16, hspace, hminus, hplus, hc, hd]
  rw [readItem, hstrtol]
  dsimp only
  rw [if_neg]
  · rw [UInt8.ofInt]
    congr 2
    omega
  · rintro (h | h | h)
    · exact h rfl
    · omega
    · omega

/-- The values of the digits of a text. -/
def values (t : Text) : List Nat := (t.filter isxdigit).map xdigit

/-- The bytes that the values denote, two by two. -/
def decoded : List Nat → List Byte
  | a :: b :: rest => .ofNat (16 * a + b) :: decoded rest
  | _ => []

/-- No digits stand for no bytes. -/
theorem decoded_nil : decoded [] = [] := rfl

/-- Two digits stand for a byte, the upper half first. -/
theorem decoded_cons (a b : Nat) (rest : List Nat) :
    decoded (a :: b :: rest) = .ofNat (16 * a + b) :: decoded rest := rfl

/-- Nothing is left to read. -/
theorem readItems_nil (bytes : List Byte) : readItems [] bytes = (true, bytes) := rfl

/-- Two characters are read as a byte, or the text is refused. -/
theorem readItems_cons (c d : UInt8) (rest : Text) (bytes : List Byte) :
    readItems (c :: d :: rest) bytes =
      match readItem [c, d] with
      | some byte => readItems rest (bytes ++ [byte])
      | none => (false, []) := by
  rfl

/-- An even number of digits is read, two and two. -/
theorem readItems_eq {l : Text} (h : ∀ c ∈ l, isxdigit c = true) (heven : l.length % 2 = 0)
    (bytes : List Byte) : readItems l bytes = (true, bytes ++ decoded (l.map xdigit)) := by
  induction l using List.twoStepInduction generalizing bytes with
  | nil => rw [List.map_nil, decoded_nil, List.append_nil, readItems_nil]
  | singleton c => exact absurd heven Nat.one_ne_zero
  | cons_cons c d rest ih _ =>
    have hrest : ∀ e ∈ rest, isxdigit e = true := fun e he =>
      h e (List.mem_cons_of_mem c (List.mem_cons_of_mem d he))
    have hlen : rest.length % 2 = 0 := by
      rw [List.length_cons, List.length_cons] at heven
      omega
    rw [readItems_cons, readItem_digits (h c List.mem_cons_self)
      (h d (List.mem_cons_of_mem c List.mem_cons_self))]
    dsimp only
    rw [ih hrest hlen, List.append_assoc, List.singleton_append, List.map_cons, List.map_cons,
      decoded_cons]

/-- What is left when the separators are taken out are digits. -/
theorem compact_digits (t : Text) : ∀ c ∈ compact t, isxdigit c = true := by
  intro c hc
  obtain ⟨d, hd, rfl⟩ := List.mem_map.1 hc
  exact (digit_spec (List.mem_filter.1 hd).2).2.2.1

/-- The digits that are left are those of the text, in its order. -/
theorem map_xdigit_compact (t : Text) : (compact t).map xdigit = values t := by
  rw [compact, List.map_map, values]
  refine List.map_congr_left fun c hc => ?_
  exact (digit_spec (List.mem_filter.1 hc).2).2.2.2

/-- **What is read depends on the values of the digits only.** -/
theorem fromHex_eq (t : Text) : fromHex t =
    if (values t).length % 2 = 0 then (true, decoded (values t)) else (false, []) := by
  have hlen : (compact t).length = (values t).length := by
    rw [← map_xdigit_compact, List.length_map]
  rw [fromHex, hlen]
  by_cases heven : (values t).length % 2 = 0
  · rw [if_neg (not_not.2 heven), if_pos heven, ← map_xdigit_compact,
      readItems_eq (compact_digits t) (hlen ▸ heven), List.nil_append]
  · rw [if_pos heven, if_neg heven]

/-! ## What is written -/

/-- The two digits of a byte. -/
def hexPair (b : Byte) : Text := [upperDigit (b.toNat / 16), upperDigit (b.toNat % 16)]

/-- The characters of `toHex`. -/
def hexChars (bytes : List Byte) : List Char :=
  [' '].intercalate (bytes.map fun b => [hexDigit (b.toNat / 16), hexDigit (b.toNat % 16)])

/-- Between two bytes there is a space. -/
theorem hexChars_cons_cons (b b' : Byte) (rest : List Byte) :
    hexChars (b :: b' :: rest) =
      [hexDigit (b.toNat / 16), hexDigit (b.toNat % 16)] ++ [' '] ++ hexChars (b' :: rest) :=
  List.intercalate_cons_cons

/-- `ToHex` writes two digits for each byte, with spaces between them. -/
theorem toHex_eq (bytes : List Byte) : toHex bytes = String.ofList (hexChars bytes) := by
  apply String.toList_inj.1
  have hpair : ∀ b ∈ bytes, (String.toList ∘ byteToHex) b =
      [hexDigit (b.toNat / 16), hexDigit (b.toNat % 16)] := fun b _ => String.toList_ofList
  rw [toHex, String.toList_intercalate, String.toList_ofList, List.map_map,
    List.map_congr_left hpair, String.toList_ofList, hexChars]

/-- The halves of a byte are digits. -/
theorem nibbles_lt (b : Byte) : b.toNat / 16 < 16 ∧ b.toNat % 16 < 16 := by
  have hb := b.toNat_lt
  omega

/-- `ToHex` writes nothing but ASCII, so a character of it is a byte. -/
theorem hexChars_ascii (bytes : List Byte) : ∀ c ∈ hexChars bytes, c.toNat < 128 := by
  have hdigit : ∀ n < 16, (hexDigit n).toNat < 128 := fun n hn => (upperDigit_spec n hn).1
  have hpair : ∀ b : Byte, ∀ c ∈ [hexDigit (b.toNat / 16), hexDigit (b.toNat % 16)],
      c.toNat < 128 := by
    intro b c hc
    rcases List.mem_cons.1 hc with rfl | hc
    · exact hdigit _ (nibbles_lt b).1
    · rw [List.mem_singleton.1 hc]
      exact hdigit _ (nibbles_lt b).2
  induction bytes with
  | nil => exact fun c hc => absurd hc List.not_mem_nil
  | cons b rest ih =>
    cases rest with
    | nil => exact hpair b
    | cons b' rest =>
      intro c hc
      rw [hexChars_cons_cons] at hc
      rcases List.mem_append.1 hc with hc | hc
      · rcases List.mem_append.1 hc with hc | hc
        · exact hpair b c hc
        · rw [List.mem_singleton.1 hc]
          decide
      · exact ih c hc

/-- **The text of bytes.** -/
theorem ofText_toHex (bytes : List Byte) :
    ofText (toHex bytes) = [32].intercalate (bytes.map hexPair) := by
  rw [toHex_eq, ofText_ofList (hexChars_ascii bytes)]
  induction bytes with
  | nil => rfl
  | cons b rest ih =>
    cases rest with
    | nil => rfl
    | cons b' rest =>
      rw [hexChars_cons_cons, List.map_append, ih, List.map_cons, List.map_cons, List.map_cons,
        List.intercalate_cons_cons]
      rfl

/-! ## There and back -/

/-- The digits of a text are those of its parts. -/
theorem values_append (a b : Text) : values (a ++ b) = values a ++ values b := by
  rw [values, List.filter_append, List.map_append, values, values]

/-- The two digits of a byte are its halves. -/
theorem values_hexPair (b : Byte) : values (hexPair b) = [b.toNat / 16, b.toNat % 16] := by
  obtain ⟨-, hhigh, hvalue⟩ := upperDigit_spec _ (nibbles_lt b).1
  obtain ⟨-, hlow, hvalue'⟩ := upperDigit_spec _ (nibbles_lt b).2
  simp [values, hexPair, hhigh, hlow, hvalue, hvalue']

/-- The digits of what `ToHex` writes are the halves of the bytes. The spaces are none. -/
theorem values_toHex (bytes : List Byte) :
    values (ofText (toHex bytes)) = bytes.flatMap fun b => [b.toNat / 16, b.toNat % 16] := by
  rw [ofText_toHex]
  induction bytes with
  | nil => rfl
  | cons b rest ih =>
    cases rest with
    | nil => exact values_hexPair b
    | cons b' rest =>
      rw [List.map_cons, List.map_cons, List.intercalate_cons_cons, ← List.map_cons, values_append,
        values_append, values_hexPair, ih]
      rfl

/-- Putting the halves of the bytes together gives the bytes. -/
theorem decoded_flatMap (bytes : List Byte) :
    decoded (bytes.flatMap fun b => [b.toNat / 16, b.toNat % 16]) = bytes := by
  induction bytes with
  | nil => rfl
  | cons b rest ih =>
    have hb : 16 * (b.toNat / 16) + b.toNat % 16 = b.toNat := Nat.div_add_mod b.toNat 16
    rw [List.flatMap_cons, List.cons_append, List.cons_append, List.nil_append,
      decoded_cons, ih, hb,
      UInt8.ofNat_toNat]

/-- **Bytes come back from their text.** -/
theorem fromHex_toHex (bytes : List Byte) : fromHex (ofText (toHex bytes)) = (true, bytes) := by
  have heven : (bytes.flatMap fun b => [b.toNat / 16, b.toNat % 16]).length % 2 = 0 := by
    rw [List.length_flatMap]
    simp
  rw [fromHex_eq, values_toHex, if_pos heven, decoded_flatMap]

/-- A text two by two. -/
def inTwos : Text → List Text
  | c :: d :: rest => [c, d] :: inTwos rest
  | _ => []

/-- The digits of a text in upper case, one blank between two bytes. -/
def canonical (t : Text) : Text := [32].intercalate (inTwos ((t.filter isxdigit).map toupper))

/-- Writing what has been read gives back the digits, in upper case and two by two. -/
theorem map_hexPair_decoded {l : Text} (h : ∀ c ∈ l, isxdigit c = true) :
    (decoded (l.map xdigit)).map hexPair = inTwos (l.map toupper) := by
  induction l using List.twoStepInduction with
  | nil => rfl
  | singleton c => rfl
  | cons_cons c d rest ih _ =>
    obtain ⟨hc, hupper, -⟩ := digit_spec (h c List.mem_cons_self)
    obtain ⟨hd, hupper', -⟩ := digit_spec (h d (List.mem_cons_of_mem c List.mem_cons_self))
    have hrest : ∀ e ∈ rest, isxdigit e = true := fun e he =>
      h e (List.mem_cons_of_mem c (List.mem_cons_of_mem d he))
    have hbyte : (UInt8.ofNat (16 * xdigit c + xdigit d)).toNat = 16 * xdigit c + xdigit d := by
      rw [UInt8.toNat_ofNat']
      omega
    have hdiv : (16 * xdigit c + xdigit d) / 16 = xdigit c := by omega
    have hmod : (16 * xdigit c + xdigit d) % 16 = xdigit d := by omega
    rw [List.map_cons, List.map_cons, decoded_cons, List.map_cons, ih hrest, hexPair, hbyte, hdiv,
      hmod, hupper, hupper']
    rfl

/-- **What was read, written again.** -/
theorem toHex_fromHex {t : Text} {bytes : List Byte} (h : fromHex t = (true, bytes)) :
    ofText (toHex bytes) = canonical t := by
  rw [fromHex_eq] at h
  split at h
  · obtain rfl := (Prod.mk.inj h).2
    rw [ofText_toHex, values, map_hexPair_decoded fun c hc => (List.mem_filter.1 hc).2, canonical]
  · cases (Prod.mk.inj h).1

/-- Digits that differ in case only have the same values. -/
theorem values_eq_of_toupper {t t' : Text}
    (h : (t.filter isxdigit).map toupper = (t'.filter isxdigit).map toupper) :
    values t = values t' := by
  have hvalues : ∀ t : Text, ((t.filter isxdigit).map toupper).map xdigit = values t := by
    intro t
    rw [List.map_map, values]
    refine List.map_congr_left fun c hc => ?_
    obtain ⟨hlt, hupper, -⟩ := digit_spec (List.mem_filter.1 hc).2
    rw [Function.comp_apply, ← hupper, (upperDigit_spec _ hlt).2.2]
  rw [← hvalues t, h, hvalues]

/-- **`toHex` and `fromHex` undo each other**, up to case and separators. -/
theorem hex_round_trip :
    (∀ bytes, fromHex (ofText (toHex bytes)) = (true, bytes)) ∧
    (∀ t, (fromHex t).1 = true ↔ (t.filter isxdigit).length % 2 = 0) ∧
    (∀ t t' : Text, (t.filter isxdigit).map toupper = (t'.filter isxdigit).map toupper →
      fromHex t = fromHex t') ∧
    (∀ t bytes, fromHex t = (true, bytes) → ofText (toHex bytes) = canonical t) ∧
    (∀ t, ofText (toHex (fromHex (ofText (toHex (fromHex t).2))).2) =
      ofText (toHex (fromHex t).2)) := by
  refine ⟨fromHex_toHex, fun t => ?_, fun t t' h => ?_, fun t bytes => toHex_fromHex, fun t => ?_⟩
  · have hlen : (values t).length = (t.filter isxdigit).length := List.length_map _
    rw [fromHex_eq, hlen]
    split
    · next heven => exact iff_of_true rfl heven
    · next heven => exact iff_of_false Bool.false_ne_true heven
  · rw [fromHex_eq, fromHex_eq, values_eq_of_toupper h]
  · rw [fromHex_toHex]

end SearchlightControl
