import FastCppServer.Lib.Carry
import FastCppServer.Lib.Bytes
import Mathlib.Algebra.GroupWithZero.Nat

/-!
# The checksum of an ICMP packet

`ComputeICMPChecksum` adds up the 16-bit words of a buffer, an odd last byte as the low byte of a
word, folds the carries and takes the complement. The sum of less than `2 ^ 17` bytes fits 32 bits
(`toNat_accumulate`), and the complement of what it is folded to depends on the sum alone
(`computeICMPChecksum_eq`): on the words in any order, and with the result in the place of a zero
word it is zero.

The loop that folds has fuel: `none` is a loop that is still running after that many tests of its
condition.
-/

namespace MyTools.MyIPTools

/-- A `uint16_t` from its two bytes in memory. -/
def word (b0 b1 : UInt8) : UInt16 := b0.toUInt16 ||| b1.toUInt16 <<< 8

/-- The loop over the words, and the odd byte left at the end. -/
def accumulate : List UInt8 → UInt32 → UInt32
  | b0 :: b1 :: rest, sum => accumulate rest (sum + (word b0 b1).toUInt32)
  | [b], sum => sum + (word b 0).toUInt32
  | [], sum => sum

/-- `while (sum >> 16)`. -/
def foldCarries : Nat → UInt32 → Option UInt32
  | 0, _ => none
  | fuel + 1, sum =>
    if sum >>> 16 ≠ 0 then foldCarries fuel ((sum &&& (0xFFFF : UInt32)) + (sum >>> 16))
    else some sum

/-- `ComputeICMPChecksum`, with the number of rounds that the folding may take. -/
def computeICMPChecksum (fuel : Nat) (data : List UInt8) : Option UInt16 :=
  (foldCarries fuel (accumulate data 0)).map fun sum => (~~~sum).toUInt16

/-! ## The sum -/

/-- The words that are added up. -/
def words : List UInt8 → List UInt16
  | b0 :: b1 :: rest => word b0 b1 :: words rest
  | [b] => [word b 0]
  | [] => []

/-- Their sum, without a bound. -/
def total (data : List UInt8) : Nat := ((words data).map UInt16.toNat).sum

/-- Behind an even number of bytes the words begin anew. -/
theorem words_append {front : List UInt8} (heven : front.length % 2 = 0) (back : List UInt8) :
    words (front ++ back) = words front ++ words back := by
  induction front using words.induct with
  | case1 b0 b1 rest ih =>
    have hrest : rest.length % 2 = 0 := by
      rw [List.length_cons, List.length_cons] at heven
      omega
    rw [List.cons_append, List.cons_append, words, words, ih hrest, List.cons_append]
  | case2 b => cases heven
  | case3 => rfl

/-- There are half as many words as bytes, a single last byte counting as one. -/
theorem length_words (data : List UInt8) : 2 * (words data).length ≤ data.length + 1 := by
  induction data using words.induct with
  | case1 b0 b1 rest ih =>
    rw [words, List.length_cons, List.length_cons, List.length_cons]
    omega
  | case2 b => exact Nat.le_refl 2
  | case3 => exact Nat.zero_le 1

/-- A bound on the sum of words. -/
theorem sum_words_le (ws : List UInt16) : (ws.map UInt16.toNat).sum ≤ 65535 * ws.length := by
  induction ws with
  | nil => exact Nat.le_refl 0
  | cons w ws ih =>
    have hw : w.toNat < 65536 := w.toNat_lt
    rw [List.map_cons, List.sum_cons, List.length_cons]
    omega

/-- Less than `2 ^ 17` bytes have at most `2 ^ 16` words. -/
theorem total_lt {data : List UInt8} (hlen : data.length < 2 ^ 17) : total data < 2 ^ 32 := by
  have hwords := length_words data
  have hsum := sum_words_le (words data)
  rw [total]
  omega

/-- Adding a word that fits. -/
theorem toNat_add_word {sum : UInt32} {w : UInt16} (h : sum.toNat + w.toNat < 2 ^ 32) :
    (sum + w.toUInt32).toNat = sum.toNat + w.toNat := by
  rw [UInt32.toNat_add, UInt16.toNat_toUInt32, Nat.mod_eq_of_lt h]

/-- The total, one word at a time. -/
theorem total_cons_cons (b0 b1 : UInt8) (rest : List UInt8) :
    total (b0 :: b1 :: rest) = (word b0 b1).toNat + total rest := by
  rw [total, total, words, List.map_cons, List.sum_cons]

/-- **The accumulation is exact** where the sum fits 32 bits. -/
theorem toNat_accumulate (data : List UInt8) (sum : UInt32)
    (hfits : sum.toNat + total data < 2 ^ 32) :
    (accumulate data sum).toNat = sum.toNat + total data := by
  induction data, sum using accumulate.induct with
  | case1 b0 b1 rest sum ih =>
    rw [total_cons_cons] at hfits ⊢
    have hsum := @toNat_add_word sum (word b0 b1) (by omega)
    rw [accumulate, ih (by omega), hsum]
    omega
  | case2 b sum =>
    have htotal : total [b] = (word b 0).toNat := by
      rw [total, words, List.map_singleton, List.sum_singleton]
    rw [htotal] at hfits ⊢
    exact toNat_add_word hfits
  | case3 sum => rfl

/-- While it fits, the sum of the loop is the total. -/
theorem toNat_accumulate_zero {data : List UInt8} (hfits : total data < 2 ^ 32) :
    (accumulate data 0).toNat = total data := by
  have h := toNat_accumulate data 0 (by rwa [UInt32.toNat_zero, Nat.zero_add])
  rwa [UInt32.toNat_zero, Nat.zero_add] at h

/-! ## The fold -/

/-- The upper half of the sum. -/
theorem toNat_shiftRight (sum : UInt32) : (sum >>> 16).toNat = sum.toNat / 65536 := by
  rw [UInt32.toNat_shiftRight]
  exact Nat.shiftRight_eq_div_pow sum.toNat 16

/-- One round of the loop folds the carries once. -/
theorem toNat_foldStep (sum : UInt32) :
    ((sum &&& (0xFFFF : UInt32)) + (sum >>> 16)).toNat = Carry.foldOnce 65536 sum.toNat := by
  have hlt : sum.toNat < 2 ^ 32 := sum.toNat_lt
  have hlow : (sum &&& (0xFFFF : UInt32)).toNat = sum.toNat % 65536 := by
    rw [UInt32.toNat_and]
    exact Nat.and_two_pow_sub_one_eq_mod sum.toNat 16
  rw [UInt32.toNat_add, hlow, toNat_shiftRight, Carry.foldOnce]
  omega

/-- The loop ends when the sum has sixteen bits. -/
theorem shiftRight_eq_zero_iff (sum : UInt32) : sum >>> 16 = 0 ↔ sum.toNat < 65536 := by
  rw [← UInt32.toNat_inj, toNat_shiftRight, UInt32.toNat_zero]
  omega

/-- What the loop leaves is the digit of the sum. -/
theorem foldCarries_folded {fuel : Nat} {sum r : UInt32} (h : foldCarries fuel sum = some r) :
    Carry.Folded 65536 sum.toNat r.toNat := by
  induction fuel generalizing sum with
  | zero => cases h
  | succ fuel ih =>
    rw [foldCarries] at h
    split at h
    · next =>
      have hnext := ih h
      rw [toNat_foldStep] at hnext
      exact hnext.of_foldOnce
    · next hdone =>
      rw [Option.some.injEq] at h
      subst h
      rw [not_not, shiftRight_eq_zero_iff] at hdone
      exact .of_lt hdone

/-- **At most two rounds.** -/
theorem foldCarries_ends {fuel : Nat} (hfuel : 3 ≤ fuel) (sum : UInt32) :
    ∃ r, foldCarries fuel sum = some r := by
  obtain ⟨extra, rfl⟩ := Nat.exists_eq_add_of_le' hfuel
  have htwo := @Carry.foldOnce_foldOnce_lt 65536 sum.toNat sum.toNat_lt
  rw [← toNat_foldStep, ← toNat_foldStep, ← shiftRight_eq_zero_iff] at htwo
  rw [foldCarries]
  split
  · rw [foldCarries]
    split
    · rw [foldCarries, htwo, if_neg (not_not_intro rfl)]
      exact ⟨_, rfl⟩
    · exact ⟨_, rfl⟩
  · exact ⟨_, rfl⟩

/-! ## The checksum -/

/-- The complement in 16 bits. -/
theorem toNat_complement {sum : UInt32} (h : sum.toNat < 65536) :
    (~~~sum).toUInt16.toNat = 65535 - sum.toNat := by
  rw [UInt32.toNat_toUInt16, UInt32.toNat_not, UInt32.size]
  omega

/-- **The checksum depends on the sum alone**, and is there after at most two rounds. -/
theorem computeICMPChecksum_eq {data : List UInt8} (hfits : total data < 2 ^ 32) :
    ∃ c : UInt16, Carry.Folded 65536 (total data) (65535 - c.toNat) ∧
      ∀ fuel, 3 ≤ fuel → computeICMPChecksum fuel data = some c := by
  have hsum := toNat_accumulate_zero hfits
  obtain ⟨r, hr⟩ := foldCarries_ends (Nat.le_refl 3) (accumulate data 0)
  have hfolded := foldCarries_folded hr
  have hlt := hfolded.lt
  refine ⟨(~~~r).toUInt16, ?_, ?_⟩
  · have hback : 65535 - (65535 - r.toNat) = r.toNat := by omega
    rw [toNat_complement hlt, hback, ← hsum]
    exact hfolded
  · intro fuel hfuel
    obtain ⟨r', hr'⟩ := foldCarries_ends hfuel (accumulate data 0)
    have hsame : r' = r := UInt32.toNat_inj.1 ((foldCarries_folded hr').unique hfolded)
    rw [computeICMPChecksum, hr', hsame, Option.map_some]

/-- The result is stored in the order of the machine. -/
theorem word_bytes (c : UInt16) : word c.toUInt8 (c >>> 8).toUInt8 = c :=
  Bytes.uint16_recombine c

/-- Storing a checksum adds it to the total. -/
theorem total_stored {front : List UInt8} (heven : front.length % 2 = 0) (c : UInt16)
    (back : List UInt8) :
    total (front ++ c.toUInt8 :: (c >>> 8).toUInt8 :: back) =
      total (front ++ 0 :: 0 :: back) + c.toNat := by
  have hzero : word 0 0 = 0 := rfl
  simp only [total, words_append heven, words, word_bytes, hzero, List.map_append, List.map_cons,
    List.sum_append, List.sum_cons, UInt16.toNat_zero]
  omega

/-- **With its checksum stored** in the place of a zero word, a buffer has the checksum zero. -/
theorem computeICMPChecksum_stored {front back : List UInt8} {c : UInt16}
    (hlen : (front ++ 0 :: 0 :: back).length < 2 ^ 17) (heven : front.length % 2 = 0)
    (hfolded : Carry.Folded 65536 (total (front ++ 0 :: 0 :: back)) (65535 - c.toNat)) {fuel : Nat}
    (hfuel : 3 ≤ fuel) :
    computeICMPChecksum fuel (front ++ c.toUInt8 :: (c >>> 8).toUInt8 :: back) = some 0 := by
  have hlength : (front ++ c.toUInt8 :: (c >>> 8).toUInt8 :: back).length < 2 ^ 17 := by
    simpa using hlen
  obtain ⟨c', hfolded', hc'⟩ := computeICMPChecksum_eq (total_lt hlength)
  have hones := hfolded.complement (by decide)
  have hc65535 : c.toNat < 65536 := c.toNat_lt
  have hc65535' : c'.toNat < 65536 := c'.toNat_lt
  have hback : 65536 - 1 - (65535 - c.toNat) = c.toNat := by omega
  rw [hback, ← total_stored heven] at hones
  have hunique := hfolded'.unique hones
  have hsame : c' = 0 := UInt16.toNat_inj.1 (by rw [UInt16.toNat_zero]; omega)
  rw [hc' fuel hfuel, hsame]

/-- **The checksum verifies itself.** The 32-bit accumulation of fewer than `2 ^ 17` bytes is the
exact sum of the words, the folding ends after at most two rounds, and every buffer with the same
words in some order has the same result. Where the word at an even offset is zero, the buffer with
the result stored there has the checksum zero. -/
theorem computeICMPChecksum_verifies {data : List UInt8} (hlen : data.length < 2 ^ 17) :
    total data < 2 ^ 32 ∧
    (accumulate data 0).toNat = total data ∧
    ∃ c : UInt16,
      (∀ fuel, 3 ≤ fuel → computeICMPChecksum fuel data = some c) ∧
      (∀ data', (words data').Perm (words data) →
        ∀ fuel, 3 ≤ fuel → computeICMPChecksum fuel data' = some c) ∧
      (∀ front back, data = front ++ 0 :: 0 :: back → front.length % 2 = 0 →
        ∀ fuel, 3 ≤ fuel →
          computeICMPChecksum fuel (front ++ c.toUInt8 :: (c >>> 8).toUInt8 :: back) =
            some 0) := by
  have hfits := total_lt hlen
  obtain ⟨c, hfolded, hc⟩ := computeICMPChecksum_eq hfits
  refine ⟨hfits, toNat_accumulate_zero hfits, c, hc, ?_, ?_⟩
  · intro data' hperm
    have htotal : total data' = total data := (hperm.map UInt16.toNat).sum_nat
    have hfits' : total data' < 2 ^ 32 := by rwa [htotal]
    obtain ⟨c', hfolded', hc'⟩ := computeICMPChecksum_eq hfits'
    rw [htotal] at hfolded'
    have hc65535 : c.toNat < 65536 := c.toNat_lt
    have hc65535' : c'.toNat < 65536 := c'.toNat_lt
    have hunique := hfolded'.unique hfolded
    have hsame : c' = c := UInt16.toNat_inj.1 (by omega)
    rwa [hsame] at hc'
  · intro front back hdata heven fuel hfuel
    subst hdata
    exact computeICMPChecksum_stored hlen heven hfolded hfuel

/-- A request of `PingHost`, and an odd number of bytes. -/
theorem computeICMPChecksum_verifies_request :
    computeICMPChecksum 3 [8, 0, 0, 0, 0x34, 0x12, 1, 0] = some 0xEDC2 ∧
    computeICMPChecksum 3 [8, 0, 0xC2, 0xED, 0x34, 0x12, 1, 0] = some 0 ∧
    ∃ c, computeICMPChecksum 3 [0xFF, 0xFF, 0, 0, 7] = some c ∧
      computeICMPChecksum 3 [0xFF, 0xFF, c.toUInt8, (c >>> 8).toUInt8, 7] = some 0 := by
  have hrequest : [(8 : UInt8), 0, 0, 0, 0x34, 0x12, 1, 0].length < 2 ^ 17 := by decide
  have hodd : [(0xFF : UInt8), 0xFF, 0, 0, 7].length < 2 ^ 17 := by decide
  obtain ⟨_, _, c, hc, _, hstored⟩ := computeICMPChecksum_verifies hrequest
  obtain ⟨_, _, c', hc', _, hstored'⟩ := computeICMPChecksum_verifies hodd
  have hvalue : computeICMPChecksum 3 [8, 0, 0, 0, 0x34, 0x12, 1, 0] = some 0xEDC2 := by
    decide +kernel
  have hzero := hstored [8, 0] [0x34, 0x12, 1, 0] rfl rfl 3 (Nat.le_refl 3)
  have heq : c = 0xEDC2 := Option.some.inj ((hc 3 (Nat.le_refl 3)).symm.trans hvalue)
  subst heq
  exact ⟨hvalue, hzero, c', hc' 3 (Nat.le_refl 3),
    hstored' [0xFF, 0xFF] [7] rfl rfl 3 (Nat.le_refl 3)⟩

end MyTools.MyIPTools
