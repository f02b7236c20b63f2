import FastCppServer.Lib.Mask
import FastCppServer.Lib.Scan

/-!
# The addresses of a subnet

`GenerateSubnetIPs` cuts the address with a mask and counts from the one after the network address
to the one before the broadcast address. With a prefix of 20 to 30 bits both ends of the loop lie
inside the block of the network (`toNat_first`, `toNat_last`), so the counter leaves the loop
before it could wrap, and what it went through are the hosts of the block (`mem_hosts`).

The counter is a `uint32_t`, so the loop has fuel: `none` is a loop that is still running.
-/

namespace MyTools.MyIPTools

open Scan

/-- A text is its bytes. -/
abbrev Text := List UInt8

/-- `s.c_str()`. -/
def cString (s : Text) : Text := s.takeWhile (· ≠ 0)

/-- `struct in_addr`, the bytes of `s_addr` in their order in memory. -/
structure InAddr where
  (b0 b1 b2 b3 : UInt8)
deriving DecidableEq

/-- `ntohl(addr.s_addr)`. -/
def ntohl (addr : InAddr) : UInt32 :=
  .ofNat (addr.b0.toNat * 2 ^ 24 + addr.b1.toNat * 2 ^ 16 + addr.b2.toNat * 2 ^ 8 + addr.b3.toNat)

/-- `a.s_addr = htonl(h)`. -/
def htonl (h : UInt32) : InAddr :=
  ⟨.ofNat (h.toNat / 2 ^ 24), .ofNat (h.toNat / 2 ^ 16), .ofNat (h.toNat / 2 ^ 8), .ofNat h.toNat⟩

/-- One of the four numbers: at most three digits, at most 255, no leading zero. -/
def octet (part : Text) : Option UInt8 :=
  if part ≠ [] ∧ part.all isDigit ∧ (part.length = 1 ∨ part.head? ≠ some 48) ∧ value part ≤ 255
  then some (.ofNat (value part)) else none

/-- `inet_pton(AF_INET, src, &addr) == 1`. -/
def inet_pton (src : Text) : Option InAddr :=
  match src.splitOn 46 with
  | [a, b, c, d] => do return ⟨← octet a, ← octet b, ← octet c, ← octet d⟩
  | _ => none

/-- `%u.%u.%u.%u`. -/
def dotted (addr : InAddr) : Text :=
  [46].intercalate
    [decimal addr.b0.toNat, decimal addr.b1.toNat, decimal addr.b2.toNat, decimal addr.b3.toNat]

/-- The size of the buffer for an address. -/
def INET_ADDRSTRLEN : Nat := 16

/-- `inet_ntop(AF_INET, &a, buf, size)`. It gives nothing where the buffer is too small. -/
def inet_ntop (addr : InAddr) (size : Nat) : Option Text :=
  if (dotted addr).length < size then some (dotted addr) else none

/-! ## The source's function -/

/-- The mask of a prefix. -/
def mask (prefix_len : Int) : UInt32 :=
  if prefix_len = 0 then 0 else (~~~(0 : UInt32)) <<< UInt32.ofNat (32 - prefix_len).toNat

/-- The first address of the block. -/
def network (ip_host : UInt32) (prefix_len : Int) : UInt32 := ip_host &&& mask prefix_len

/-- The last address of the block. -/
def broadcast (ip_host : UInt32) (prefix_len : Int) : UInt32 :=
  network ip_host prefix_len ||| ~~~mask prefix_len

/-- `for (uint32_t h = first; h <= last; ++h)`. -/
def enumerate (last : UInt32) : Nat → UInt32 → List Text → Option (List Text)
  | 0, _, _ => none
  | fuel + 1, h, result =>
    if h ≤ last then
      match inet_ntop (htonl h) INET_ADDRSTRLEN with
      | some buf => enumerate last fuel (h + 1) (result ++ [buf])
      | none => enumerate last fuel (h + 1) result
    else some result

/-- `GenerateSubnetIPs`. The loop is given `fuel`, and is `none` when that runs out. -/
def generateSubnetIPs (fuel : Nat) (ip : Text) (prefix_len : Int) : Option (List Text) :=
  if prefix_len < 20 ∨ 30 < prefix_len then some []
  else
    match inet_pton (cString ip) with
    | none => some []
    | some addr =>
      let ip_host := ntohl addr
      let first := network ip_host prefix_len + 1
      let last := broadcast ip_host prefix_len - 1
      if last < first then some [] else enumerate last fuel first []

/-! ## Addresses and their texts -/

/-- An octet is what its number is written as. -/
theorem octet_eq_some {part : Text} {n : UInt8} : octet part = some n ↔ part = decimal n.toNat := by
  have hn : n.toNat < 256 := n.toNat_lt
  rw [octet, Option.ite_none_right_eq_some, Option.some.injEq]
  constructor
  · rintro ⟨⟨hne, hdigits, hzero, hmax⟩, rfl⟩
    rw [UInt8.toNat_ofNat', Nat.mod_eq_of_lt (by omega)]
    exact (decimal_value hne (List.all_eq_true.1 hdigits) hzero).symm
  · rintro rfl
    refine ⟨⟨decimal_ne_nil _, List.all_eq_true.2 (decimal_digits _), ?_, ?_⟩, ?_⟩
    · exact decimal_no_leading_zero _
    · rw [value_decimal]
      omega
    · rw [value_decimal, UInt8.ofNat_toNat]

/-- There is no point in a decimal. -/
theorem dot_notMem_decimal (n : Nat) : (46 : UInt8) ∉ decimal n := by
  intro h
  cases decimal_digits n 46 h

/-- **An accepted text is the one that the address is written as.** -/
theorem inet_pton_eq_some {src : Text} {addr : InAddr} :
    inet_pton src = some addr ↔ src = dotted addr := by
  rw [inet_pton]
  constructor
  · intro h
    split at h
    · next a b c d hsplit =>
      have hsrc : [46].intercalate (src.splitOn 46) = src := List.intercalate_splitOn 46
      simp only [Option.bind_eq_bind, Option.bind_eq_some_iff, octet_eq_some, Option.pure_def,
        Option.some.injEq] at h
      obtain ⟨b0, rfl, b1, rfl, b2, rfl, b3, rfl, rfl⟩ := h
      rw [hsplit] at hsrc
      exact hsrc.symm
    · cases h
  · rintro rfl
    have hoctet : ∀ n : UInt8, octet (decimal n.toNat) = some n := fun n => octet_eq_some.2 rfl
    rw [dotted, List.splitOn_intercalate 46 ?_ (List.cons_ne_nil _ _)]
    · simp only [hoctet]
      rfl
    · intro part hpart
      simp only [List.mem_cons, List.not_mem_nil, or_false] at hpart
      rcases hpart with rfl | rfl | rfl | rfl <;> exact dot_notMem_decimal _

/-- The buffer of the source is large enough. -/
theorem inet_ntop_eq (addr : InAddr) : inet_ntop addr INET_ADDRSTRLEN = some (dotted addr) := by
  have hlen : ∀ n : UInt8, (decimal n.toNat).length ≤ 3 := by
    intro n
    have hn : n.toNat < 256 := n.toNat_lt
    exact length_decimal_le (by decide) (by omega)
  have h0 := hlen addr.b0
  have h1 := hlen addr.b1
  have h2 := hlen addr.b2
  have h3 := hlen addr.b3
  rw [inet_ntop, if_pos]
  simp [dotted, List.intercalate, INET_ADDRSTRLEN]
  omega

/-- The order of the host goes into that of the network and back. -/
theorem ntohl_htonl (h : UInt32) : ntohl (htonl h) = h := by
  have hlt : h.toNat < 2 ^ 32 := h.toNat_lt
  apply UInt32.toNat_inj.1
  simp only [ntohl, htonl, UInt32.toNat_ofNat', UInt8.toNat_ofNat']
  omega

/-- Two addresses are not written alike. -/
theorem dotted_htonl_injective : Function.Injective fun h => dotted (htonl h) := by
  intro h h' heq
  have haddr : inet_pton (dotted (htonl h)) = some (htonl h') := inet_pton_eq_some.2 heq
  rw [inet_pton_eq_some.2 rfl, Option.some.injEq] at haddr
  rw [← ntohl_htonl h, haddr, ntohl_htonl]

/-- The order of the network goes into that of the host and back. -/
theorem htonl_ntohl (addr : InAddr) : htonl (ntohl addr) = addr := by
  have h0 := addr.b0.toNat_lt
  have h1 := addr.b1.toNat_lt
  have h2 := addr.b2.toNat_lt
  have h3 := addr.b3.toNat_lt
  obtain ⟨b0, b1, b2, b3⟩ := addr
  rw [htonl, ntohl, UInt32.toNat_ofNat', InAddr.mk.injEq]
  refine ⟨?_, ?_, ?_, ?_⟩
  all_goals
    apply UInt8.toNat_inj.1
    rw [UInt8.toNat_ofNat']
    dsimp only at *
    omega

/-! ## The block of the network -/

open Mask

/-- The first `p` bits are the same. -/
def SameSubnet (p : Int) (a b : UInt32) : Prop := SamePrefix p.toNat a.toBitVec b.toBitVec

/-- The bits after the first `p` are all zero. -/
def IsNetwork (p : Int) (a : UInt32) : Prop := Rest (32 - p.toNat) false a.toBitVec

/-- The bits after the first `p` are all one. -/
def IsBroadcast (p : Int) (a : UInt32) : Prop := Rest (32 - p.toNat) true a.toBitVec

/-- `++h` below the largest number. -/
theorem toNat_succ {last h : UInt32} (hlast : last.toNat + 1 < 2 ^ 32) (hle : h ≤ last) :
    (h + 1).toNat = h.toNat + 1 := by
  rw [UInt32.le_iff_toNat_le] at hle
  rw [UInt32.toNat_add]
  exact Nat.mod_eq_of_lt (Nat.lt_of_le_of_lt (Nat.succ_le_succ hle) hlast)

section
variable {p : Int} (hlow : 20 ≤ p) (hhigh : p ≤ 30)
include hlow hhigh

/-- The mask is that of the library. -/
theorem mask_eq : (mask p).toBitVec = prefixMask 32 (32 - p.toNat) := by
  have hp : (32 - p).toNat = 32 - p.toNat := by omega
  have hshift : ((UInt32.ofNat (32 - p.toNat)).toBitVec % 32).toNat = 32 - p.toNat := by
    have h32 : (32 : BitVec 32).toNat = 32 := rfl
    rw [BitVec.toNat_umod, UInt32.toNat_toBitVec, UInt32.toNat_ofNat', h32]
    omega
  have hones : (~~~(0 : UInt32)).toBitVec = BitVec.allOnes 32 := rfl
  rw [mask, if_neg (by omega), hp, UInt32.toBitVec_shiftLeft, prefixMask, BitVec.shiftLeft_eq',
    hshift, hones]

/-- The first address of the block, as a number. -/
theorem toNat_network (ip_host : UInt32) :
    (network ip_host p).toNat =
      ip_host.toNat / 2 ^ (32 - p.toNat) * 2 ^ (32 - p.toNat) := by
  have h := toNat_and_prefixMask (k := 32 - p.toNat) ip_host.toBitVec
  rwa [← mask_eq hlow hhigh, ← UInt32.toBitVec_and] at h

/-- The last address of the block, as a number. -/
theorem toNat_broadcast (ip_host : UInt32) :
    (broadcast ip_host p).toNat =
      ip_host.toNat / 2 ^ (32 - p.toNat) * 2 ^ (32 - p.toNat) + (2 ^ (32 - p.toNat) - 1) := by
  have h := toNat_or_not_prefixMask (w := 32) (k := 32 - p.toNat) (Nat.sub_le _ _)
    ip_host.toBitVec
  rwa [← mask_eq hlow hhigh, ← UInt32.toBitVec_and, ← UInt32.toBitVec_not,
    ← UInt32.toBitVec_or] at h

/-- Addresses of one subnet have one block. -/
theorem SameSubnet.network_eq {a b : UInt32} (h : SameSubnet p a b) :
    network a p = network b p := by
  have hp : p.toNat = 32 - (32 - p.toNat) := by omega
  rw [SameSubnet, hp, samePrefix_iff, UInt32.toNat_toBitVec, UInt32.toNat_toBitVec] at h
  apply UInt32.toNat_inj.1
  rw [toNat_network hlow hhigh, toNat_network hlow hhigh, h]

end

/-! ## The loop -/

/-- **The loop pushes what it counts through**, and ends where the counter cannot wrap. -/
theorem enumerate_eq {last : UInt32} (hlast : last.toNat + 1 < 2 ^ 32) (n : Nat) {h : UInt32}
    (hn : h.toNat + n = last.toNat + 1) (fuel : Nat) (result : List Text) :
    enumerate last (n + 1 + fuel) h result =
      some (result ++ (List.range' h.toNat n).map fun i => dotted (htonl (.ofNat i))) := by
  induction n generalizing h result with
  | zero =>
    have hleft : ¬ h ≤ last := by
      rw [UInt32.le_iff_toNat_le]
      omega
    rw [Nat.add_comm, enumerate, if_neg hleft, List.range'_zero, List.map_nil, List.append_nil]
  | succ n ih =>
    have hin : h ≤ last := by
      rw [UInt32.le_iff_toNat_le]
      omega
    have hnext : (h + 1).toNat = h.toNat + 1 := toNat_succ hlast hin
    rw [Nat.add_right_comm (n + 1), enumerate, if_pos hin, inet_ntop_eq]
    dsimp only
    rw [ih (by omega), hnext, List.range'_succ, List.map_cons, UInt32.ofNat_toNat,
      List.append_assoc, List.singleton_append]

/-- A block and its two ends, by quotient and rest. -/
theorem block_iff {m a b : Nat} (hm : 4 ≤ m) :
    b / m * m < a ∧ a + 1 < b / m * m + m ↔
      a / m = b / m ∧ ¬ a % m = 0 ∧ ¬ a % m = m - 1 := by
  have ha := Nat.div_add_mod' a m
  have hlt := Nat.mod_lt a (Nat.lt_of_lt_of_le (by decide) hm)
  constructor
  · intro h
    have hq : a / m = b / m := by
      rw [Nat.div_eq_iff (by omega)]
      omega
    rw [hq] at ha
    omega
  · rintro ⟨hq, hne, hlast⟩
    rw [hq] at ha
    omega

/-- What the loop counts through: the block without its two ends. -/
def hosts (ip_host : UInt32) (p : Int) : List UInt32 :=
  (List.range' ((network ip_host p).toNat + 1) (2 ^ (32 - p.toNat) - 2)).map .ofNat

section
variable {p : Int} (hlow : 20 ≤ p) (hhigh : p ≤ 30) (ip_host : UInt32)
include hlow hhigh

/-- A block of at least four addresses. -/
theorem four_le_block : 4 ≤ 2 ^ (32 - p.toNat) := by
  have h : 2 ≤ 32 - p.toNat := by omega
  exact Nat.pow_le_pow_right Nat.two_pos h

/-- How many addresses the block has. -/
theorem toNat_broadcast_eq :
    (broadcast ip_host p).toNat + 1 = (network ip_host p).toNat + 2 ^ (32 - p.toNat) := by
  have hfour := four_le_block hlow hhigh
  rw [toNat_broadcast hlow hhigh, toNat_network hlow hhigh]
  omega

/-- The first address that is counted is the next one. -/
theorem toNat_first : (network ip_host p + 1).toNat = (network ip_host p).toNat + 1 := by
  have hfour := four_le_block hlow hhigh
  have hblock := toNat_broadcast_eq hlow hhigh ip_host
  have hlt : (broadcast ip_host p).toNat < 2 ^ 32 := (broadcast ip_host p).toNat_lt
  have hone : (1 : UInt32).toNat = 1 := rfl
  rw [UInt32.toNat_add, hone]
  exact Nat.mod_eq_of_lt (by omega)

/-- The last address that is counted is the one before. -/
theorem toNat_last : (broadcast ip_host p - 1).toNat + 1 = (broadcast ip_host p).toNat := by
  have hfour := four_le_block hlow hhigh
  have hblock := toNat_broadcast_eq hlow hhigh ip_host
  have hone : (1 : UInt32).toNat = 1 := rfl
  rw [UInt32.toNat_sub_of_le]
  · omega
  · rw [UInt32.le_iff_toNat_le]
    omega

/-- What is counted through are addresses. -/
theorem hosts_lt {i : Nat}
    (hi : i ∈ List.range' ((network ip_host p).toNat + 1) (2 ^ (32 - p.toNat) - 2)) :
    i < 2 ^ 32 := by
  have hblock := toNat_broadcast_eq hlow hhigh ip_host
  have hlt : (broadcast ip_host p).toNat < 2 ^ 32 := (broadcast ip_host p).toNat_lt
  rw [List.mem_range'_1] at hi
  omega

/-- The hosts come in their order. -/
theorem hosts_pairwise : (hosts ip_host p).Pairwise (· < ·) := by
  rw [hosts, List.pairwise_map]
  refine List.Pairwise.imp_of_mem ?_ List.pairwise_lt_range'
  intro i j hi hj hij
  rw [UInt32.lt_iff_toNat_lt, UInt32.toNat_ofNat', UInt32.toNat_ofNat',
    Nat.mod_eq_of_lt (hosts_lt hlow hhigh ip_host hi),
    Nat.mod_eq_of_lt (hosts_lt hlow hhigh ip_host hj)]
  exact hij

/-- The hosts are between the two ends. -/
theorem mem_hosts_iff_between {a : UInt32} :
    a ∈ hosts ip_host p ↔ (network ip_host p).toNat < a.toNat ∧
      a.toNat + 1 < (network ip_host p).toNat + 2 ^ (32 - p.toNat) := by
  have hfour := four_le_block hlow hhigh
  rw [hosts, List.mem_map]
  constructor
  · rintro ⟨i, hi, rfl⟩
    rw [UInt32.toNat_ofNat', Nat.mod_eq_of_lt (hosts_lt hlow hhigh ip_host hi)]
    rw [List.mem_range'_1] at hi
    omega
  · intro h
    refine ⟨a.toNat, ?_, UInt32.ofNat_toNat⟩
    rw [List.mem_range'_1]
    omega

/-- **The hosts of the block.** -/
theorem mem_hosts {a : UInt32} :
    a ∈ hosts ip_host p ↔ SameSubnet p a ip_host ∧ ¬ IsNetwork p a ∧ ¬ IsBroadcast p a := by
  have hp : p.toNat = 32 - (32 - p.toNat) := by omega
  rw [mem_hosts_iff_between hlow hhigh, toNat_network hlow hhigh, SameSubnet, hp, samePrefix_iff,
    ← hp, IsNetwork, rest_false_iff, IsBroadcast, rest_true_iff, UInt32.toNat_toBitVec,
    UInt32.toNat_toBitVec]
  exact block_iff (four_le_block hlow hhigh)

end

/-- What is pushed for them. -/
def texts (hosts : List UInt32) : List Text := hosts.map fun h => dotted (htonl h)

/-- An address and a prefix that are accepted lead to the loop. -/
theorem generateSubnetIPs_eq {ip : Text} {addr : InAddr} {p : Int}
    (hip : inet_pton (cString ip) = some addr) (hlow : 20 ≤ p) (hhigh : p ≤ 30) (fuel : Nat) :
    generateSubnetIPs fuel ip p =
      enumerate (broadcast (ntohl addr) p - 1) fuel (network (ntohl addr) p + 1) [] := by
  have hfour := four_le_block hlow hhigh
  have hblock := toNat_broadcast_eq hlow hhigh (ntohl addr)
  have hfirst := toNat_first hlow hhigh (ntohl addr)
  have hlast := toNat_last hlow hhigh (ntohl addr)
  have hsome : ¬ broadcast (ntohl addr) p - 1 < network (ntohl addr) p + 1 := by
    rw [UInt32.lt_iff_toNat_lt]
    omega
  rw [generateSubnetIPs, if_neg (by omega), hip]
  exact if_neg hsome

/-- **What the loop comes to**, with enough fuel. -/
theorem generateSubnetIPs_texts {ip : Text} {addr : InAddr} {p : Int}
    (hip : inet_pton (cString ip) = some addr) (hlow : 20 ≤ p) (hhigh : p ≤ 30) {fuel : Nat}
    (hfuel : 2 ^ (32 - p.toNat) - 1 ≤ fuel) :
    generateSubnetIPs fuel ip p = some (texts (hosts (ntohl addr) p)) := by
  have hfour := four_le_block hlow hhigh
  have hblock := toNat_broadcast_eq hlow hhigh (ntohl addr)
  have hfirst := toNat_first hlow hhigh (ntohl addr)
  have hlast := toNat_last hlow hhigh (ntohl addr)
  have hlt : (broadcast (ntohl addr) p).toNat < 2 ^ 32 := (broadcast (ntohl addr) p).toNat_lt
  obtain ⟨extra, rfl⟩ := Nat.exists_eq_add_of_le hfuel
  have hn : 2 ^ (32 - p.toNat) - 1 = 2 ^ (32 - p.toNat) - 2 + 1 := by omega
  rw [generateSubnetIPs_eq hip hlow hhigh, hn, enumerate_eq (by omega) _ (by omega), hfirst, texts,
    hosts, List.nil_append, List.map_map]
  rfl

/-- **`GenerateSubnetIPs` gives the hosts of the subnet**: in strictly ascending order the addresses
with the same first bits, without the network and the broadcast address. They are
`2 ^ (32 - prefix_len) - 2` and differ as texts, the address asked for is among them where it is
neither of the two, and every address of the subnet gives the same. The loop ends, and neither its
counter nor its two bounds wrap. -/
theorem generateSubnetIPs_hosts {ip : Text} {addr : InAddr} {prefix_len : Int}
    (hip : inet_pton (cString ip) = some addr) (hlow : 20 ≤ prefix_len) (hhigh : prefix_len ≤ 30) :
    ∃ hosts : List UInt32,
      (∀ fuel, 2 ^ (32 - prefix_len.toNat) - 1 ≤ fuel →
        generateSubnetIPs fuel ip prefix_len = some (texts hosts)) ∧
      hosts.Pairwise (· < ·) ∧
      (∀ a, a ∈ hosts ↔ SameSubnet prefix_len a (ntohl addr) ∧
        ¬ IsNetwork prefix_len a ∧ ¬ IsBroadcast prefix_len a) ∧
      hosts.length = 2 ^ (32 - prefix_len.toNat) - 2 ∧
      (texts hosts).Nodup ∧
      (cString ip ∈ texts hosts ↔
        ¬ IsNetwork prefix_len (ntohl addr) ∧ ¬ IsBroadcast prefix_len (ntohl addr)) ∧
      (∀ ip' addr', inet_pton (cString ip') = some addr' →
        SameSubnet prefix_len (ntohl addr') (ntohl addr) →
        ∀ fuel, generateSubnetIPs fuel ip' prefix_len = generateSubnetIPs fuel ip prefix_len) ∧
      (∀ h ∈ hosts, (h + 1).toNat = h.toNat + 1) ∧
      (network (ntohl addr) prefix_len + 1).toNat = (network (ntohl addr) prefix_len).toNat + 1 ∧
      (broadcast (ntohl addr) prefix_len - 1).toNat + 1 =
        (broadcast (ntohl addr) prefix_len).toNat := by
  have hmem := fun a => mem_hosts hlow hhigh (ntohl addr) (a := a)
  have hsorted := hosts_pairwise hlow hhigh (ntohl addr)
  refine ⟨hosts (ntohl addr) prefix_len, fun fuel hfuel =>
    generateSubnetIPs_texts hip hlow hhigh hfuel, hsorted, hmem, ?_, ?_, ?_, ?_, ?_,
    toNat_first hlow hhigh _, toNat_last hlow hhigh _⟩
  · rw [hosts, List.length_map, List.length_range']
  · exact List.Nodup.map dotted_htonl_injective (hsorted.imp fun h => UInt32.ne_of_lt h)
  · have htext : cString ip = dotted (htonl (ntohl addr)) := by
      rw [htonl_ntohl]
      exact inet_pton_eq_some.1 hip
    rw [texts, htext, List.mem_map_of_injective dotted_htonl_injective, hmem]
    exact and_iff_right fun _ _ => rfl
  · intro ip' addr' hip' hsame fuel
    rw [generateSubnetIPs_eq hip' hlow hhigh, generateSubnetIPs_eq hip hlow hhigh, broadcast,
      broadcast, hsame.network_eq hlow hhigh]
  · intro h hh
    have hbetween := (mem_hosts_iff_between hlow hhigh (ntohl addr)).1 hh
    have hblock := toNat_broadcast_eq hlow hhigh (ntohl addr)
    have hlt := (broadcast (ntohl addr) prefix_len).toNat_lt
    exact toNat_succ (by omega) UInt32.le_rfl

/-- The last subnet of the address space. -/
theorem generateSubnetIPs_hosts_last :
    ∃ hosts : List UInt32,
      (∀ fuel, 3 ≤ fuel → generateSubnetIPs fuel "255.255.255.253".toUTF8.toList 30 =
        some (texts hosts)) ∧
      hosts.Pairwise (· < ·) ∧ hosts.length = 2 := by
  have hip : inet_pton (cString "255.255.255.253".toUTF8.toList) =
      some ⟨255, 255, 255, 253⟩ := by decide +kernel
  obtain ⟨hosts, hends, hsorted, _, hlength, _⟩ :=
    generateSubnetIPs_hosts hip (by decide : (20 : Int) ≤ 30) (by decide)
  exact ⟨hosts, hends, hsorted, hlength⟩

end MyTools.MyIPTools
