import FastCppServer.Cache.Index
import FastCppServer.MyData.Json
import Mathlib.Data.Nat.ModEq

/-!
# The limit of the size

`Init` takes `max_file_size` for a number of megabytes, where its header and its configuration type
have bytes: it multiplies by `2 ^ 20` in 64 bits. So the limit that `SaveFile` compares with is not
the one configured, and none where the product wraps to 0; a number that JSON does not keep as
unsigned leaves the limit that an earlier `Init` had set. Which data the limit treats as documented
is `enforces_limit_iff`.
-/

namespace MyCache

open MyData

/-- `config_.max_file_size` after `Init`, from what it was before. -/
def initMaxFileSize (old : UInt64) (config : Json) : UInt64 :=
  match config.find "max_file_size" with
  | some (.integer n) => if 0 ≤ n ∧ n < 2 ^ 64 then .ofNat n.toNat * 1024 * 1024 else old
  | _ => old

/-- A size is more than a double, and the double more than 0: `m * 2 ^ (e - 1075)` is the double. -/
def DoubleExceeded (bits : UInt64) (size : Nat) : Prop :=
  let exponent := bits.toNat / 2 ^ 52 % 2 ^ 11
  let fraction := bits.toNat % 2 ^ 52
  let m := if exponent = 0 then fraction else 2 ^ 52 + fraction
  bits.toNat < 2 ^ 63 ∧ 0 < m ∧ m * 2 ^ max exponent 1 < size * 2 ^ 1075

/-- What the header says: a positive `max_file_size`, in bytes, is less than the size. -/
def ExceedsConfigured (config : Json) (size : Nat) : Prop :=
  match config.find "max_file_size" with
  | some (.integer n) => 0 < n ∧ n < size
  | some (.float bits) => DoubleExceeded bits size
  | _ => False

/-- The number of bytes above which a save is refused, 0 for none: the configured one times
`2 ^ 20`, without what does not fit in 64 bits, or the limit before where there is no such
number. -/
def limitKept (old : UInt64) (config : Json) : Nat :=
  match config.find "max_file_size" with
  | some (.integer n) => if 0 ≤ n ∧ n < 2 ^ 64 then n.toNat * 2 ^ 20 % 2 ^ 64 else old.toNat
  | _ => old.toNat

theorem initMaxFileSize_toNat (old : UInt64) (config : Json) :
    (initMaxFileSize old config).toNat = limitKept old config := by
  unfold initMaxFileSize limitKept
  split
  · split
    · next n _ _ =>
      rw [UInt64.toNat_mul, UInt64.toNat_mul, UInt64.toNat_ofNat']
      rw [Nat.mod_mul_mod, Nat.mul_assoc, Nat.mod_mul_mod]
      rfl
    · rfl
  · rfl

/-- **When a save is refused for its size.** -/
theorem saveFile_tooLarge_iff {c : Cache} {name : List Char} {full : Path}
    (h : validatePath c name = .ok full) (data : List UInt8) (f : Faults) (now : Int) :
    (saveFile c name data f now).2 = .error .fileTooLarge ↔ TooLarge c data := by
  rw [saveFile, h]
  dsimp only
  by_cases hlarge : TooLarge c data
  · rw [if_pos hlarge]
    exact iff_of_true rfl hlarge
  · rw [if_neg hlarge]
    refine iff_of_false (fun herror => ?_) hlarge
    split at herror
    · cases herror
    · next t ht =>
      have hends := saveTmp_ends (validatePath_normal h) (t := t) data f now
      split at herror
      · next t' e he =>
        rw [he] at hends
        cases herror
        cases hends
      · cases herror

/-- No positive limit is kept. -/
theorem scaled_ne {n : Nat} (hpos : 0 < n) (hlt : n < 2 ^ 64) : n * 2 ^ 20 % 2 ^ 64 ≠ n := by
  intro heq
  have hmod : n * 2 ^ 20 ≡ n [MOD 2 ^ 64] := by
    rw [Nat.ModEq, heq, Nat.mod_eq_of_lt hlt]
  have hdvd : 2 ^ 64 ∣ n * 2 ^ 20 - n :=
    (Nat.modEq_iff_dvd' (Nat.le_mul_of_pos_right n (by decide))).1 hmod.symm
  rw [← Nat.mul_sub_one] at hdvd
  have hcoprime : Nat.Coprime (2 ^ 64) (2 ^ 20 - 1) := Nat.Coprime.pow_left 64 (by decide)
  exact absurd (Nat.le_of_dvd hpos (hcoprime.dvd_of_dvd_mul_right hdvd)) (Nat.not_le.2 hlt)

/-- The data is refused just where the header says so. -/
def EnforcesLimit (c : Cache) (config : Json) (name : List Char) (data : List UInt8) : Prop :=
  ∀ f now, (saveFile c name data f now).2 = .error .fileTooLarge ↔
    ExceedsConfigured config data.length

/-- The size is more than the configured limit and than the one kept, or than neither. -/
def SameSide (config : Json) (kept size : Nat) : Prop :=
  (ExceedsConfigured config size → 0 < kept ∧ kept < size) ∧
    (¬ ExceedsConfigured config size → kept = 0 ∨ size ≤ kept)

theorem enforcesLimit_iff {c : Cache} {config : Json} {name : List Char} {full : Path}
    (h : validatePath c name = .ok full) (data : List UInt8) :
    EnforcesLimit c config name data ↔ SameSide config c.maxFileSize data.length := by
  have hside : (TooLarge c data ↔ ExceedsConfigured config data.length) ↔
      SameSide config c.maxFileSize data.length := by
    rw [TooLarge, SameSide]
    by_cases hexceeds : ExceedsConfigured config data.length
    · simp [hexceeds]
    · simp only [hexceeds, iff_false, false_implies, not_false_eq_true, forall_const, true_and]
      omega
  rw [← hside]
  constructor
  · intro hall
    rw [← saveFile_tooLarge_iff h data {} 0]
    exact hall {} 0
  · intro hiff f now
    rw [saveFile_tooLarge_iff h]
    exact hiff

/-- **The limit is enforced as documented** just for the data that is larger than both the
configured number of bytes and what `Init` makes of it, or than neither; and for all data only where
the configured limit is 0. -/
theorem enforces_limit_iff (old : UInt64) (config : Json) (root : List Entry) (retention : Int)
    (t : Files) (name : List Char) (full : Path)
    (h : validatePath (initialised root (initMaxFileSize old config).toNat retention t) name =
      .ok full) :
    (∀ data, EnforcesLimit (initialised root (initMaxFileSize old config).toNat retention t) config
        name data ↔ SameSide config (limitKept old config) data.length) ∧
    ∀ n : Nat, n < 2 ^ 64 → config.find "max_file_size" = some (.integer n) →
      ((∀ data, EnforcesLimit
        (initialised root (initMaxFileSize old config).toNat retention t) config
        name data) ↔ n = 0) := by
  have hdata : ∀ data, EnforcesLimit
      (initialised root (initMaxFileSize old config).toNat retention t) config name data ↔
        SameSide config (limitKept old config) data.length := by
    intro data
    rw [enforcesLimit_iff h, ← initMaxFileSize_toNat]
    rfl
  refine ⟨hdata, fun n hlt hn => ?_⟩
  have hkept : limitKept old config = n * 2 ^ 20 % 2 ^ 64 := by
    unfold limitKept
    rw [hn]
    dsimp only
    rw [if_pos ⟨by omega, by omega⟩, Int.toNat_natCast]
  have hexceeds : ∀ size, ExceedsConfigured config size ↔ 0 < n ∧ n < size := by
    intro size
    unfold ExceedsConfigured
    rw [hn]
    dsimp only
    omega
  constructor
  · intro hall
    by_contra hne
    have hpos := Nat.pos_of_ne_zero hne
    -- The size one above the smaller of the two limits is on different sides of them.
    have hsize : ∀ size, SameSide config (n * 2 ^ 20 % 2 ^ 64) size := by
      intro size
      have := (hdata (List.replicate size 0)).1 (hall _)
      rwa [hkept, List.length_replicate] at this
    have hdiff := scaled_ne hpos hlt
    generalize n * 2 ^ 20 % 2 ^ 64 = kept at hsize hdiff
    rcases Nat.lt_or_gt_of_ne hdiff with hless | hmore
    · rcases Nat.eq_zero_or_pos kept with hzero | hkeptpos
      · have := (hsize (n + 1)).1 ((hexceeds _).2 (by omega))
        omega
      · have := (hsize (kept + 1)).2 (mt (hexceeds _).1 (by omega))
        omega
    · have := (hsize (n + 1)).1 ((hexceeds _).2 (by omega))
      omega
  · intro hzero data
    rw [hdata, hkept, hzero]
    refine ⟨fun hover => ?_, fun _ => .inl (by simp)⟩
    have := (hexceeds _).1 hover
    omega

/-- A limit of ten bytes. -/
def tenBytes : Json := .object [("max_file_size", .integer 10), ("root_path", .string "/c")]

theorem enforces_limit_small :
    EnforcesLimit (initialised [⟨['c'], by decide⟩] (initMaxFileSize 0 tenBytes).toNat 0 emptyRoot)
      tenBytes ['a'] [1, 2, 3] := by
  refine ((enforces_limit_iff 0 tenBytes [⟨['c'], by decide⟩] 0 emptyRoot ['a'] [['c'], ['a']]
    (by decide)).1 [1, 2, 3]).2 ⟨fun hover => absurd hover.2 (by decide), fun _ => .inr (by decide)⟩

/-- **Eleven bytes pass a limit of ten.** -/
theorem not_enforces_limit :
    ¬ ∀ (config : Json) (root : List Entry) (retention : Int) (t : Files) (name : List Char)
      (full : Path),
      validatePath (initialised root (initMaxFileSize 0 config).toNat retention t) name = .ok full →
      ∀ data, EnforcesLimit (initialised root (initMaxFileSize 0 config).toNat retention t) config
        name data := by
  intro h
  have hpath : validatePath
      (initialised [⟨['c'], by decide⟩] (initMaxFileSize 0 tenBytes).toNat 0 emptyRoot) ['a'] =
        .ok [['c'], ['a']] := by decide
  have hall := h tenBytes [⟨['c'], by decide⟩] 0 emptyRoot ['a'] [['c'], ['a']] hpath
    (List.replicate 11 0)
  have hside := (enforcesLimit_iff hpath (List.replicate 11 0)).1 hall
  have hover : ExceedsConfigured tenBytes (List.replicate 11 (0 : UInt8)).length :=
    ⟨by decide, by decide⟩
  exact absurd (hside.1 hover).2 (by decide)

end MyCache
