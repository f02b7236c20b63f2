import FastCppServer.Lib.Scan

/-!
# Reading `/proc/<pid>/stat`

The kernel writes a line `pid (comm) state ppid …`. The observed process chooses its name, which may
hold any byte, a parenthesis or a newline too. Both readers cut the name out between the first
opening and the last closing parenthesis, and number the words behind it from 3 on. No word there
has a parenthesis, so the two are those that the kernel has written (`splitStat_write`).
-/

namespace MySoftHealthy

open Scan

/-! ## The readers -/

/-- What `read_proc_stat` writes to. -/
structure ProcessSnapshot where
  pid : Int := 0
  startTimeTicks : Nat := 0
  ppid : Int := -1
  name : List UInt8 := []
  state : UInt8 := 63
  utimeTicks : Nat := 0
  stimeTicks : Nat := 0
  deriving DecidableEq

/-- What `read_task_stat` writes to. -/
structure TaskStat where
  utime : Nat
  stime : Nat
  state : UInt8
  priority : Int
  nice : Int
  processor : Int
  comm : List UInt8
  deriving DecidableEq

/-- What stands before the name, the name, and the words behind it. -/
def splitStat (content : List UInt8) : Option (List UInt8 × List UInt8 × List (List UInt8)) :=
  match find 40 content, rfind 41 content with
  | some lparen, some rparen =>
    if rparen ≤ lparen then none
    else
      let name := (content.drop (lparen + 1)).take (rparen - lparen - 1)
      let rest := trim isSpace (content.drop (rparen + 1))
      some (content.take lparen, name, words isSpace rest)
  | _, _ => none

/-- The number of words is cast to `int`. -/
def getField (toks : List (List UInt8)) (fieldNo : Int) : Option (List UInt8) :=
  let idx := fieldNo - 3
  if idx < 0 ∨ Int.bmod toks.length (2 ^ 32) ≤ idx then none else toks[idx.toNat]?

/-- `read_proc_stat`, of what the file holds. A number that cannot be read leaves what was there. -/
def readProcStat (pid : Int) (content : List UInt8) (out : ProcessSnapshot) :
    Bool × ProcessSnapshot :=
  if content.isEmpty then (false, out)
  else
    match splitStat content with
    | none => (false, out)
    | some (pidStr, name, toks) =>
      (true,
        { pid := (stoi (trim isSpace pidStr)).getD pid
          name
          state := ((getField toks 3).map (·.headD 0)).getD out.state
          ppid := ((getField toks 4).bind stoi).getD out.ppid
          utimeTicks := ((getField toks 14).bind stoull).getD out.utimeTicks
          stimeTicks := ((getField toks 15).bind stoull).getD out.stimeTicks
          startTimeTicks := ((getField toks 22).bind stoull).getD out.startTimeTicks })

/-- `read_task_stat`. A number that cannot be read becomes `0`, or `-1`. -/
def readTaskStat (content : List UInt8) (out : TaskStat) : Bool × TaskStat :=
  if content.isEmpty then (false, out)
  else
    match splitStat content with
    | none => (false, out)
    | some (_, comm, toks) =>
      (true,
        { comm
          state := ((getField toks 3).map (·.headD 0)).getD out.state
          utime := ((getField toks 14).map fun s => (stoull s).getD 0).getD out.utime
          stime := ((getField toks 15).map fun s => (stoull s).getD 0).getD out.stime
          priority := ((getField toks 18).map fun s => (stoi s).getD 0).getD out.priority
          nice := ((getField toks 19).map fun s => (stoi s).getD 0).getD out.nice
          processor := ((getField toks 39).map fun s => (stoi s).getD (-1)).getD out.processor })

/-! ## The kernel -/

/-- What the kernel writes of a process. How many fields there are depends on its version. -/
structure StatLine where
  pid : Nat
  comm : List UInt8
  state : UInt8
  /-- Those from `ppid` on. -/
  fields : List Int
  letter : (65 ≤ state && state ≤ 90 || 97 ≤ state && state ≤ 122) = true
  count : fields.length < 2 ^ 31 - 1

namespace StatLine

/-- The line, as the kernel writes it. -/
def write (l : StatLine) : List UInt8 :=
  decimal l.pid ++ 32 :: 40 :: l.comm ++
    41 :: ((([l.state] :: l.fields.map showInt).flatMap (32 :: ·)) ++ [10])

/-- A field by its number. -/
def field (l : StatLine) (n : Nat) : Option Int := l.fields[n - 4]?

end StatLine

/-! ## What is promised -/

/-- A number that is an `int`. -/
def FitsInt (n : Int) : Prop := -2 ^ 31 ≤ n ∧ n < 2 ^ 31

/-- A number that is a `uint64_t`. -/
def FitsUint64 (n : Int) : Prop := 0 ≤ n ∧ n < 2 ^ 64

/-- `read_proc_stat` gives back what the kernel has written. -/
structure ProcRead (l : StatLine) (out : ProcessSnapshot) : Prop where
  pid : FitsInt l.pid → out.pid = l.pid
  name : out.name = l.comm
  state : out.state = l.state
  ppid : ∀ n, l.field 4 = some n → FitsInt n → out.ppid = n
  utime : ∀ n, l.field 14 = some n → FitsUint64 n → out.utimeTicks = n
  stime : ∀ n, l.field 15 = some n → FitsUint64 n → out.stimeTicks = n
  startTime : ∀ n, l.field 22 = some n → FitsUint64 n → out.startTimeTicks = n

/-- So does `read_task_stat`. -/
structure TaskRead (l : StatLine) (out : TaskStat) : Prop where
  comm : out.comm = l.comm
  state : out.state = l.state
  utime : ∀ n, l.field 14 = some n → FitsUint64 n → out.utime = n
  stime : ∀ n, l.field 15 = some n → FitsUint64 n → out.stime = n
  priority : ∀ n, l.field 18 = some n → FitsInt n → out.priority = n
  nice : ∀ n, l.field 19 = some n → FitsInt n → out.nice = n
  processor : ∀ n, l.field 39 = some n → FitsInt n → out.processor = n

/-! ## The name -/

/-- A text with a name in parentheses. -/
def Named (content : List UInt8) : Prop :=
  ∃ pre name post, content = pre ++ 40 :: name ++ 41 :: post

variable {content : List UInt8} {l : StatLine}

/-- Where the line is split: at its first opening and its last closing parenthesis. -/
theorem splitStat_append {pre name post : List UInt8} (hpre : 40 ∉ pre) (hpost : 41 ∉ post) :
    splitStat (pre ++ 40 :: name ++ 41 :: post) =
      some (pre, name, words isSpace (trim isSpace post)) := by
  have hfind : find 40 (pre ++ 40 :: name ++ 41 :: post) = some pre.length := by
    rw [List.append_assoc]
    exact find_append hpre _
  have hrfind : rfind 41 (pre ++ 40 :: name ++ 41 :: post) = some (pre ++ 40 :: name).length :=
    rfind_append hpost _
  have hlt : ¬ (pre ++ 40 :: name).length ≤ pre.length := by simp
  rw [splitStat, hfind, hrfind]
  dsimp only
  rw [if_neg hlt]
  have hname : ((pre ++ 40 :: name ++ 41 :: post).drop (pre.length + 1)).take
      ((pre ++ 40 :: name).length - pre.length - 1) = name := by
    rw [List.append_assoc, List.cons_append, ← List.drop_drop, List.drop_left]
    simp
  have hrest : (pre ++ 40 :: name ++ 41 :: post).drop ((pre ++ 40 :: name).length + 1) = post := by
    rw [← List.drop_drop, List.drop_left]
    rfl
  have hpid : (pre ++ 40 :: name ++ 41 :: post).take pre.length = pre := by
    rw [List.append_assoc, List.take_left]
  rw [hname, hrest, hpid]

/-- The name is `x) (y` and a newline. -/
example : splitStat [55, 32, 40, 120, 41, 32, 40, 121, 10, 41, 32, 83, 32, 49, 10] =
    some ([55, 32], [120, 41, 32, 40, 121, 10], [[83], [49]]) := by decide

/-- A text with a name in parentheses can be split. -/
theorem Named.exists_split (h : Named content) :
    ∃ pre name post, 40 ∉ pre ∧ 41 ∉ post ∧ content = pre ++ 40 :: name ++ 41 :: post := by
  obtain ⟨pre, name, post, rfl⟩ := h
  have hopen : (40 : UInt8) ∈ pre ++ [40] := by simp
  obtain ⟨pre', mid, hpre, hmid⟩ := exists_find hopen
  have hclose : (41 : UInt8) ∈ mid ++ name ++ 41 :: post := by simp
  obtain ⟨name', post', hpost, hname⟩ := exists_rfind hclose
  refine ⟨pre', name', post', hpre, hpost, ?_⟩
  calc pre ++ 40 :: name ++ 41 :: post
    _ = (pre ++ [40]) ++ (name ++ 41 :: post) := by simp
    _ = (pre' ++ 40 :: mid) ++ (name ++ 41 :: post) := by rw [hmid]
    _ = pre' ++ 40 :: (mid ++ name ++ 41 :: post) := by simp
    _ = pre' ++ 40 :: (name' ++ 41 :: post') := by rw [hname]
    _ = pre' ++ 40 :: name' ++ 41 :: post' := by simp

/-- **A text without a name is rejected**, and no other. -/
theorem splitStat_eq_none : splitStat content = none ↔ ¬ Named content := by
  constructor
  · intro hnone hnamed
    obtain ⟨pre, name, post, hpre, hpost, rfl⟩ := hnamed.exists_split
    rw [splitStat_append hpre hpost] at hnone
    cases hnone
  · intro hno
    by_cases hopen : (40 : UInt8) ∈ content
    · obtain ⟨pre, rest, hpre, rfl⟩ := exists_find hopen
      have hrest : (41 : UInt8) ∉ rest := by
        intro hclose
        obtain ⟨name, post, rfl⟩ := List.append_of_mem hclose
        exact hno ⟨pre, name, post, by simp⟩
      rw [splitStat, find_append hpre]
      by_cases hclose : (41 : UInt8) ∈ pre
      · -- the last closing parenthesis stands before the first opening one
        obtain ⟨pre, mid, hmid, rfl⟩ := exists_rfind hclose
        have hrfind : rfind 41 (pre ++ 41 :: mid ++ 40 :: rest) = some pre.length := by
          rw [List.append_assoc]
          exact rfind_append (by simp [hmid, hrest]) pre
        rw [hrfind]
        simp
      · rw [rfind_eq_none.2 (by simp [hclose, hrest])]
    · rw [splitStat, find_eq_none.2 hopen]

/-! ## What the kernel writes is read -/

/-- The state is a letter. -/
theorem StatLine.letter_range (l : StatLine) :
    65 ≤ l.state.toNat ∧ l.state.toNat ≤ 122 := by
  have h := l.letter
  simp only [Bool.or_eq_true, Bool.and_eq_true, decide_eq_true_eq, UInt8.le_iff_toNat_le] at h
  have h65 : (65 : UInt8).toNat = 65 := rfl
  have h122 : (122 : UInt8).toNat = 122 := rfl
  have h90 : (90 : UInt8).toNat = 90 := rfl
  have h97 : (97 : UInt8).toNat = 97 := rfl
  omega

/-- The state is no blank. -/
theorem StatLine.isSpace_state (l : StatLine) : isSpace l.state = false := by
  obtain ⟨hlow, -⟩ := l.letter_range
  simp only [isSpace, Bool.or_eq_false_iff, Bool.and_eq_false_iff, decide_eq_false_iff_not,
    UInt8.le_iff_toNat_le, ← UInt8.toNat_inj]
  have h13 : (13 : UInt8).toNat = 13 := rfl
  have h32 : (32 : UInt8).toNat = 32 := rfl
  omega

/-- The words behind the name. -/
def StatLine.toks (l : StatLine) : List (List UInt8) := [l.state] :: l.fields.map showInt

/-- The words are not empty, and no blank is in them. -/
theorem StatLine.toks_words (l : StatLine) : ∀ w ∈ l.toks, w ≠ [] ∧ ∀ b ∈ w, isSpace b = false := by
  intro w hw
  rcases List.mem_cons.1 hw with rfl | hw
  · refine ⟨List.cons_ne_nil _ _, fun b hb => ?_⟩
    rw [List.mem_singleton.1 hb]
    exact l.isSpace_state
  · obtain ⟨n, -, rfl⟩ := List.mem_map.1 hw
    exact ⟨showInt_ne_nil n, fun b hb => showInt_not_space hb⟩

/-- No word has a closing parenthesis. -/
theorem StatLine.close_not_mem (l : StatLine) :
    (41 : UInt8) ∉ l.toks.flatMap (32 :: ·) ++ [10] := by
  intro h
  rcases List.mem_append.1 h with h | h
  · obtain ⟨w, hw, hc⟩ := List.mem_flatMap.1 h
    rcases List.mem_cons.1 hc with hc | hc
    · cases hc
    · rcases List.mem_cons.1 hw with rfl | hw
      · have hrange := l.letter_range
        rw [← List.mem_singleton.1 hc] at hrange
        exact absurd hrange.1 (by decide)
      · obtain ⟨n, -, rfl⟩ := List.mem_map.1 hw
        rcases mem_showInt hc with hc | hc
        · cases hc
        · cases hc
  · cases List.mem_singleton.1 h

/-- **A line is split into what it was written from.** -/
theorem splitStat_write (l : StatLine) :
    splitStat l.write = some (decimal l.pid ++ [32], l.comm, l.toks) := by
  have hopen : (40 : UInt8) ∉ decimal l.pid ++ [32] := by
    intro h
    rcases List.mem_append.1 h with h | h
    · cases decimal_digits _ _ h
    · cases List.mem_singleton.1 h
  have hwrite : l.write = decimal l.pid ++ [32] ++ 40 :: l.comm ++
      41 :: (l.toks.flatMap (32 :: ·) ++ [10]) := by
    simp [StatLine.write, StatLine.toks]
  rw [hwrite, splitStat_append hopen l.close_not_mem, words_trim,
    words_flatMap rfl rfl l.toks_words]

/-- No line is empty. -/
theorem StatLine.write_ne_nil (l : StatLine) : l.write.isEmpty = false := by
  rw [StatLine.write, List.isEmpty_eq_false_iff]
  simp

/-- The number of words is an `int`. -/
theorem StatLine.bmod_length (l : StatLine) :
    Int.bmod l.toks.length (2 ^ 32) = l.toks.length := by
  have hcount := l.count
  refine Int.bmod_eq_of_le (by omega) ?_
  simp only [StatLine.toks, List.length_cons, List.length_map]
  omega

/-- The state is the third field. -/
@[simp] theorem getField_state (l : StatLine) : getField l.toks 3 = some [l.state] := by
  rw [getField, l.bmod_length]
  simp [StatLine.toks]

/-- **Fields are found by their numbers.** -/
theorem getField_toks (l : StatLine) {n : Nat} (hn : 4 ≤ n) :
    getField l.toks n = (l.field n).map showInt := by
  obtain ⟨k, rfl⟩ := Nat.exists_eq_add_of_le hn
  have hidx : ((4 + k : Nat) : Int) - 3 = ((k + 1 : Nat) : Int) := by omega
  have hfield : l.toks[k + 1]? = (l.field (4 + k)).map showInt := by
    simp [StatLine.toks, StatLine.field]
  rw [getField, l.bmod_length, hidx, Int.toNat_natCast, hfield]
  split
  · next h =>
    have hnone : l.field (4 + k) = none := by
      rw [StatLine.field, List.getElem?_eq_none_iff]
      simp only [StatLine.toks, List.length_cons, List.length_map] at h
      omega
    rw [hnone]
    rfl
  · rfl

/-- The pid is what stands before the name. -/
theorem trim_pid (n : Nat) : trim isSpace (decimal n ++ [32]) = showInt n := by
  obtain ⟨c, w, hw⟩ := List.exists_cons_of_ne_nil (decimal_ne_nil n)
  have hc : isSpace c = false := isSpace_of_isDigit (decimal_digits n c (by simp [hw]))
  have hlast : ∀ h : decimal n ≠ [], ¬ isSpace ((decimal n).getLast h) = true := by
    intro h
    rw [isSpace_of_isDigit (decimal_digits n _ (List.getLast_mem h))]
    exact Bool.false_ne_true
  have hshow : showInt n = decimal n := by
    rw [showInt, if_neg (by omega), Int.natAbs_natCast]
  have hfront : (decimal n ++ [32]).dropWhile isSpace = decimal n ++ [32] := by
    rw [hw, List.cons_append, List.dropWhile_cons_of_neg (by simp [hc])]
  rw [trim, hfront, List.rdropWhile_concat_pos _ _ _ rfl,
    List.rdropWhile_eq_self_iff.2 hlast, hshow]

/-- An `int` is read back. -/
theorem stoi_of_fits {n : Int} (h : FitsInt n) : stoi (showInt n) = some n := stoi_showInt h.1 h.2

/-- A `uint64_t` is read back. -/
theorem stoull_of_fits {n : Int} (h : FitsUint64 n) : stoull (showInt n) = some n.toNat := by
  obtain ⟨m, rfl⟩ := Int.eq_ofNat_of_zero_le h.1
  have hm : m < 2 ^ 64 := by
    have := h.2
    omega
  rw [stoull_showInt hm, Int.toNat_natCast]

/-- A field that fits is read as it is. -/
theorem getField_stoi {k : Nat} (hk : 4 ≤ k) {v : Int} (hfield : l.field k = some v)
    (h : FitsInt v) : (getField l.toks k).bind stoi = some v := by
  rw [getField_toks l hk, hfield]
  exact stoi_of_fits h

/-- A field is read back. -/
theorem getField_stoull {k : Nat} (hk : 4 ≤ k) {v : Int} (hfield : l.field k = some v)
    (h : FitsUint64 v) : (getField l.toks k).bind stoull = some v.toNat := by
  rw [getField_toks l hk, hfield]
  exact stoull_of_fits h

/-- **`read_proc_stat` reads what the kernel has written.** -/
theorem readProcStat_write (l : StatLine) (pid : Int) (out : ProcessSnapshot) :
    (readProcStat pid l.write out).1 = true ∧ ProcRead l (readProcStat pid l.write out).2 := by
  have hread : readProcStat pid l.write out =
      (true,
        { pid := (stoi (trim isSpace (decimal l.pid ++ [32]))).getD pid
          name := l.comm
          state := ((getField l.toks 3).map (·.headD 0)).getD out.state
          ppid := ((getField l.toks 4).bind stoi).getD out.ppid
          utimeTicks := ((getField l.toks 14).bind stoull).getD out.utimeTicks
          stimeTicks := ((getField l.toks 15).bind stoull).getD out.stimeTicks
          startTimeTicks := ((getField l.toks 22).bind stoull).getD out.startTimeTicks }) := by
    simp only [readProcStat, l.write_ne_nil, splitStat_write, Bool.false_eq_true, if_false]
  have hint {k : Nat} (hk : 4 ≤ k) (d n : Int) (hn : l.field k = some n) (hfits : FitsInt n) :
      ((getField l.toks k).bind stoi).getD d = n := by
    rw [getField_stoi hk hn hfits]
    rfl
  have huint {k : Nat} (hk : 4 ≤ k) (d : Nat) (n : Int) (hn : l.field k = some n)
      (hfits : FitsUint64 n) : (((getField l.toks k).bind stoull).getD d : Int) = n := by
    rw [getField_stoull hk hn hfits]
    exact Int.toNat_of_nonneg hfits.1
  rw [hread]
  refine ⟨rfl, ?_, rfl, ?_, ?_, ?_, ?_, ?_⟩ <;> dsimp only
  · intro hfits
    rw [trim_pid, stoi_of_fits hfits]
    rfl
  · rw [getField_state]
    rfl
  · exact hint (k := 4) (by decide) _
  · exact huint (k := 14) (by decide) _
  · exact huint (k := 15) (by decide) _
  · exact huint (k := 22) (by decide) _

/-- **`read_task_stat` reads what the kernel has written.** -/
theorem readTaskStat_write (l : StatLine) (out : TaskStat) :
    (readTaskStat l.write out).1 = true ∧ TaskRead l (readTaskStat l.write out).2 := by
  have hread : readTaskStat l.write out =
      (true,
        { comm := l.comm
          state := ((getField l.toks 3).map (·.headD 0)).getD out.state
          utime := ((getField l.toks 14).map fun s => (stoull s).getD 0).getD out.utime
          stime := ((getField l.toks 15).map fun s => (stoull s).getD 0).getD out.stime
          priority := ((getField l.toks 18).map fun s => (stoi s).getD 0).getD out.priority
          nice := ((getField l.toks 19).map fun s => (stoi s).getD 0).getD out.nice
          processor :=
            ((getField l.toks 39).map fun s => (stoi s).getD (-1)).getD out.processor }) := by
    simp only [readTaskStat, l.write_ne_nil, splitStat_write, Bool.false_eq_true, if_false]
  have hint {k : Nat} (hk : 4 ≤ k) (e d n : Int) (hn : l.field k = some n) (hfits : FitsInt n) :
      ((getField l.toks k).map fun s => (stoi s).getD e).getD d = n := by
    rw [getField_toks l hk, hn]
    show (stoi (showInt n)).getD e = n
    rw [stoi_of_fits hfits]
    rfl
  have huint {k : Nat} (hk : 4 ≤ k) (d : Nat) (n : Int) (hn : l.field k = some n)
      (hfits : FitsUint64 n) :
      (((getField l.toks k).map fun s => (stoull s).getD 0).getD d : Int) = n := by
    rw [getField_toks l hk, hn]
    show ((stoull (showInt n)).getD 0 : Int) = n
    rw [stoull_of_fits hfits]
    exact Int.toNat_of_nonneg hfits.1
  rw [hread]
  refine ⟨rfl, rfl, ?_, ?_, ?_, ?_, ?_, ?_⟩ <;> dsimp only
  · rw [getField_state]
    rfl
  · exact huint (k := 14) (by decide) _
  · exact huint (k := 15) (by decide) _
  · exact hint (k := 18) (by decide) _ _
  · exact hint (k := 19) (by decide) _ _
  · exact hint (k := 39) (by decide) _ _

/-- A text without a name changes nothing. -/
theorem read_of_not_named (h : ¬ Named content) :
    (∀ pid out, readProcStat pid content out = (false, out)) ∧
      ∀ out, readTaskStat content out = (false, out) := by
  have hnone := splitStat_eq_none.2 h
  constructor
  · intro pid out
    rw [readProcStat, hnone]
    exact ite_self _
  · intro out
    rw [readTaskStat, hnone]
    exact ite_self _

/-- **The readers invert the kernel**, whatever the name, and reject what has no name. -/
theorem stat_inverts :
    (∀ l pid out, (readProcStat pid (StatLine.write l) out).1 = true ∧
        ProcRead l (readProcStat pid (StatLine.write l) out).2) ∧
      (∀ l out, (readTaskStat (StatLine.write l) out).1 = true ∧
        TaskRead l (readTaskStat (StatLine.write l) out).2) ∧
      ∀ content, ¬ Named content →
        (∀ pid out, readProcStat pid content out = (false, out)) ∧
          ∀ out, readTaskStat content out = (false, out) :=
  ⟨readProcStat_write, readTaskStat_write, fun _ h => read_of_not_named h⟩

end MySoftHealthy
