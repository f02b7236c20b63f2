import FastCppServer.Lib.Redirection
import FastCppServer.MyScript.Command

/-!
# The system's `ping`

`PingFuncBySystem::PingIP` puts the address between single quotes for the shell that `std::system`
starts. A single quote in it ends the quoting, comes with a backslash, and begins the quoting again
(`quoteForShell`), so the word goes on whatever there is in the address (`words_quoteForShell`), and
quote removal gives the address back (`kept_requoted`).
-/

namespace MyTools.PingTools

open MyScript Shell

def quoteForShell (value : List Char) : List Char :=
  value.foldl (fun quoted ch => if ch = '\'' then quoted ++ "'\\''".toList else quoted ++ [ch])
    "'".toList ++ "'".toList

/-- With `WIFEXITED` and `WEXITSTATUS` as in `sys/wait.h`. -/
def isExitSuccess (status : Int) : Bool :=
  status ≠ -1 && status % 128 = 0 && status / 256 % 256 = 0

/-- What `PingIP` writes into `command`. -/
def pingCommand (ip : List Char) (count timeout_sec : Int) : List Char :=
  "ping -c ".toList ++ (toString count).toList ++ " -W ".toList ++ (toString timeout_sec).toList ++
    " ".toList ++ quoteForShell ip ++ " > /dev/null 2>&1".toList

/-- `PingFuncBySystem::PingIP`, with the status that `std::system` gives for a command. -/
def pingIP (system : List Char → Int) (ip : List Char) (count timeout_sec : Int) : Bool :=
  if ip = [] then false
  else if count ≤ 0 ∨ timeout_sec ≤ 0 then false
  else isExitSuccess (system (cString (pingCommand ip count timeout_sec)))

/-! ## Quoting -/

/-- How the shell reads a character of the text. -/
def requote (c : Char) : Word :=
  if c = '\'' then [('\'', .quoting), ('\\', .quoting), ('\'', .literal), ('\'', .quoting)]
  else [(c, .literal)]

/-- The word that the shell reads. -/
def requoted (value : List Char) : Word :=
  ('\'', .quoting) :: (value.flatMap requote ++ [('\'', .quoting)])

theorem quoteForShell_eq (value : List Char) :
    quoteForShell value = '\'' :: (raw (value.flatMap requote) ++ ['\'']) := by
  have hloop : ∀ quoted : List Char,
      value.foldl (fun quoted ch =>
        if ch = '\'' then quoted ++ "'\\''".toList else quoted ++ [ch]) quoted =
      quoted ++ raw (value.flatMap requote) := by
    induction value with
    | nil =>
      intro quoted
      simp [raw]
    | cons c value ih =>
      intro quoted
      rw [List.foldl_cons, ih, List.flatMap_cons, raw_append, requote]
      split
      · simp [raw]
      · simp [raw]
  rw [quoteForShell, hloop]
  simp

/-- Between the quotes, each character is taken up, and the quoting goes on. -/
theorem words_requote (c : Char) (v : Word) (text : List Char) :
    words .single (some v) (raw (requote c) ++ text) =
      words .single (some (v ++ requote c)) text := by
  rw [requote]
  split
  · next hc =>
    -- the quoting ends, the backslash quotes the quote, and the quoting begins again
    simp [raw, words, add]
  · next hc => simp [raw, words, add, hc]

/-- **The quoted form never ends early**: the shell has read one word, or a part of one, where the
form ends. -/
theorem words_quoteForShell (cur : Option Word) (value text : List Char) :
    words .bare cur (quoteForShell value ++ text) =
      words .bare (add cur (requoted value)) text := by
  have hinside : ∀ v : Word, words .single (some v) (raw (value.flatMap requote) ++ '\'' :: text) =
      words .bare (some (v ++ (value.flatMap requote ++ [('\'', .quoting)]))) text := by
    induction value with
    | nil =>
      intro v
      simp [raw, words, add]
    | cons c value ih =>
      intro v
      rw [List.flatMap_cons, raw_append, List.append_assoc, words_requote, ih]
      simp
  rw [quoteForShell_eq, List.cons_append, List.append_assoc, List.singleton_append, words,
    if_neg (by decide), if_pos rfl, add, hinside, add, requoted]
  simp

/-- **Unquoting** gives the text back. -/
theorem kept_requoted (value : List Char) : kept (requoted value) = value := by
  have hinside : kept (value.flatMap requote) = value := by
    induction value with
    | nil => rfl
    | cons c value ih =>
      rw [List.flatMap_cons, kept_append, ih, requote]
      split
      · next hc => rw [hc]; rfl
      · rfl
  rw [requoted, ← List.singleton_append, kept_append, kept_append, hinside]
  simp [kept, raw]

theorem not_expands_requoted (value : List Char) : ¬ Expands (requoted value) := by
  refine not_expands_of_quoted fun p hp => ?_
  rw [requoted, List.mem_cons, List.mem_append, List.mem_singleton, List.mem_flatMap] at hp
  rcases hp with rfl | ⟨c, -, hp⟩ | rfl
  · exact .inr rfl
  · rw [requote] at hp
    split at hp
    · simp only [List.mem_cons, List.not_mem_nil, or_false] at hp
      rcases hp with rfl | rfl | rfl | rfl <;> simp
    · rw [List.mem_singleton.1 hp]
      exact .inl rfl
  · exact .inr rfl

/-! ## The command -/

/-- A positive number is written with digits. -/
theorem toString_digits {n : Int} (hn : 0 < n) :
    (toString n).toList ≠ [] ∧ ∀ c ∈ (toString n).toList, c.isDigit = true := by
  rw [Int.toString_eq_repr, Int.repr_eq_if, if_pos (by omega), Nat.toList_repr]
  exact ⟨Nat.toDigits_ne_nil, fun c hc => Nat.isDigit_of_mem_toDigits (by decide) (by decide) hc⟩

/-- Digits are a word as they are. -/
theorem digits_bare {a : List Char} (hne : a ≠ []) (h : ∀ c ∈ a, c.isDigit = true) :
    Bare a ∧ ¬ Expands (bareWord a) ∧ '\x00' ∉ a := by
  have hnot : ∀ l : List Char, l.all (!·.isDigit) = true → ∀ c ∈ a, c ∉ l := by
    intro l hl c hc hmem
    have hdigit := List.all_eq_true.1 hl c hmem
    rw [h c hc] at hdigit
    cases hdigit
  refine ⟨⟨hne, fun c hc => ⟨?_, ?_, ?_⟩, fun hhead => ?_⟩, not_expands_bareWord ?_,
    fun hnull => ?_⟩
  · exact hnot _ rfl c hc
  · exact hnot operators rfl c hc
  · exact hnot blanks rfl c hc
  · exact hnot ['#'] rfl '#' (List.mem_of_mem_head? hhead) List.mem_cons_self
  · exact hnot expanded rfl
  · exact hnot ['\x00'] rfl _ hnull List.mem_cons_self

/-- The words of the line, one by one, and what comes after them. -/
theorem line_eq (count timeout address : List Char) :
    "ping -c ".toList ++ count ++ " -W ".toList ++ timeout ++ " ".toList ++ address ++
        " > /dev/null 2>&1".toList =
      ("ping".toList ++ ' ' :: ("-c".toList ++ ' ' :: (count ++ ' ' :: ("-W".toList ++
        ' ' :: (timeout ++ ' ' :: (address ++ [])))))) ++ ' ' :: "> /dev/null 2>&1".toList := by
  simp

theorem not_mem_line {count timeout address : List Char} (hcount : '\x00' ∉ count)
    (htimeout : '\x00' ∉ timeout) (haddress : '\x00' ∉ address) :
    '\x00' ∉ "ping -c ".toList ++ count ++ " -W ".toList ++ timeout ++ " ".toList ++ address ++
      " > /dev/null 2>&1".toList := by
  simp [hcount, htimeout, haddress]

theorem pingCommand_eq (ip : List Char) (count timeout_sec : Int) :
    pingCommand ip count timeout_sec =
      ("ping".toList ++ ' ' :: ("-c".toList ++ ' ' :: ((toString count).toList ++
        ' ' :: ("-W".toList ++ ' ' :: ((toString timeout_sec).toList ++
          ' ' :: (quoteForShell ip ++ [])))))) ++ ' ' :: "> /dev/null 2>&1".toList :=
  line_eq (toString count).toList (toString timeout_sec).toList (quoteForShell ip)

/-- The command, up to the redirections. -/
theorem simpleCommand_ping (ip : List Char) {count timeout_sec : Int} (hcount : 0 < count)
    (htimeout : 0 < timeout_sec) :
    SimpleCommand
      ("ping".toList ++ ' ' :: ("-c".toList ++ ' ' :: ((toString count).toList ++
        ' ' :: ("-W".toList ++ ' ' :: ((toString timeout_sec).toList ++
          ' ' :: (quoteForShell ip ++ []))))))
      ["ping".toList, "-c".toList, (toString count).toList, "-W".toList,
        (toString timeout_sec).toList, ip] := by
  have hping : CommandWord "ping".toList := by decide
  have hc : Bare "-c".toList ∧ ¬ Expands (bareWord "-c".toList) := by decide
  have hW : Bare "-W".toList ∧ ¬ Expands (bareWord "-W".toList) := by decide
  have hcount := digits_bare (toString_digits hcount).1 (toString_digits hcount).2
  have htimeout := digits_bare (toString_digits htimeout).1 (toString_digits htimeout).2
  refine ⟨bareWord "ping".toList, [bareWord "-c".toList, bareWord (toString count).toList,
    bareWord "-W".toList, bareWord (toString timeout_sec).toList, requoted ip], ?_, ?_,
    hping.not_reserved, hping.not_assigns, ?_⟩
  · rw [words_bare hping.toBare, words_blank, words_bare hc.1, words_blank, words_bare hcount.1,
      words_blank, words_bare hW.1, words_blank, words_bare htimeout.1, words_blank,
      words_quoteForShell, words]
    rfl
  · simp [kept_requoted]
  · simp only [List.forall_mem_cons, List.not_mem_nil, false_imp_iff, implies_true, and_true]
    exact ⟨hping.not_expands, hc.2, hcount.2.1, hW.2, htimeout.2.1, not_expands_requoted ip⟩

theorem not_mem_quoteForShell {value : List Char} (h : '\x00' ∉ value) :
    '\x00' ∉ quoteForShell value := by
  have hinside : '\x00' ∉ raw (value.flatMap requote) := by
    induction value with
    | nil => exact List.not_mem_nil
    | cons c value ih =>
      rw [List.mem_cons, not_or] at h
      rw [List.flatMap_cons, raw_append, List.mem_append, not_or]
      refine ⟨?_, ih h.2⟩
      rw [requote]
      split
      · decide
      · simp [raw, h.1]
  rw [quoteForShell_eq, List.mem_cons, List.mem_append, not_or, not_or]
  exact ⟨by decide, hinside, by decide⟩

/-- The redirections. -/
def redirections : List Redirection :=
  [⟨none, ['>'], bareWord "/dev/null".toList⟩, ⟨some (bareWord ['2']), ['>', '&'], bareWord ['1']⟩]

theorem tokens_redirections :
    tokens .bare (.word none) "> /dev/null 2>&1".toList =
      some [.redirect ['>'], .word (bareWord "/dev/null".toList), .ioNumber (bareWord ['2']),
        .redirect ['>', '&'], .word (bareWord ['1'])] := by
  decide

theorem parse_redirections :
    parse [.redirect ['>'], .word (bareWord "/dev/null".toList), .ioNumber (bareWord ['2']),
      .redirect ['>', '&'], .word (bareWord ['1'])] = some ([], redirections) := rfl

/-- What they say: nothing is printed. -/
def silenced : List (Option (List Char) × List Char × List Char) :=
  [(none, ">".toList, "/dev/null".toList), (some "2".toList, ">&".toList, "1".toList)]

theorem written_redirections : redirections.map Redirection.written = silenced := by decide

/-- **The address is passed literally.** For an address and for numbers that are not refused, what
the shell gets is one simple command with the words that were asked for, whatever the address is
made of, and its status is what counts. The quoted form of any text is one word, or goes on with
one, and unquoting gives the text back. -/
theorem pingIP_literal {ip : List Char} {count timeout_sec : Int} (hip : ip ≠ [])
    (hnull : '\x00' ∉ ip) (hcount : 0 < count) (htimeout : 0 < timeout_sec) :
    (∀ system, pingIP system ip count timeout_sec =
      isExitSuccess (system (cString (pingCommand ip count timeout_sec)))) ∧
    RedirectedCommand (cString (pingCommand ip count timeout_sec))
      ["ping".toList, "-c".toList, (toString count).toList, "-W".toList,
        (toString timeout_sec).toList, ip] silenced ∧
    ∀ value : List Char, (∀ cur text, words .bare cur (quoteForShell value ++ text) =
      words .bare (add cur (requoted value)) text) ∧ kept (requoted value) = value := by
  refine ⟨fun system => ?_, ?_, fun value => ⟨?_, kept_requoted value⟩⟩
  · rw [pingIP, if_neg hip, if_neg (by omega)]
  · have hexpands : ∀ r ∈ redirections, ¬ Expands r.target := by decide
    have hcommand := (simpleCommand_ping ip hcount htimeout).append tokens_redirections
      parse_redirections hexpands
    rw [written_redirections] at hcommand
    have hdigits := digits_bare (toString_digits hcount).1 (toString_digits hcount).2
    have hdigits' := digits_bare (toString_digits htimeout).1 (toString_digits htimeout).2
    rw [cString_eq, pingCommand_eq]
    · exact hcommand
    · exact not_mem_line hdigits.2.2 hdigits'.2.2 (not_mem_quoteForShell hnull)
  · exact fun cur text => words_quoteForShell cur value text

/-- An address that would bring in another command. -/
theorem pingIP_apostrophe :
    RedirectedCommand (cString (pingCommand "1'; reboot; '".toList 3 1))
      ["ping".toList, "-c".toList, (toString (3 : Int)).toList, "-W".toList,
        (toString (1 : Int)).toList, "1'; reboot; '".toList]
      silenced :=
  (pingIP_literal (by decide) (by decide) (by decide) (by decide)).2.1

end MyTools.PingTools
