import FastCppServer.Lib.Shell
import Mathlib.Data.List.TakeWhile

/-!
# The command lines that are run

`runPythonScript` and `runInCurrentEnv` of `MyPyEnvBot` put the script path and the arguments
between single quotes, and do nothing about the single quotes in them; `runProcess` of
`MyScriptManager` puts its arguments together with blanks between them. `MyBashEnvBot::runBash`
gives the line to `/bin/bash -lc`. A text is the list of its characters.

When a line is one simple command with the words that were asked for is a matter of the shell's
rules alone (`Shell.simpleCommand_quotedLine`, `Shell.simpleCommand_joinedLine`).
-/

namespace MyScript

open Shell

/-- The argument that `execvp` takes from a string: it ends at the first null character. -/
def cString (script : List Char) : List Char := script.takeWhile (· ≠ '\x00')

/-- `MyPyEnvBot::getPythonPath`. -/
def getPythonPath (venvPath : List Char) : List Char := venvPath ++ "/bin/python".toList

/-- `cmd += " '" + a + "'"`. -/
def appendQuoted (cmd a : List Char) : List Char := cmd ++ (" '".toList ++ a ++ "'".toList)

/-- The script that `MyPyEnvBot::runPythonScript` runs. -/
def runPythonScript (venvPath scriptPath : List Char) (args : List (List Char)) : List Char :=
  args.foldl appendQuoted (getPythonPath venvPath ++ " '".toList ++ scriptPath ++ "'".toList)

/-- The script that `MyPyEnvBot::runInCurrentEnv` runs. -/
def runInCurrentEnv (scriptPath : List Char) (args : List (List Char)) : List Char :=
  args.foldl appendQuoted ("python3 '".toList ++ scriptPath ++ "'".toList)

/-- The loop over `argv` from the second element on. -/
def joinRest (joined : List Char) (argv : List (List Char)) : List Char :=
  argv.foldl (fun joined arg => joined ++ " ".toList ++ arg) joined

/-- The script that `MyScriptManager::runProcess` runs, with `python` in `argv[0]` or without. -/
def runProcess : List (List Char) → List Char
  | [] => []
  | arg :: argv => joinRest arg argv

/-- The loop appends the quoted arguments. -/
theorem foldl_appendQuoted (cmd : List Char) (args : List (List Char)) :
    args.foldl appendQuoted cmd = cmd ++ quotedLine args := by
  induction args generalizing cmd with
  | nil => simp [quotedLine]
  | cons a args ih =>
    rw [List.foldl_cons, ih, appendQuoted]
    simp [quotedLine]

/-- The line of `RunPythonScript`. -/
theorem runPythonScript_eq (venvPath scriptPath : List Char) (args : List (List Char)) :
    runPythonScript venvPath scriptPath args =
      getPythonPath venvPath ++ quotedLine (scriptPath :: args) := by
  rw [runPythonScript, foldl_appendQuoted]
  simp [quotedLine]

/-- The line of `RunInCurrentEnv`. -/
theorem runInCurrentEnv_eq (scriptPath : List Char) (args : List (List Char)) :
    runInCurrentEnv scriptPath args = "python3".toList ++ quotedLine (scriptPath :: args) := by
  rw [runInCurrentEnv, foldl_appendQuoted]
  simp [quotedLine]

/-- The loop joins the arguments with blanks. -/
theorem foldl_join (joined : List Char) (argv : List (List Char)) :
    joinRest joined argv = joined ++ argv.flatMap (' ' :: ·) := by
  induction argv generalizing joined with
  | nil => simp [joinRest]
  | cons arg argv ih =>
    rw [joinRest, List.foldl_cons, ← joinRest, ih]
    simp

/-- The first argument has no blank before it. -/
theorem joinedLine_cons (arg : List Char) (argv : List (List Char)) :
    joinedLine (arg :: argv) = arg ++ argv.flatMap (' ' :: ·) := by
  induction argv generalizing arg with
  | nil => simp [joinedLine]
  | cons b argv ih =>
    rw [joinedLine, ih]
    simp

/-- The line of `RunProcess`. -/
theorem runProcess_eq (argv : List (List Char)) : runProcess argv = joinedLine argv := by
  cases argv with
  | nil => rfl
  | cons arg argv => rw [runProcess, foldl_join, joinedLine_cons]

/-! ## What bash gets -/

/-- A text without a NUL is a string of C as it stands. -/
theorem cString_eq {script : List Char} (h : '\x00' ∉ script) : cString script = script := by
  rw [cString, List.takeWhile_eq_self_iff]
  intro c hc
  exact decide_eq_true fun hnull => h (hnull ▸ hc)

/-- Quoting brings no NUL. -/
theorem not_mem_quotedLine {texts : List (List Char)} (h : ∀ a ∈ texts, '\x00' ∉ a) :
    '\x00' ∉ quotedLine texts := by
  induction texts with
  | nil => exact List.not_mem_nil
  | cons a texts ih =>
    rw [List.forall_mem_cons] at h
    have ih := ih h.2
    simp only [quotedLine, List.flatMap_cons, List.mem_append, List.mem_cons] at ih ⊢
    simp [h.1, ih]

/-- Nor does joining. -/
theorem not_mem_joinedLine {texts : List (List Char)} (h : ∀ a ∈ texts, '\x00' ∉ a) :
    '\x00' ∉ joinedLine texts := by
  cases texts with
  | nil => exact List.not_mem_nil
  | cons a texts =>
    rw [List.forall_mem_cons] at h
    rw [joinedLine_cons, List.mem_append, List.mem_flatMap]
    rintro (ha | ⟨b, hb, hmem⟩)
    · exact h.1 ha
    · rcases List.mem_cons.1 hmem with hnull | hmem
      · revert hnull
        decide
      · exact h.2 b hb hmem

/-- The name of the interpreter is a word that the shell takes for the command. -/
theorem commandWord_python3 : CommandWord "python3".toList := by decide

/-- **What is run is what was asked for**, for texts without null characters: for `runInCurrentEnv`
just if there is no single quote in the script path and in an argument; for `runPythonScript` just
if, besides, the path of the interpreter is a command word as it is; for `runProcess` just if each
argument is a word as it is, and the first one a command word. -/
theorem commands_exact_iff (venvPath scriptPath : List Char) (args argv : List (List Char))
    (hnull : ∀ a ∈ venvPath :: scriptPath :: (args ++ argv), '\x00' ∉ a) :
    (SimpleCommand (cString (runInCurrentEnv scriptPath args))
        ("python3".toList :: scriptPath :: args) ↔
      ∀ a ∈ scriptPath :: args, '\'' ∉ a) ∧
    (SimpleCommand (cString (runPythonScript venvPath scriptPath args))
        (getPythonPath venvPath :: scriptPath :: args) ↔
      CommandWord (getPythonPath venvPath) ∧ ∀ a ∈ scriptPath :: args, '\'' ∉ a) ∧
    (SimpleCommand (cString (runProcess argv)) argv ↔
      (∃ a ∈ argv.head?, CommandWord a) ∧ ∀ a ∈ argv, Bare a ∧ ¬ Expands (bareWord a)) := by
  rw [List.forall_mem_cons, List.forall_mem_cons, List.forall_mem_append] at hnull
  obtain ⟨hvenv, hscript, hargs, hargv⟩ := hnull
  have hquoted := not_mem_quotedLine (List.forall_mem_cons.2 ⟨hscript, hargs⟩)
  refine ⟨?_, ?_, ?_⟩
  · rw [runInCurrentEnv_eq, cString_eq, simpleCommand_quotedLine (List.cons_ne_nil _ _),
      and_iff_right commandWord_python3]
    rw [List.mem_append, not_or]
    exact ⟨by decide, hquoted⟩
  · rw [runPythonScript_eq, cString_eq, simpleCommand_quotedLine (List.cons_ne_nil _ _)]
    rw [List.mem_append, not_or, getPythonPath, List.mem_append, not_or]
    exact ⟨⟨hvenv, by decide⟩, hquoted⟩
  · rw [runProcess_eq, cString_eq (not_mem_joinedLine hargv), simpleCommand_joinedLine]

/-- Blanks, semicolons and dollar signs between single quotes, and a listing. -/
theorem commands_exact_plain :
    SimpleCommand (cString (runInCurrentEnv "a b.py".toList ["$HOME; ls".toList]))
        ["python3".toList, "a b.py".toList, "$HOME; ls".toList] ∧
      SimpleCommand (cString (runProcess ["ls".toList, "-l".toList]))
        ["ls".toList, "-l".toList] := by
  obtain ⟨hcurrent, -, hprocess⟩ := commands_exact_iff [] "a b.py".toList ["$HOME; ls".toList]
    ["ls".toList, "-l".toList] (by decide)
  exact ⟨hcurrent.2 (by decide), hprocess.2 ⟨⟨_, rfl, by decide⟩, by decide⟩⟩

/-- A file name with an apostrophe, one that brings in another command, and an argument with a blank
in it. -/
theorem commands_not_exact :
    ¬ SimpleCommand (cString (runInCurrentEnv "it's.py".toList []))
        ["python3".toList, "it's.py".toList] ∧
      ¬ SimpleCommand (cString (runPythonScript "/v".toList "a".toList ["'; reboot; '".toList]))
        [getPythonPath "/v".toList, "a".toList, "'; reboot; '".toList] ∧
      ¬ SimpleCommand (cString (runProcess ["cat".toList, "my file".toList]))
        ["cat".toList, "my file".toList] := by
  refine ⟨?_, ?_, ?_⟩ <;> rintro ⟨first, rest, hwords, hkept, -⟩
  · -- the third quote is left open
    have hopen : words .bare none (cString (runInCurrentEnv "it's.py".toList [])) = none := by
      decide
    rw [hopen] at hwords
    cases hwords
  · have hoperator : words .bare none (cString (runPythonScript "/v".toList "a".toList
        ["'; reboot; '".toList])) = none := by decide
    rw [hoperator] at hwords
    cases hwords
  · have hthree : (words .bare none (cString (runProcess ["cat".toList, "my file".toList]))).map
        (·.map kept) = some ["cat".toList, "my".toList, "file".toList] := by decide
    rw [hwords, Option.map_some, hkept] at hthree
    revert hthree
    decide

end MyScript
