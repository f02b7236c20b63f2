import FastCppServer.Lib.Shell

/-!
# Simple commands with redirections

The token recognition of `Shell.words`, with the redirection operators besides. The lexer reads one
character at a time, and what it has read of the token in hand is part of its state: a word or an
operator, which is as long as it can be. Digits before an operator are the number of a file
descriptor. There are no tokens for a control operator, a here-document, and a line continuation
inside of an operator.

Up to the first operator the tokens are the words (`tokens_words`).
-/

namespace Shell

inductive Token where
  | word (w : Word)
  | ioNumber (digits : Word)
  | redirect (op : List Char)
  deriving DecidableEq

/-- The token in hand. -/
inductive Current where
  | word (cur : Option Word)
  | redirect (op : List Char)

def redirectOperators : List (List Char) :=
  [['<'], ['>'], ['>', '>'], ['<', '&'], ['>', '&'], ['<', '>'], ['>', '|']]

/-- The token ends. -/
def Current.toTokens : Current → List Token
  | .word cur => cur.toList.map .word
  | .redirect op => [.redirect op]

/-- The word ends at a redirection operator. -/
def beforeRedirect : Option Word → List Token
  | none => []
  | some w => if w.all fun p => p.2 = .bare && p.1.isDigit then [.ioNumber w] else [.word w]

/-- A character that is not quoted, while a word goes on, or may begin. -/
def wordStep (cur : Option Word) (c : Char) : Option (List Token × Mode × Current) :=
  if c = '\\' then some ([], .escape, .word cur)
  else if c = '\'' then some ([], .single, .word (add cur [(c, .quoting)]))
  else if c = '"' then some ([], .double, .word (add cur [(c, .quoting)]))
  else if c = '<' ∨ c = '>' then some (beforeRedirect cur, .bare, .redirect [c])
  else if c ∈ operators then none
  else if c ∈ blanks then some (cur.toList.map .word, .bare, .word none)
  else if c = '#' ∧ cur = none then none
  else some ([], .bare, .word (add cur [(c, .bare)]))

/-- A character after an operator. -/
def redirectStep (op : List Char) (c : Char) : Option (List Token × Mode × Current) :=
  if op ++ [c] ∈ redirectOperators then some ([], .bare, .redirect (op ++ [c]))
  else if c = '\\' ∨ op = ['<'] ∧ c = '<' then none
  else (wordStep none c).map fun (ts, next) => (.redirect op :: ts, next)

/-- One character: the tokens that end, and what comes next. -/
def lexStep : Mode → Current → Char → Option (List Token × Mode × Current)
  | .bare, .word cur, c => wordStep cur c
  | .bare, .redirect op, c => redirectStep op c
  | .escape, .word cur, c =>
    if c = '\n' then some ([], .bare, .word cur)
    else some ([], .bare, .word (add cur [('\\', .quoting), (c, .literal)]))
  | .single, .word cur, c =>
    if c = '\'' then some ([], .bare, .word (add cur [(c, .quoting)]))
    else some ([], .single, .word (add cur [(c, .literal)]))
  | .double, .word cur, c =>
    if c = '"' then some ([], .bare, .word (add cur [(c, .quoting)]))
    else if c = '\\' then some ([], .doubleEscape, .word cur)
    else some ([], .double, .word (add cur [(c, .double)]))
  | .doubleEscape, .word cur, c =>
    if c = '\n' then some ([], .double, .word cur)
    else if c ∈ ['$', '`', '"', '\\'] then
      some ([], .double, .word (add cur [('\\', .quoting), (c, .literal)]))
    else some ([], .double, .word (add cur [('\\', .double), (c, .double)]))
  | _, .redirect _, _ => none

/-- The tokens of a text, the first of which may have begun. -/
def tokens : Mode → Current → List Char → Option (List Token)
  | .bare, cur, [] => some cur.toTokens
  | _, _, [] => none
  | m, cur, c :: text =>
    (lexStep m cur c).bind fun (ts, m', cur') => (tokens m' cur' text).map (ts ++ ·)

structure Redirection where
  ioNumber : Option Word
  op : List Char
  target : Word

/-- The words and the redirections of a simple command. -/
def parse : List Token → Option (List Word × List Redirection)
  | [] => some ([], [])
  | .word w :: ts => (parse ts).map fun (ws, rs) => (w :: ws, rs)
  | .redirect op :: .word target :: ts =>
    (parse ts).map fun (ws, rs) => (ws, { ioNumber := none, op, target } :: rs)
  | .ioNumber n :: .redirect op :: .word target :: ts =>
    (parse ts).map fun (ws, rs) => (ws, { ioNumber := some n, op, target } :: rs)
  | _ => none

/-- What it says: the digits, if there are some, the operator and the text behind it. -/
def Redirection.written (r : Redirection) : Option (List Char) × List Char × List Char :=
  (r.ioNumber.map kept, r.op, kept r.target)

/-- **One simple command** with these words and redirections. -/
def RedirectedCommand (text : List Char) (ws : List (List Char))
    (rs : List (Option (List Char) × List Char × List Char)) : Prop :=
  ∃ ts first rest redirections, tokens .bare (.word none) text = some ts ∧
    parse ts = some (first :: rest, redirections) ∧ (first :: rest).map kept = ws ∧
    redirections.map Redirection.written = rs ∧ ¬ Reserved first ∧ ¬ Assigns first ∧
    (∀ w ∈ first :: rest, ¬ Expands w) ∧ ∀ r ∈ redirections, ¬ Expands r.target

/-! ## The words before the redirections -/

theorem tokens_cons {m m' : Mode} {cur cur' : Current} {c : Char} {ts : List Token}
    (h : lexStep m cur c = some (ts, m', cur')) (text : List Char) :
    tokens m cur (c :: text) = (tokens m' cur' text).map (ts ++ ·) := by
  cases m <;> rw [tokens, h] <;> rfl

/-- Where a character ends no token. -/
theorem tokens_next {m m' : Mode} {cur cur' : Current} {c : Char}
    (h : lexStep m cur c = some ([], m', cur')) (text : List Char) :
    tokens m cur (c :: text) = tokens m' cur' text := by
  rw [tokens_cons h]
  simp

/-- **The tokens of a text begin with the words** of what it begins with, where that ends at the end
of a word. -/
theorem tokens_words {m : Mode} {cur : Option Word} {text tail : List Char} {ws : List Word}
    {r : Option (List Token)} (h : words m cur text = some ws)
    (htail : ∀ cur : Option Word,
      tokens .bare (.word cur) tail = r.map (cur.toList.map Token.word ++ ·)) :
    tokens m (.word cur) (text ++ tail) = r.map (ws.map Token.word ++ ·) := by
  induction text generalizing m cur ws with
  | nil =>
    cases m <;> rw [words] at h
    case bare =>
      cases h
      exact htail cur
    all_goals cases h
  | cons c text ih =>
    rw [List.cons_append]
    cases m with
    | bare =>
      rw [words] at h
      split at h
      · next hc => rw [tokens_next (by rw [lexStep, wordStep, if_pos hc]), ih h]
      next hbackslash =>
      split at h
      · next hc =>
        rw [tokens_next (by rw [lexStep, wordStep, if_neg hbackslash, if_pos hc]), ih h]
      next hsingle =>
      split at h
      · next hc =>
        rw [tokens_next (by rw [lexStep, wordStep, if_neg hbackslash, if_neg hsingle, if_pos hc]),
          ih h]
      next hdouble =>
      split at h
      · cases h
      next hoperator =>
      have hredirect : ¬ (c = '<' ∨ c = '>') := by
        rintro (rfl | rfl) <;> simp [operators] at hoperator
      split at h
      · next hblank =>
        obtain ⟨ws', hws', rfl⟩ := Option.map_eq_some_iff.1 h
        have hstep : lexStep .bare (.word cur) c =
            some (cur.toList.map .word, .bare, .word none) := by
          rw [lexStep, wordStep, if_neg hbackslash, if_neg hsingle, if_neg hdouble,
            if_neg hredirect, if_neg hoperator, if_pos hblank]
        rw [tokens_cons hstep, ih hws', Option.map_map, List.map_append]
        simp [Function.comp_def]
      next hblank =>
      split at h
      · cases h
      next hcomment =>
        have hstep : lexStep .bare (.word cur) c =
            some ([], .bare, .word (add cur [(c, .bare)])) := by
          rw [lexStep, wordStep, if_neg hbackslash, if_neg hsingle, if_neg hdouble,
            if_neg hredirect, if_neg hoperator, if_neg hblank, if_neg hcomment]
        rw [tokens_next hstep, ih h]
    | escape =>
      rw [words] at h
      split at h
      · next hc => rw [tokens_next (by rw [lexStep, if_pos hc]), ih h]
      · next hc => rw [tokens_next (by rw [lexStep, if_neg hc]), ih h]
    | single =>
      rw [words] at h
      split at h
      · next hc => rw [tokens_next (by rw [lexStep, if_pos hc]), ih h]
      · next hc => rw [tokens_next (by rw [lexStep, if_neg hc]), ih h]
    | double =>
      rw [words] at h
      split at h
      · next hc => rw [tokens_next (by rw [lexStep, if_pos hc]), ih h]
      next hquote =>
      split at h
      · next hc => rw [tokens_next (by rw [lexStep, if_neg hquote, if_pos hc]), ih h]
      · next hc => rw [tokens_next (by rw [lexStep, if_neg hquote, if_neg hc]), ih h]
    | doubleEscape =>
      rw [words] at h
      split at h
      · next hc => rw [tokens_next (by rw [lexStep, if_pos hc]), ih h]
      next hnewline =>
      split at h
      · next hc => rw [tokens_next (by rw [lexStep, if_neg hnewline, if_pos hc]), ih h]
      · next hc => rw [tokens_next (by rw [lexStep, if_neg hnewline, if_neg hc]), ih h]

theorem parse_words (ws : List Word) (ts : List Token) :
    parse (ws.map .word ++ ts) = (parse ts).map fun (vs, rs) => (ws ++ vs, rs) := by
  induction ws with
  | nil => simp
  | cons w ws ih =>
    rw [List.map_cons, List.cons_append, parse, ih, Option.map_map]
    rfl

/-- **A simple command and redirections after it**, with a blank between. -/
theorem SimpleCommand.append {text tail : List Char} {ws : List (List Char)}
    {ts : List Token} {redirections : List Redirection} (h : SimpleCommand text ws)
    (htail : tokens .bare (.word none) tail = some ts) (hparse : parse ts = some ([], redirections))
    (hexpands : ∀ r ∈ redirections, ¬ Expands r.target) :
    RedirectedCommand (text ++ ' ' :: tail) ws (redirections.map Redirection.written) := by
  obtain ⟨first, rest, hwords, hkept, hreserved, hassigns, hws⟩ := h
  have hblank : ∀ cur : Option Word, tokens .bare (.word cur) (' ' :: tail) =
      (some ts).map (cur.toList.map Token.word ++ ·) := by
    intro cur
    have hstep : lexStep .bare (.word cur) ' ' =
        some (cur.toList.map .word, .bare, .word none) := by
      simp [lexStep, wordStep, operators, blanks]
    rw [tokens_cons hstep, htail]
  refine ⟨_, first, rest, redirections, tokens_words hwords hblank, ?_, hkept, rfl, hreserved,
    hassigns, hws, hexpands⟩
  rw [parse_words, hparse]
  simp

end Shell
