import Mathlib.Data.List.Basic
import Mathlib.Data.List.Perm.Basic
import Mathlib.Data.List.Perm.Subperm

/-!
# The words of a shell command

The token recognition and the quoting of the POSIX shell, as far as one simple command goes. `words`
cuts a text into words; there are none where the text is something else, be it for a control or
redirection operator, a newline, a comment or a quote that is not closed. A word keeps its quoting
characters, which quote removal (`kept`) takes away, and of each character how it is quoted, on
which the expansions depend (`Expands`). A backslash at the end of the text quotes nothing; the
rules leave open what it is, and there are no words here.

Nothing gets lost but blanks and line continuations (`words_perm`). A text that is to be a word
without a quoting character has ordinary characters only (`words_bare`, `bare_of_words`).
-/

namespace Shell

/-- How a character of a word stands. -/
inductive Kind where
  | bare
  | double
  | literal
  | quoting
  deriving DecidableEq

/-- A word, with how each of its characters stands. -/
abbrev Word := List (Char × Kind)

/-- The characters as they are written. -/
def raw (w : Word) : List Char := w.map (·.1)

/-- Quote removal. -/
def kept (w : Word) : List Char := raw (w.filter (·.2 ≠ .quoting))

/-- What it removes. -/
def removed (w : Word) : List Char := raw (w.filter (·.2 = .quoting))

/-- The characters that operators are made of. -/
def operators : List Char := ['|', '&', ';', '<', '>', '(', ')', '\n']

/-- The blanks. -/
def blanks : List Char := [' ', '\t']

/-- How the next character is read. -/
inductive Mode where
  | bare
  | escape
  | single
  | double
  | doubleEscape
  deriving DecidableEq

/-- A word goes on, or begins. -/
def add (cur : Option Word) (w : Word) : Option Word := some (cur.getD [] ++ w)

/-- The words of a text, the first of which may have begun. -/
def words : Mode → Option Word → List Char → Option (List Word)
  | .bare, cur, [] => some cur.toList
  | _, _, [] => none
  | .bare, cur, c :: text =>
    if c = '\\' then words .escape cur text
    else if c = '\'' then words .single (add cur [(c, .quoting)]) text
    else if c = '"' then words .double (add cur [(c, .quoting)]) text
    else if c ∈ operators then none
    else if c ∈ blanks then (words .bare none text).map (cur.toList ++ ·)
    else if c = '#' ∧ cur = none then none
    else words .bare (add cur [(c, .bare)]) text
  | .escape, cur, c :: text =>
    if c = '\n' then words .bare cur text
    else words .bare (add cur [('\\', .quoting), (c, .literal)]) text
  | .single, cur, c :: text =>
    if c = '\'' then words .bare (add cur [(c, .quoting)]) text
    else words .single (add cur [(c, .literal)]) text
  | .double, cur, c :: text =>
    if c = '"' then words .bare (add cur [(c, .quoting)]) text
    else if c = '\\' then words .doubleEscape cur text
    else words .double (add cur [(c, .double)]) text
  | .doubleEscape, cur, c :: text =>
    if c = '\n' then words .double cur text
    else if c ∈ ['$', '`', '"', '\\'] then
      words .double (add cur [('\\', .quoting), (c, .literal)]) text
    else words .double (add cur [('\\', .double), (c, .double)]) text

/-! ## What a word means -/

/-- A bracket expression may have a `!` at its beginning. -/
def afterBang : Word → Word
  | ('!', .bare) :: w => w
  | w => w

/-- The word, from some place on, is a bracket expression and what follows it. -/
def hasBracket : Word → Bool
  | [] => false
  | p :: w =>
    (p = ('[', .bare) && (']', .bare) ∈ (afterBang (w.takeWhile (·.1 ≠ '/'))).tail) || hasBracket w

/-- The word begins with a tilde prefix. -/
def hasTilde : Word → Bool
  | ('~', .bare) :: w => (w.takeWhile (· ≠ ('/', .bare))).all (·.2 = .bare)
  | _ => false

/-- A parameter, a command, a tilde or a pathname is expanded in the word. -/
def Expands (w : Word) : Prop :=
  (∃ p ∈ w, p.1 ∈ ['$', '`'] ∧ p.2 ∈ [Kind.bare, .double]) ∨
    (∃ p ∈ w, p.1 ∈ ['*', '?'] ∧ p.2 = .bare) ∨ hasBracket w = true ∨ hasTilde w = true

instance (w : Word) : Decidable (Expands w) :=
  inferInstanceAs (Decidable (_ ∨ _))

/-- The reserved words. -/
def reserved : List String :=
  ["!", "\x7b", "\x7d", "case", "do", "done", "elif", "else", "esac", "fi", "for", "if",
    "in", "then",
    "until", "while"]

/-- The word is a reserved word, if it is the first one. -/
def Reserved (w : Word) : Prop := (∀ p ∈ w, p.2 = .bare) ∧ String.ofList (raw w) ∈ reserved

instance (w : Word) : Decidable (Reserved w) :=
  inferInstanceAs (Decidable (_ ∧ _))

/-- A character of a name. -/
def isNameChar (c : Char) : Bool := c.isAlphanum || c = '_'

/-- The word is an assignment, if it is the first one: a name and an equals sign. -/
def Assigns (w : Word) : Prop :=
  let name := w.takeWhile fun p => p.2 = .bare && isNameChar p.1
  (∃ p ∈ name.head?, p.1.isDigit = false) ∧ (w.drop name.length).head? = some ('=', .bare)

instance (w : Word) : Decidable (Assigns w) :=
  inferInstanceAs (Decidable (_ ∧ _))

/-- **One simple command** with these words. -/
def SimpleCommand (text : List Char) (ws : List (List Char)) : Prop :=
  ∃ first rest, words .bare none text = some (first :: rest) ∧ (first :: rest).map kept = ws ∧
    ¬ Reserved first ∧ ¬ Assigns first ∧ ∀ w ∈ first :: rest, ¬ Expands w

/-! ## What gets lost -/

/-- Two words, as they are written. -/
@[simp] theorem raw_append (v w : Word) : raw (v ++ w) = raw v ++ raw w := List.map_append

/-- The backslash that has been read. -/
def pending : Mode → List Char
  | .escape | .doubleEscape => ['\\']
  | _ => []

/-- It separates words, or is part of a line continuation. -/
def Lost (c : Char) : Prop := c ∈ blanks ∨ c = '\\' ∨ c = '\n'

/-- What holds of the words of a text, of which some characters have been read. -/
def Accounted (chars : List Char) (ws : List Word) : Prop :=
  ∃ lost, chars.Perm (raw ws.flatten ++ lost) ∧ ws.length ≤ lost.length + 1 ∧ ∀ c ∈ lost, Lost c

/-- Characters that are lost add nothing to the words. -/
theorem Accounted.lose {pre chars text : List Char} {ws : List Word}
    (h : Accounted (pre ++ text) ws) (hlost : ∀ c ∈ chars, Lost c) :
    Accounted (pre ++ (chars ++ text)) ws := by
  obtain ⟨lost, hperm, hlen, hall⟩ := h
  refine ⟨chars ++ lost, ?_, ?_, fun c hc => (List.mem_append.1 hc).elim (hlost c) (hall c)⟩
  · calc
      List.Perm (pre ++ (chars ++ text)) (chars ++ (pre ++ text)) :=
        List.perm_append_comm_assoc ..
      List.Perm _ (chars ++ (raw ws.flatten ++ lost)) := hperm.append_left chars
      List.Perm _ (raw ws.flatten ++ (chars ++ lost)) := List.perm_append_comm_assoc ..
  · rw [List.length_append]
    omega

/-- A blank ends a word. -/
theorem Accounted.blank {cur : Option Word} {c : Char} {text : List Char} {ws : List Word}
    (h : Accounted text ws) (hc : c ∈ blanks) :
    Accounted (raw (cur.getD []) ++ c :: text) (cur.toList ++ ws) := by
  obtain ⟨lost, hperm, hlen, hall⟩ := h
  refine ⟨c :: lost, ?_, ?_, fun d hd => ?_⟩
  · have hflat : raw (cur.toList ++ ws).flatten = raw (cur.getD []) ++ raw ws.flatten := by
      cases cur <;> simp [raw]
    rw [hflat, List.append_assoc]
    refine List.Perm.append_left _ ?_
    exact (hperm.cons c).trans List.perm_middle.symm
  · have hcur : cur.toList.length ≤ 1 := by cases cur <;> simp
    rw [List.length_append, List.length_cons]
    omega
  · rcases List.mem_cons.1 hd with rfl | hd
    · exact .inl hc
    · exact hall d hd

/-- **Nothing gets lost** but blanks, of which there is one between two words at least, and line
continuations. -/
theorem words_perm {m : Mode} {cur : Option Word} {text : List Char} {ws : List Word}
    (h : words m cur text = some ws) :
    Accounted (raw (cur.getD []) ++ (pending m ++ text)) ws := by
  induction text generalizing m cur ws with
  | nil =>
    cases m <;> rw [words] at h
    case bare =>
      cases h
      refine ⟨[], ?_, ?_, fun c hc => absurd hc List.not_mem_nil⟩ <;> cases cur <;>
        simp [pending, raw]
    all_goals cases h
  | cons c text ih =>
    -- a character that the word takes up
    have htake : ∀ {m' : Mode} {w : Word}, words m' (add cur w) text = some ws →
        raw w ++ pending m' = pending m ++ [c] →
        Accounted (raw (cur.getD []) ++ (pending m ++ c :: text)) ws := by
      intro m' w h hw
      have hacc := ih h
      rw [add, Option.getD_some, raw_append, List.append_assoc, ← List.append_assoc (raw w), hw,
        List.append_assoc] at hacc
      exact hacc
    have hcontinue : ∀ c ∈ ['\\', '\n'], Lost c := by
      intro c hc
      rw [List.mem_cons, List.mem_singleton] at hc
      exact .inr hc
    cases m with
    | bare =>
      rw [words] at h
      split at h
      · next hc => exact hc ▸ ih h
      · split at h
        · exact htake h rfl
        · split at h
          · exact htake h rfl
          · split at h
            · cases h
            · split at h
              · next hblank =>
                obtain ⟨ws', hws', rfl⟩ := Option.map_eq_some_iff.1 h
                exact (ih hws').blank hblank
              · split at h
                · cases h
                · exact htake h rfl
    | escape =>
      rw [words] at h
      split at h
      · next hc =>
        have hlost : ∀ c' ∈ ['\\', c], Lost c' := hc ▸ hcontinue
        exact (ih h).lose hlost
      · exact htake h rfl
    | single =>
      rw [words] at h
      split at h <;> exact htake h rfl
    | double =>
      rw [words] at h
      split at h
      · exact htake h rfl
      · split at h
        · next hc => exact hc ▸ ih h
        · exact htake h rfl
    | doubleEscape =>
      rw [words] at h
      split at h
      · next hc =>
        have hlost : ∀ c' ∈ ['\\', c], Lost c' := hc ▸ hcontinue
        exact (ih h).lose hlost
      · split at h <;> exact htake h rfl

/-- The characters of a word are those kept and those removed. -/
theorem raw_perm (w : Word) : (raw w).Perm (kept w ++ removed w) := by
  have hfilter := List.filter_append_perm (fun p : Char × Kind => p.2 ≠ .quoting) w
  simp only [ne_eq, decide_not, Bool.not_not] at hfilter
  rw [kept, removed, ← raw_append]
  simpa [raw] using (hfilter.map (·.1)).symm

/-- Quote removal, word by word. -/
theorem kept_flatten (ws : List Word) : kept ws.flatten = (ws.map kept).flatten := by
  induction ws with
  | nil => rfl
  | cons w ws ih =>
    rw [List.flatten_cons, List.map_cons, List.flatten_cons, ← ih, kept, List.filter_append,
      raw_append]
    rfl

/-! ## Quoting characters -/

/-- A quoting character that is no single quote. -/
def Strong (w : Word) : Prop := ∃ p ∈ w, p.2 = .quoting ∧ p.1 ≠ '\''

/-- Only quoting characters quote, and a single quote that is kept is quoted by another one. -/
structure Quoted (m : Mode) (w : Word) : Prop where
  quoting : ∀ p ∈ w, p.2 = .quoting → p.1 ∈ ['\\', '\'', '"']
  strong : '\'' ∈ kept w → Strong w
  double : m = .double ∨ m = .doubleEscape → Strong w

/-- A strong quoting character stays in a longer word. -/
theorem Strong.left {v w : Word} (h : Strong v) : Strong (v ++ w) := by
  obtain ⟨p, hp, hstrong⟩ := h
  exact ⟨p, List.mem_append_left w hp, hstrong⟩

/-- A strong quoting character stays in a longer word. -/
theorem Strong.right {v w : Word} (h : Strong w) : Strong (v ++ w) := by
  obtain ⟨p, hp, hstrong⟩ := h
  exact ⟨p, List.mem_append_right v hp, hstrong⟩

/-- Quote removal, part by part. -/
theorem kept_append (v w : Word) : kept (v ++ w) = kept v ++ kept w := by
  rw [kept, List.filter_append, raw_append, kept, kept]

/-- Some characters more. -/
theorem Quoted.append {m m' : Mode} {v w : Word} (h : Quoted m v)
    (hquoting : ∀ p ∈ w, p.2 = .quoting → p.1 ∈ ['\\', '\'', '"'])
    (hkept : '\'' ∈ kept w → Strong (v ++ w))
    (hdouble : m' = .double ∨ m' = .doubleEscape → Strong (v ++ w)) : Quoted m' (v ++ w) where
  quoting p hp := (List.mem_append.1 hp).elim (h.quoting p) (hquoting p)
  strong hmem := by
    rw [kept_append, List.mem_append] at hmem
    exact hmem.elim (fun hv => (h.strong hv).left) hkept
  double := hdouble

/-- In words that have been read only quoting characters quote. -/
theorem quoted_words {m : Mode} {cur : Option Word} {text : List Char} {ws : List Word}
    (h : words m cur text = some ws) (hcur : Quoted m (cur.getD [])) :
    ∀ w ∈ ws, Quoted .bare w := by
  induction text generalizing m cur ws with
  | nil =>
    cases m <;> rw [words] at h
    case bare =>
      cases h
      intro w hw
      cases cur with
      | none => cases hw
      | some cur =>
        rw [List.mem_singleton.1 hw]
        exact hcur
    all_goals cases h
  | cons c text ih =>
    have hother : ∀ {d : Char} {k : Kind}, d ≠ '\'' → '\'' ∉ kept [(d, k)] := by
      intro d k hd hmem
      cases k <;> simp [kept, raw, Ne.symm hd] at hmem
    have hquote : ∀ d, d ≠ '\'' → ∀ w : Word, Strong ((d, .quoting) :: w) := fun d hd w =>
      ⟨_, List.mem_cons_self, rfl, hd⟩
    cases m with
    | bare =>
      rw [words] at h
      split at h
      · exact ih h ⟨hcur.quoting, hcur.strong, by simp⟩
      · split at h
        · next hc =>
          exact ih h (hcur.append (by simp [hc]) (by simp [kept, raw]) (by simp))
        · next hc =>
          split at h
          · next hc' =>
            subst hc'
            have hstrong := (hquote '"' hc []).right (v := cur.getD [])
            exact ih h (hcur.append (by simp) (fun _ => hstrong) (fun _ => hstrong))
          · split at h
            · cases h
            · split at h
              · obtain ⟨ws', hws', rfl⟩ := Option.map_eq_some_iff.1 h
                intro w hw
                rcases List.mem_append.1 hw with hw | hw
                · cases cur with
                  | none => cases hw
                  | some cur =>
                    rw [Option.toList_some, List.mem_singleton] at hw
                    rw [hw]
                    exact hcur
                · exact ih hws' ⟨by simp, by simp [kept, raw], by simp⟩ w hw
              · split at h
                · cases h
                · exact ih h (hcur.append (by simp) (fun hk => absurd hk (hother hc)) (by simp))
    | escape =>
      rw [words] at h
      split at h
      · exact ih h ⟨hcur.quoting, hcur.strong, by simp⟩
      · have hstrong := (hquote '\\' (by simp) [(c, .literal)]).right (v := cur.getD [])
        exact ih h (hcur.append (by simp) (fun _ => hstrong) (by simp))
    | single =>
      rw [words] at h
      split at h
      · next hc => exact ih h (hcur.append (by simp [hc]) (by simp [kept, raw]) (by simp))
      · next hc =>
        exact ih h (hcur.append (by simp) (fun hk => absurd hk (hother hc)) (by simp))
    | double =>
      have hstrong := hcur.double (.inl rfl)
      rw [words] at h
      split at h
      · next hc =>
        exact ih h (hcur.append (by simp [hc]) (fun _ => hstrong.left) (by simp))
      · split at h
        · exact ih h ⟨hcur.quoting, hcur.strong, fun _ => hstrong⟩
        · exact ih h (hcur.append (by simp) (fun _ => hstrong.left) (fun _ => hstrong.left))
    | doubleEscape =>
      have hstrong := hcur.double (.inr rfl)
      rw [words] at h
      split at h
      · exact ih h ⟨hcur.quoting, hcur.strong, fun _ => hstrong⟩
      · split at h
        · exact ih h (hcur.append (by simp) (fun _ => hstrong.left) (fun _ => hstrong.left))
        · exact ih h (hcur.append (by simp) (fun _ => hstrong.left) (fun _ => hstrong.left))

/-- **What is removed** are quoting characters, none of which is a blank. -/
theorem removed_quoting {text : List Char} {ws : List Word} (h : words .bare none text = some ws) :
    ∀ c ∈ removed ws.flatten, c ∈ ['\\', '\'', '"'] := by
  have hquoted := quoted_words h ⟨by simp, by simp [kept, raw], by simp⟩
  intro c hc
  obtain ⟨p, hp, rfl⟩ := List.mem_map.1 hc
  rw [List.mem_filter, decide_eq_true_eq] at hp
  obtain ⟨w, hw, hpw⟩ := List.mem_flatten.1 hp.1
  exact (hquoted w hw).quoting p hpw hp.2

/-- **A single quote is kept** only where another quoting character is removed. -/
theorem kept_quote {text : List Char} {ws : List Word} (h : words .bare none text = some ws)
    (hremoved : ∀ c ∈ removed ws.flatten, c = '\'') : ∀ w ∈ ws, '\'' ∉ kept w := by
  have hquoted := quoted_words h ⟨by simp, by simp [kept, raw], by simp⟩
  intro w hw hmem
  obtain ⟨p, hp, hquoting, hne⟩ := (hquoted w hw).strong hmem
  refine hne (hremoved p.1 (List.mem_map_of_mem (List.mem_filter.2 ⟨?_, ?_⟩)))
  · exact List.mem_flatten.2 ⟨w, hw, hp⟩
  · exact decide_eq_true hquoting

/-! ## Words without quoting characters -/

/-- A character that stands for itself, wherever in a word. -/
def Ordinary (c : Char) : Prop := c ∉ ['\\', '\'', '"'] ∧ c ∉ operators ∧ c ∉ blanks

instance (c : Char) : Decidable (Ordinary c) :=
  inferInstanceAs (Decidable (_ ∧ _))

/-- A text that is a word as it is. -/
structure Bare (a : List Char) : Prop where
  ne_nil : a ≠ []
  ordinary : ∀ c ∈ a, Ordinary c
  no_comment : a.head? ≠ some '#'

-- not by way of all characters
instance (a : List Char) : Decidable (Bare a) :=
  have : Decidable (∀ c ∈ a, Ordinary c) := List.decidableBAll Ordinary a
  decidable_of_iff (a ≠ [] ∧ (∀ c ∈ a, Ordinary c) ∧ a.head? ≠ some '#')
    ⟨fun h => ⟨h.1, h.2.1, h.2.2⟩, fun h => ⟨h.ne_nil, h.ordinary, h.no_comment⟩⟩

/-- A text without quotes, as a word. -/
def bareWord (a : List Char) : Word := a.map (·, .bare)

/-- A text between single quotes. -/
def quotedWord (a : List Char) : Word :=
  ('\'', .quoting) :: (a.map (·, .literal) ++ [('\'', .quoting)])

/-- Nothing is removed from a bare word. -/
@[simp] theorem kept_bareWord (a : List Char) : kept (bareWord a) = a := by
  simp [kept, raw, bareWord, List.filter_map, Function.comp_def]

/-- What is removed from a quoted word are its quotes. -/
@[simp] theorem kept_quotedWord (a : List Char) : kept (quotedWord a) = a := by
  simp [kept, raw, quotedWord, List.filter_map, Function.comp_def]

/-- Ordinary characters go into the word that has begun. -/
theorem words_ordinary {a text : List Char} {v : Word} (h : ∀ c ∈ a, Ordinary c) :
    words .bare (some v) (a ++ text) = words .bare (some (v ++ bareWord a)) text := by
  induction a generalizing v with
  | nil => simp [bareWord]
  | cons c a ih =>
    rw [List.forall_mem_cons] at h
    obtain ⟨⟨hquoting, hoperator, hblank⟩, ha⟩ := h
    rw [List.mem_cons, List.mem_cons, List.mem_singleton, not_or, not_or] at hquoting
    rw [List.cons_append, words, if_neg hquoting.1, if_neg hquoting.2.1, if_neg hquoting.2.2,
      if_neg hoperator, if_neg hblank, if_neg (by simp), add, Option.getD_some, ih ha]
    simp [bareWord]

/-- **A bare text is a word.** -/
theorem words_bare {a text : List Char} (h : Bare a) :
    words .bare none (a ++ text) = words .bare (some (bareWord a)) text := by
  obtain ⟨hne, hordinary, hcomment⟩ := h
  cases a with
  | nil => exact absurd rfl hne
  | cons c a =>
    rw [List.forall_mem_cons] at hordinary
    obtain ⟨⟨hquoting, hoperator, hblank⟩, ha⟩ := hordinary
    rw [List.mem_cons, List.mem_cons, List.mem_singleton, not_or, not_or] at hquoting
    have hc : ¬ (c = '#' ∧ (none : Option Word) = none) := fun hc => hcomment (by simp [hc.1])
    rw [List.cons_append, words, if_neg hquoting.1, if_neg hquoting.2.1, if_neg hquoting.2.2,
      if_neg hoperator, if_neg hblank, if_neg hc, add, words_ordinary ha]
    rfl

/-- **A text between single quotes** is taken as it is. -/
theorem words_quoted {cur : Option Word} {a text : List Char} (h : '\'' ∉ a) :
    words .bare cur ('\'' :: (a ++ '\'' :: text)) = words .bare (add cur (quotedWord a)) text := by
  have hinside : ∀ v : Word, words .single (some v) (a ++ '\'' :: text) =
      words .bare (some (v ++ (a.map (·, .literal) ++ [('\'', .quoting)]))) text := by
    clear cur
    induction a with
    | nil =>
      intro v
      rw [List.nil_append, words, if_pos rfl]
      rfl
    | cons c a ih =>
      intro v
      rw [List.mem_cons, not_or] at h
      rw [List.cons_append, words, if_neg (Ne.symm h.1), add, Option.getD_some, ih h.2]
      simp
  rw [words, if_neg (by decide), if_pos rfl, add, hinside, add, quotedWord, List.append_assoc]
  rfl

/-- A blank ends the word. -/
theorem words_blank {cur : Option Word} {text : List Char} :
    words .bare cur (' ' :: text) = (words .bare none text).map (cur.toList ++ ·) := by
  rw [words, if_neg (by decide), if_neg (by decide), if_neg (by decide), if_neg (by decide),
    if_pos (by decide)]

/-- The word that has begun is the beginning of the first one. -/
theorem words_cur {m : Mode} {cur : Word} {text : List Char} {ws : List Word}
    (h : words m (some cur) text = some ws) : ∃ w ws', ws = w :: ws' ∧ cur <+: w := by
  induction text generalizing m cur ws with
  | nil =>
    cases m <;> rw [words] at h
    case bare =>
      cases h
      exact ⟨cur, [], rfl, List.prefix_refl cur⟩
    all_goals cases h
  | cons c text ih =>
    have hadd : ∀ {m' : Mode} {v : Word}, words m' (add (some cur) v) text = some ws →
        ∃ w ws', ws = w :: ws' ∧ cur <+: w := by
      intro m' v h
      obtain ⟨w, ws', hws, hprefix⟩ := ih h
      exact ⟨w, ws', hws, (List.prefix_append cur v).trans hprefix⟩
    cases m with
    | bare =>
      rw [words] at h
      split at h
      · exact ih h
      · split at h
        · exact hadd h
        · split at h
          · exact hadd h
          · split at h
            · cases h
            · split at h
              · obtain ⟨ws', -, rfl⟩ := Option.map_eq_some_iff.1 h
                exact ⟨cur, ws', rfl, List.prefix_refl cur⟩
              · split at h
                · cases h
                · exact hadd h
    | escape =>
      rw [words] at h
      split at h
      · exact ih h
      · exact hadd h
    | single =>
      rw [words] at h
      split at h <;> exact hadd h
    | double =>
      rw [words] at h
      split at h
      · exact hadd h
      · split at h
        · exact ih h
        · exact hadd h
    | doubleEscape =>
      rw [words] at h
      split at h
      · exact ih h
      · split at h <;> exact hadd h

/-- No text has more words than it has room for. -/
theorem words_length {m : Mode} {cur : Option Word} {text : List Char} {ws : List Word}
    (h : words m cur text = some ws) :
    ws.flatten.length + ws.length ≤ (cur.getD []).length +
      ((pending m).length + text.length) + 1 := by
  obtain ⟨lost, hperm, hlen, -⟩ := words_perm h
  have htotal := hperm.length_eq
  simp only [List.length_append, raw, List.length_map] at htotal
  omega

/-- A word of bare characters, as far as it has come. -/
def begun (p : List Char) : Option Word := if p = [] then none else some (bareWord p)

/-- A word that has begun is as long as what has been read of it. -/
theorem begun_length (p : List Char) : ((begun p).getD []).length = p.length := by
  rw [begun]
  split
  · next hp => simp [hp]
  · simp [bareWord]

/-- A quoting character of a word is removed. -/
theorem mem_removed {ws : List Word} {w : Word} {p : Char × Kind} (hw : w ∈ ws) (hp : p ∈ w)
    (hquoting : p.2 = .quoting) : p.1 ∈ removed ws.flatten :=
  List.mem_map_of_mem (List.mem_filter.2 ⟨List.mem_flatten.2 ⟨w, hw, hp⟩, decide_eq_true hquoting⟩)

/-- A quoting character that comes to a word is removed from it. -/
theorem removed_of_add {m : Mode} {cur : Option Word} {c : Char} {v : Word} {text : List Char}
    {ws : List Word} (h : words m (add cur ((c, .quoting) :: v)) text = some ws) :
    c ∈ removed ws.flatten := by
  obtain ⟨w, ws', rfl, hprefix⟩ := words_cur h
  have hp : (c, Kind.quoting) ∈ w := hprefix.subset (List.mem_append_right _ List.mem_cons_self)
  exact mem_removed List.mem_cons_self hp rfl

/-- A blank comes after a word, if none is to be lost. -/
theorem of_blank {p : List Char} {text : List Char} {w : Word} {ws ws' : List Word}
    (h : words .bare none text = some ws') (heq : (begun p).toList ++ ws' = w :: ws)
    (htight : p.length + (text.length + 1) = (w :: ws).flatten.length + ws.length) :
    p ≠ [] ∧ w = bareWord p ∧ ws' = ws := by
  rw [begun] at heq
  split at heq
  · next hp =>
    -- before the first word
    subst hp heq
    have hlen := words_length h
    simp only [Option.getD_none, pending, List.length_nil, List.length_cons] at hlen htight
    omega
  · next hp =>
    rw [Option.toList_some, List.singleton_append, List.cons.injEq] at heq
    exact ⟨hp, heq.1.symm, heq.2⟩

/-- **A text that has to be a word is bare**, where nothing is lost but one blank between two words,
and only single quotes are removed. -/
theorem bare_of_words {p a tail : List Char} {w : Word} {ws : List Word}
    (h : words .bare (begun p) (a ++ tail) = some (w :: ws)) (hkept : kept w = p ++ a)
    (htight : (p ++ (a ++ tail)).length = (w :: ws).flatten.length + ws.length)
    (hremoved : ∀ c ∈ removed (w :: ws).flatten, c = '\'') (hquote : '\'' ∉ a)
    (htail : tail = [] ∨ ∃ t, tail = ' ' :: t) :
    p ++ a ≠ [] ∧ (∀ c ∈ a, Ordinary c) ∧ (p = [] → a.head? ≠ some '#') ∧
      w = bareWord (p ++ a) ∧
      (tail = [] ∧ ws = [] ∨ ∃ t, tail = ' ' :: t ∧ words .bare none t = some ws) := by
  simp only [List.length_append] at htight
  induction a generalizing p with
  | nil =>
    rw [List.nil_append] at h
    rw [List.length_nil, Nat.zero_add] at htight
    rw [List.append_nil]
    rcases htail with rfl | ⟨t, rfl⟩
    · rw [words, Option.some.injEq, begun] at h
      split at h
      · cases h
      · next hp =>
        cases h
        exact ⟨hp, fun c hc => absurd hc List.not_mem_nil, fun hp' => absurd hp' hp, rfl,
          .inl ⟨rfl, rfl⟩⟩
    · rw [words_blank] at h
      obtain ⟨ws', ht, heq⟩ := Option.map_eq_some_iff.1 h
      obtain ⟨hp, hw, rfl⟩ := of_blank ht heq htight
      exact ⟨hp, fun c hc => absurd hc List.not_mem_nil, fun hp' => absurd hp' hp, hw,
        .inr ⟨t, rfl, ht⟩⟩
  | cons c a ih =>
    rw [List.mem_cons, not_or] at hquote
    rw [List.length_cons] at htight
    rw [List.cons_append, words] at h
    split at h
    · next hc =>
      -- a backslash is removed, or lost
      cases hrest : a ++ tail with
      | nil =>
        rw [hrest] at h
        simp [words] at h
      | cons d text =>
        rw [hrest, words] at h
        split at h
        · have hlen := words_length h
          have htext := congrArg List.length hrest
          simp only [begun_length, pending, List.length_nil, List.length_cons,
            List.length_append] at hlen htext
          omega
        · exact absurd (hremoved _ (removed_of_add h)) (by decide)
    · next hbackslash =>
      split at h
      · next hc => exact absurd hc.symm hquote.1
      · next hsingle =>
        split at h
        · next hc => exact absurd (hremoved _ (removed_of_add h)) (hc ▸ by decide)
        · next hdouble =>
          split at h
          · cases h
          · next hoperator =>
            split at h
            · obtain ⟨ws', ht, heq⟩ := Option.map_eq_some_iff.1 h
              obtain ⟨-, rfl, -⟩ := of_blank ht heq (by rw [List.length_append]; omega)
              rw [kept_bareWord] at hkept
              exact absurd (congrArg List.length hkept) (by simp)
            · next hblank =>
              split at h
              · cases h
              · next hcomment =>
                have hbegun : add (begun p) [(c, .bare)] = begun (p ++ [c]) := by
                  have hne : begun (p ++ [c]) = some (bareWord (p ++ [c])) := if_neg (by simp)
                  rw [hne, begun]
                  split
                  · next hp => rw [hp]; rfl
                  · simp [add, bareWord]
                rw [hbegun] at h
                have hc : Ordinary c := ⟨by simp [hbackslash, hsingle, hdouble], hoperator, hblank⟩
                obtain ⟨-, hordinary, -, hw, hrest⟩ := ih h (by simpa using hkept) hquote.2
                  (by rw [List.length_append, List.length_singleton]; omega)
                rw [List.append_assoc, List.singleton_append] at hw
                refine ⟨by simp, List.forall_mem_cons.2 ⟨hc, hordinary⟩, fun hp => ?_, hw, hrest⟩
                rw [List.head?_cons]
                intro hhash
                exact hcomment ⟨Option.some.inj hhash, by rw [hp]; rfl⟩

/-! ## Lines that are put together -/

/-- A text that is the command word as it is. -/
structure CommandWord (a : List Char) : Prop extends Bare a where
  not_expands : ¬ Expands (bareWord a)
  not_reserved : ¬ Reserved (bareWord a)
  not_assigns : ¬ Assigns (bareWord a)

instance (a : List Char) : Decidable (CommandWord a) :=
  decidable_of_iff
    (Bare a ∧ ¬ Expands (bareWord a) ∧ ¬ Reserved (bareWord a) ∧ ¬ Assigns (bareWord a))
    ⟨fun h => ⟨h.1, h.2.1, h.2.2.1, h.2.2.2⟩,
      fun h => ⟨h.toBare, h.not_expands, h.not_reserved, h.not_assigns⟩⟩

/-- The blanks and quotes around the texts. -/
def quotedLine (texts : List (List Char)) : List Char :=
  texts.flatMap fun a => ' ' :: '\'' :: (a ++ ['\''])

/-- The texts with a blank between two of them. -/
def joinedLine : List (List Char) → List Char
  | [] => []
  | [a] => a
  | a :: b :: texts => a ++ ' ' :: joinedLine (b :: texts)

/-- A bracket expression begins with a bare bracket. -/
theorem hasBracket_of_not_mem {w : Word} (h : ('[', .bare) ∉ w) : hasBracket w = false := by
  induction w with
  | nil => rfl
  | cons p w ih =>
    rw [List.mem_cons, not_or] at h
    rw [hasBracket, ih h.2]
    simp [Ne.symm h.1]

/-- A tilde prefix begins with a bare tilde. -/
theorem hasTilde_of_not_mem {w : Word} (h : ('~', .bare) ∉ w) : hasTilde w = false := by
  unfold hasTilde
  split
  · simp at h
  · rfl

/-- Nothing is expanded in a word that is quoted all through. -/
theorem not_expands_of_quoted {w : Word} (h : ∀ p ∈ w, p.2 = .literal ∨ p.2 = .quoting) :
    ¬ Expands w := by
  have hbare : ∀ c, (c, Kind.bare) ∉ w := by
    intro c hc
    rcases h _ hc with hk | hk <;> cases hk
  rintro (⟨p, hp, -, hk⟩ | ⟨p, hp, -, hk⟩ | hw | hw)
  · rcases h p hp with hp | hp <;> simp [hp] at hk
  · rcases h p hp with hp | hp <;> simp [hp] at hk
  · rw [hasBracket_of_not_mem (hbare '[')] at hw
    cases hw
  · rw [hasTilde_of_not_mem (hbare '~')] at hw
    cases hw

/-- Nothing is expanded in a quoted word. -/
theorem not_expands_quotedWord (a : List Char) : ¬ Expands (quotedWord a) := by
  refine not_expands_of_quoted fun p hp => ?_
  simp only [quotedWord, List.mem_cons, List.mem_append, List.mem_map, List.not_mem_nil,
    or_false] at hp
  rcases hp with rfl | ⟨c, -, rfl⟩ | rfl
  · exact .inr rfl
  · exact .inl rfl
  · exact .inr rfl

/-- The characters that the expansions look for. -/
def expanded : List Char := ['$', '`', '*', '?', '[', '~']

/-- Nothing is expanded in a bare word without them. -/
theorem not_expands_bareWord {a : List Char} (h : ∀ c ∈ a, c ∉ expanded) :
    ¬ Expands (bareWord a) := by
  have hchar : ∀ p ∈ bareWord a, p.1 ∉ expanded := by
    intro p hp
    obtain ⟨c, hc, rfl⟩ := List.mem_map.1 hp
    exact h c hc
  have hbare : ∀ c ∈ expanded, (c, Kind.bare) ∉ bareWord a := fun c hc hmem => hchar _ hmem hc
  rintro (⟨p, hp, hexp, -⟩ | ⟨p, hp, hexp, -⟩ | hw | hw)
  · exact hchar p hp (List.mem_append_left ['*', '?', '[', '~'] hexp)
  · refine hchar p hp ?_
    rcases List.mem_pair.1 hexp with hc | hc <;> simp [hc, expanded]
  · rw [hasBracket_of_not_mem (hbare '[' (by simp [expanded]))] at hw
    cases hw
  · rw [hasTilde_of_not_mem (hbare '~' (by simp [expanded]))] at hw
    cases hw

/-- **Texts between single quotes are read as words**, if no single quote is in them. -/
theorem words_quotedLine {v : Word} {texts : List (List Char)} (h : ∀ a ∈ texts, '\'' ∉ a) :
    words .bare (some v) (quotedLine texts) = some (v :: texts.map quotedWord) := by
  induction texts generalizing v with
  | nil => rfl
  | cons a texts ih =>
    rw [List.forall_mem_cons] at h
    have hline : quotedLine (a :: texts) = ' ' :: '\'' :: (a ++ '\'' :: quotedLine texts) := by
      simp [quotedLine]
    rw [hline, words_blank, words_quoted h.1, add, Option.getD_none, List.nil_append, ih h.2]
    rfl

/-- **Bare texts with blanks between them are read as words.** -/
theorem words_joinedLine {texts : List (List Char)} (h : ∀ a ∈ texts, Bare a) :
    words .bare none (joinedLine texts) = some (texts.map bareWord) := by
  induction texts with
  | nil => rfl
  | cons a texts ih =>
    rw [List.forall_mem_cons] at h
    cases texts with
    | nil =>
      rw [joinedLine, ← List.append_nil a, words_bare h.1, words]
      simp
    | cons b texts =>
      rw [joinedLine, words_bare h.1, words_blank, ih h.2]
      rfl

/-- What is lost and removed is what comes between the texts. -/
theorem between_perm {text between : List Char} {texts : List (List Char)} {us : List Word}
    (h : words .bare none text = some us) (hkept : us.map kept = texts)
    (htext : text.Perm (texts.flatten ++ between)) :
    ∃ lost, between.Perm (removed us.flatten ++ lost) ∧ (∀ c ∈ lost, Lost c) ∧
      text.length = us.flatten.length + lost.length := by
  obtain ⟨lost, hperm, -, hall⟩ := words_perm h
  have hlen := hperm.length_eq
  simp only [Option.getD_none, pending, List.nil_append, List.length_append, raw, List.length_map,
    List.length_nil, Nat.zero_add] at hlen
  refine ⟨lost, ?_, hall, hlen⟩
  have hflat : kept us.flatten = texts.flatten := by rw [kept_flatten, hkept]
  refine (List.perm_append_left_iff texts.flatten).1 ?_
  calc
    List.Perm (texts.flatten ++ between) text := htext.symm
    List.Perm _ (raw us.flatten ++ lost) := by simpa [raw, pending] using hperm
    List.Perm _ (kept us.flatten ++ removed us.flatten ++ lost) := (raw_perm _).append_right lost
    List.Perm _ (texts.flatten ++ (removed us.flatten ++ lost)) := by
      rw [hflat, List.append_assoc]

/-- Of blanks and single quotes, the single quotes are removed and the blanks are lost. -/
theorem removed_of_between {text between lost : List Char} {us : List Word}
    (h : words .bare none text = some us) (hperm : between.Perm (removed us.flatten ++ lost))
    (hlost : ∀ c ∈ lost, Lost c) (hbetween : ∀ c ∈ between, c = ' ' ∨ c = '\'') :
    (∀ c ∈ removed us.flatten, c = '\'') ∧ lost.length = between.count ' ' := by
  have hblank : ' ' ∉ removed us.flatten := fun hmem => by
    simpa using removed_quoting h ' ' hmem
  refine ⟨fun c hc => ?_, ?_⟩
  · rcases hbetween c (hperm.mem_iff.2 (List.mem_append_left _ hc)) with rfl | hc'
    · exact absurd hc hblank
    · exact hc'
  · rw [hperm.count_eq, List.count_append, List.count_eq_zero_of_not_mem hblank, Nat.zero_add]
    refine (List.count_eq_length.2 fun c hc => ?_).symm
    rcases hbetween c (hperm.mem_iff.2 (List.mem_append_right _ hc)) with hc' | rfl
    · exact hc'.symm
    · exact absurd (hlost _ hc) (by unfold Lost; decide)

/-- The characters of a line of quoted texts. -/
theorem quotedLine_perm (texts : List (List Char)) : (quotedLine texts).Perm
    (texts.flatten ++ texts.flatMap fun _ => [' ', '\'', '\'']) := by
  induction texts with
  | nil => exact List.Perm.refl _
  | cons a texts ih =>
    rw [List.perm_iff_count] at ih ⊢
    intro c
    have hc := ih c
    simp only [quotedLine, List.flatMap_cons, List.flatten_cons, List.count_append, List.count_cons,
      List.count_nil] at hc ⊢
    omega

/-- There is a blank before each text. -/
theorem count_between (texts : List (List Char)) :
    (texts.flatMap fun _ => [' ', '\'', '\'']).count ' ' = texts.length := by
  induction texts with
  | nil => rfl
  | cons a texts ih =>
    rw [List.flatMap_cons, List.count_append, ih, List.length_cons, Nat.add_comm]
    rfl

/-- **A line of quoted texts** is one simple command with these words, just if no text has a single
quote in it, and the command word in front is one as it is. -/
theorem simpleCommand_quotedLine {name : List Char} {texts : List (List Char)} (hne : texts ≠ []) :
    SimpleCommand (name ++ quotedLine texts) (name :: texts) ↔
      CommandWord name ∧ ∀ a ∈ texts, '\'' ∉ a := by
  constructor
  · rintro ⟨first, rest, hwords, hkept, hreserved, hassigns, hexpands⟩
    obtain ⟨lost, hperm, hlost, hlen⟩ := between_perm hwords hkept
      (by rw [List.flatten_cons, List.append_assoc]; exact (quotedLine_perm texts).append_left name)
    obtain ⟨hremoved, hcount⟩ := removed_of_between hwords hperm hlost (by simp)
    have hquote := kept_quote hwords hremoved
    rw [List.map_cons, List.cons.injEq] at hkept
    rw [count_between, ← hkept.2, List.length_map] at hcount
    rw [hcount] at hlen
    obtain ⟨a, texts', rfl⟩ := List.exists_cons_of_ne_nil hne
    have hname := hquote first List.mem_cons_self
    rw [hkept.1] at hname
    obtain ⟨hne', hordinary, hcomment, rfl, -⟩ := bare_of_words (p := []) hwords hkept.1 hlen
      hremoved hname (.inr ⟨_, rfl⟩)
    refine ⟨⟨⟨hne', hordinary, hcomment rfl⟩, hexpands _ List.mem_cons_self, hreserved,
      hassigns⟩, ?_⟩
    intro b hb
    rw [← hkept.2] at hb
    obtain ⟨w, hw, rfl⟩ := List.mem_map.1 hb
    exact hquote w (List.mem_cons_of_mem _ hw)
  · rintro ⟨hname, hquote⟩
    refine ⟨bareWord name, texts.map quotedWord, ?_, ?_, hname.not_reserved, hname.not_assigns, ?_⟩
    · rw [words_bare hname.toBare, words_quotedLine hquote]
    · simp [Function.comp_def]
    · intro w hw
      rcases List.mem_cons.1 hw with rfl | hw
      · exact hname.not_expands
      · obtain ⟨a, -, rfl⟩ := List.mem_map.1 hw
        exact not_expands_quotedWord a

/-- The characters of a line of bare texts. -/
theorem joinedLine_perm (texts : List (List Char)) :
    (joinedLine texts).Perm (texts.flatten ++ List.replicate (texts.length - 1) ' ') := by
  induction texts with
  | nil => exact List.Perm.refl _
  | cons a texts ih =>
    cases texts with
    | nil => simp [joinedLine]
    | cons b texts =>
      rw [joinedLine, List.flatten_cons, List.append_assoc]
      refine List.Perm.append_left a ?_
      exact (ih.cons ' ').trans List.perm_middle.symm

/-- The texts of a line whose words have no quoting characters. -/
theorem bare_of_joinedLine {a : List Char} {texts : List (List Char)} {first : Word}
    {rest : List Word}
    (h : words .bare none (joinedLine (a :: texts)) = some (first :: rest))
    (hkept : (first :: rest).map kept = a :: texts)
    (htight : (joinedLine (a :: texts)).length = (first :: rest).flatten.length + rest.length)
    (hremoved : removed (first :: rest).flatten = []) :
    (∀ b ∈ a :: texts, Bare b) ∧ first :: rest = (a :: texts).map bareWord := by
  have hnone : ∀ c ∈ removed (first :: rest).flatten, c = '\'' := by
    rw [hremoved]
    exact fun c hc => absurd hc List.not_mem_nil
  have hquote := kept_quote h hnone first List.mem_cons_self
  rw [List.map_cons, List.cons.injEq] at hkept
  rw [hkept.1] at hquote
  induction texts generalizing a first rest with
  | nil =>
    rw [joinedLine, ← List.append_nil a] at h
    rw [joinedLine, ← List.append_nil a] at htight
    obtain ⟨hne, hordinary, hcomment, rfl, hend⟩ := bare_of_words (p := []) h hkept.1 htight hnone
      hquote (.inl rfl)
    have hrest : rest = [] := List.map_eq_nil_iff.1 hkept.2
    refine ⟨fun b hb => ?_, by rw [hrest]; rfl⟩
    rw [List.mem_singleton.1 hb]
    exact ⟨hne, hordinary, hcomment rfl⟩
  | cons b texts ih =>
    rw [joinedLine] at h htight
    obtain ⟨hne, hordinary, hcomment, rfl, hend⟩ := bare_of_words (p := []) h hkept.1 htight hnone
      hquote (.inr ⟨_, rfl⟩)
    rcases hend with ⟨hnil, -⟩ | ⟨t, ht, hrest⟩
    · cases hnil
    · obtain rfl := (List.cons.inj ht).2
      obtain ⟨r, rs, rfl⟩ := List.exists_cons_of_ne_nil (l := rest) fun hnil => by
        rw [hnil] at hkept
        cases hkept.2
      have hkept' := hkept.2
      rw [List.map_cons, List.cons.injEq] at hkept'
      have hremoved' : removed (r :: rs).flatten = [] := by
        rw [List.flatten_cons, removed, List.filter_append, raw_append, List.append_eq_nil_iff]
          at hremoved
        exact hremoved.2
      have hnone' : ∀ c ∈ removed (r :: rs).flatten, c = '\'' := by
        rw [hremoved']
        exact fun c hc => absurd hc List.not_mem_nil
      have hquote' := kept_quote hrest hnone' r List.mem_cons_self
      rw [hkept'.1] at hquote'
      have htight' : (joinedLine (b :: texts)).length = (r :: rs).flatten.length + rs.length := by
        rw [List.flatten_cons, List.length_append, List.length_append, List.length_cons,
          List.length_cons, bareWord, List.length_map, List.nil_append] at htight
        omega
      obtain ⟨hbare, hwords⟩ := ih hrest hkept' htight' hremoved' hnone' hquote'
      exact ⟨List.forall_mem_cons.2 ⟨⟨hne, hordinary, hcomment rfl⟩, hbare⟩, by rw [hwords]; rfl⟩

/-- **A line of joined texts** is one simple command with these words, just if each text is a word
as it is, and the first one the command word. -/
theorem simpleCommand_joinedLine {texts : List (List Char)} :
    SimpleCommand (joinedLine texts) texts ↔
      (∃ a ∈ texts.head?, CommandWord a) ∧ ∀ a ∈ texts, Bare a ∧ ¬ Expands (bareWord a) := by
  constructor
  · rintro ⟨first, rest, hwords, hkept, hreserved, hassigns, hexpands⟩
    obtain ⟨lost, hperm, hlost, hlen⟩ := between_perm hwords hkept (joinedLine_perm texts)
    have hblanks : ∀ c ∈ List.replicate (texts.length - 1) ' ', c = ' ' ∨ c = '\'' := fun c hc =>
      .inl (List.eq_of_mem_replicate hc)
    obtain ⟨hsingle, hcount⟩ := removed_of_between hwords hperm hlost hblanks
    have hremoved : removed (first :: rest).flatten = [] := by
      refine List.eq_nil_iff_forall_not_mem.2 fun c hc => ?_
      have hc' := List.eq_of_mem_replicate (hperm.mem_iff.2 (List.mem_append_left lost hc))
      rw [hsingle c hc] at hc'
      revert hc'
      decide
    cases texts with
    | nil => cases hkept
    | cons a texts =>
      have hlength := congrArg List.length hkept
      simp only [List.length_map, List.length_cons] at hlength
      rw [List.count_replicate_self, List.length_cons] at hcount
      obtain ⟨hbare, hwords'⟩ := bare_of_joinedLine hwords hkept (by omega) hremoved
      rw [hwords'] at hexpands
      rw [List.map_cons, List.cons.injEq] at hwords'
      rw [hwords'.1] at hreserved hassigns
      have hall : ∀ b ∈ a :: texts, Bare b ∧ ¬ Expands (bareWord b) := fun b hb =>
        ⟨hbare b hb, hexpands _ (List.mem_map_of_mem hb)⟩
      have ha := hall a List.mem_cons_self
      exact ⟨⟨a, rfl, ⟨ha.1, ha.2, hreserved, hassigns⟩⟩, hall⟩
  · rintro ⟨⟨a, ha, hcommand⟩, hall⟩
    cases texts with
    | nil => cases ha
    | cons b texts =>
      cases ha
      refine ⟨bareWord a, texts.map bareWord, ?_, ?_, hcommand.not_reserved,
        hcommand.not_assigns, ?_⟩
      · exact words_joinedLine fun b hb => (hall b hb).1
      · simp [Function.comp_def]
      · intro w hw
        obtain ⟨b, hb, rfl⟩ := List.mem_map.1 (show w ∈ (a :: texts).map bareWord from hw)
        exact (hall b hb).2

end Shell
