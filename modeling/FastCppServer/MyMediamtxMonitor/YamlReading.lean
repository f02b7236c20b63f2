import FastCppServer.MyMediamtxMonitor.JsonToYaml

/-!
# What the YAML of a configuration says

`fields_inj` reads an object back from its lines, where the keys and strings in it are taken for
nothing else (`Plain`) and no array comes to nothing (`Shaped`).
-/

namespace MyMediamtxMonitor

open MyData

/-! ## Line by line -/

/-- What stands behind the key. -/
def valueToYaml (d : FloatDump) (indent : Nat) : Json → Text
  | .object fields => ':' :: '\n' :: fieldsToYaml d (indent + 1) fields
  | .array items => ':' :: '\n' :: itemsToYaml d indent items
  | .string s => ':' :: ' ' :: '"' :: (s.toList ++ ['"', '\n'])
  | v => ':' :: ' ' :: (fieldScalar d v ++ ['\n'])

/-- What stands behind the margin of an element. -/
def itemToYaml (d : FloatDump) (indent : Nat) : Json → Text
  | .object fields => '-' :: '\n' :: fieldsToYaml d (indent + 2) fields
  | .array _ => ['-', '\n']
  | v => '-' :: ' ' :: (dump d v ++ ['\n'])

/-- A level further in is two spaces more. -/
theorem pad_succ (n : Nat) : pad (n + 1) = pad n ++ [' ', ' '] := by
  rw [pad, pad, Nat.add_mul, List.replicate_add]
  rfl

/-- A mapping is written field by field: the indent, the key, what the value comes to, and the
fields behind it. -/
theorem fieldsToYaml_cons (d : FloatDump) (n : Nat) (key : String) (v : Json)
    (rest : List (String × Json)) :
    fieldsToYaml d n ((key, v) :: rest) =
      pad n ++ (key.toList ++ (valueToYaml d n v ++ fieldsToYaml d n rest)) := by
  cases v <;> simp [fieldsToYaml, Json.isObject, valueToYaml, jsonToYaml, fieldScalar]

/-- A sequence is written element by element, each a level further in than the key of the
sequence. -/
theorem itemsToYaml_cons (d : FloatDump) (n : Nat) (e : Json) (rest : List Json) :
    itemsToYaml d n (e :: rest) = pad (n + 1) ++ (itemToYaml d n e ++ itemsToYaml d n rest) := by
  cases e <;> simp [itemsToYaml, pad_succ, Json.isObject, isArray, itemToYaml, jsonToYaml]

/-- The first line of a field: the key, a colon, and something. -/
theorem valueToYaml_line (d : FloatDump) (n : Nat) (v : Json) (t : Text) :
    ∃ y u, '\n' ∉ y ∧ valueToYaml d n v ++ t = ':' :: (y ++ '\n' :: u) := by
  have hline : ∃ w, '\n' ∈ w ∧ valueToYaml d n v ++ t = ':' :: w := by
    cases v <;> exact ⟨_, by simp, rfl⟩
  obtain ⟨w, hw, hv⟩ := hline
  obtain ⟨y, u, hy, rfl⟩ := Scan.exists_find hw
  exact ⟨y, u, hy, hv⟩

/-! ## What can be read back -/

/-- A key that is taken for nothing else: one line, no beginning of a string in it, no margin and
no element at its beginning. -/
def PlainKey (key : String) : Prop :=
  '\n' ∉ key.toList ∧ ¬ [':', ' ', '"'] <:+: key.toList ∧ ¬ [' ', ' '] <+: key.toList ∧
    ¬ ['-', ' ', '"'] <+: key.toList

instance (key : String) : Decidable (PlainKey key) :=
  inferInstanceAs (Decidable (_ ∧ _ ∧ _ ∧ _))

mutual

/-- No array is empty, and none is an element of an array. -/
def Shaped : Json → Prop
  | .object fields => ShapedFields fields
  | .array items => items ≠ [] ∧ ShapedItems items
  | _ => True

/-- The fields of a mapping have the shape that the writer expects. -/
def ShapedFields : List (String × Json) → Prop
  | [] => True
  | (_, v) :: rest => Shaped v ∧ ShapedFields rest

/-- The elements of a sequence have the shape that the writer expects. -/
def ShapedItems : List Json → Prop
  | [] => True
  | e :: rest => isArray e = false ∧ Shaped e ∧ ShapedItems rest

end

mutual

/-- The keys are plain, no string that is a field ends before its end, and no number is infinite
or NaN. -/
def Plain : Json → Prop
  | .object fields => PlainFields fields
  | .array items => PlainItems items
  | .string s => ¬ ['"', '\n'] <:+: s.toList
  | .float bits => Finite bits
  | _ => True

/-- The fields of a mapping are plain. -/
def PlainFields : List (String × Json) → Prop
  | [] => True
  | (key, v) :: rest => PlainKey key ∧ Plain v ∧ PlainFields rest

/-- The elements of a sequence are plain. -/
def PlainItems : List Json → Prop
  | [] => True
  | e :: rest => ((∃ s, e = .string s) ∨ Plain e) ∧ PlainItems rest

end

/-! ## Where a block ends -/

/-- The text does not go on at this margin. -/
def Ends (n : Nat) (t : Text) : Prop := t = [] ∨ ¬ pad n <+: t

/-- What ends a block ends the blocks inside it as well. -/
theorem Ends.succ {n : Nat} {t : Text} (h : Ends n t) : Ends (n + 1) t := by
  refine h.imp_right fun h hpad => h ?_
  rw [pad_succ] at hpad
  exact (List.prefix_append _ _).trans hpad

/-- No key begins with a margin. -/
theorem ends_of_key {key : String} (hkey : PlainKey key) (d : FloatDump) (n : Nat) (v : Json)
    (t : Text) : Ends (n + 1) (pad n ++ (key.toList ++ (valueToYaml d n v ++ t))) := by
  right
  intro h
  obtain ⟨y, u, -, hline⟩ := valueToYaml_line d n v t
  rw [pad_succ, List.prefix_append_right_inj, hline] at h
  exact hkey.2.2.1 (Scan.prefix_of_append_cons (by decide) h)

/-- The text behind the fields of a mapping ends each of the blocks in them. -/
theorem ends_fields {fields : List (String × Json)} (h : PlainFields fields) (d : FloatDump)
    {n : Nat} {t : Text} (ht : Ends n t) : Ends (n + 1) (fieldsToYaml d n fields ++ t) := by
  cases fields with
  | nil => exact ht.succ
  | cons field rest =>
    obtain ⟨key, v⟩ := field
    rw [fieldsToYaml_cons, List.append_assoc, List.append_assoc, List.append_assoc]
    exact ends_of_key h.1 d n v _

/-- A block does not end where a field of it begins: there the indent goes on. -/
theorem not_ends_field {d : FloatDump} {n : Nat} (field : String × Json)
    (rest : List (String × Json)) (t : Text) :
    ¬ Ends n (fieldsToYaml d n (field :: rest) ++ t) := by
  obtain ⟨key, v⟩ := field
  rw [fieldsToYaml_cons, List.append_assoc]
  rintro (h | h)
  · obtain ⟨y, u, -, hline⟩ := valueToYaml_line d n v (fieldsToYaml d n rest ++ t)
    have hnil := (List.append_eq_nil_iff.1 h).2
    rw [List.append_assoc, List.append_assoc, hline] at hnil
    cases (List.append_eq_nil_iff.1 hnil).2
  · exact h (List.prefix_append _ _)

/-- An element begins with its dash. -/
theorem itemToYaml_head (d : FloatDump) (n : Nat) (e : Json) :
    ∃ l, itemToYaml d n e = '-' :: l := by
  cases e <;> exact ⟨_, rfl⟩

/-- The text behind the elements of a sequence ends each of the blocks in them. -/
theorem ends_items (items : List Json) (d : FloatDump) {n : Nat} {t : Text}
    (ht : Ends (n + 1) t) : Ends (n + 2) (itemsToYaml d n items ++ t) := by
  cases items with
  | nil => exact ht.succ
  | cons e rest =>
    right
    intro h
    obtain ⟨l, hl⟩ := itemToYaml_head d n e
    rw [itemsToYaml_cons, List.append_assoc, List.append_assoc, pad_succ (n + 1),
      List.prefix_append_right_inj, hl] at h
    obtain ⟨hc, -⟩ := List.cons_prefix_cons.1 h
    cases hc

/-- A sequence does not end where an element of it begins. -/
theorem not_ends_item {d : FloatDump} {n : Nat} (e : Json) (rest : List Json) (t : Text) :
    ¬ Ends (n + 1) (itemsToYaml d n (e :: rest) ++ t) := by
  rw [itemsToYaml_cons, List.append_assoc]
  rintro (h | h)
  · obtain ⟨l, hl⟩ := itemToYaml_head d n e
    rw [hl] at h
    cases (List.append_eq_nil_iff.1 (List.append_eq_nil_iff.1 h).2).1
  · exact h (List.prefix_append _ _)

/-! ## One line -/

/-- What begins a string. -/
def opening : Text := [':', ' ', '"']

section
variable {k k' w x : Text}

/-- The line of a key whose value is a block is not the line of a key with a scalar: the first one
ends behind the colon. -/
theorem block_ne_scalar (hw : ':' ∉ w) : k ++ [':'] ≠ k' ++ ':' :: ' ' :: w := by
  intro h
  have hrest := (Scan.cut_unique_last (by simp) (by simpa using hw) h).2
  cases hrest

/-- Nor is it the line of a key with a string, since there is no quote behind a colon in a plain
key. -/
theorem block_ne_string (hk : ¬ opening <:+: k) : k ++ [':'] ≠ k' ++ (opening ++ x) := by
  intro h
  rcases List.eq_nil_or_concat x with rfl | ⟨y, c, rfl⟩
  · have hlast : k ++ [':'] = (k' ++ [':', ' ']) ++ ['"'] := by
      rw [h]
      simp [opening]
    have hc := List.append_inj_right' hlast rfl
    cases hc
  · have hlast : k ++ [':'] = (k' ++ opening ++ y) ++ [c] := by
      rw [h]
      simp
    exact hk (List.append_inj_left' hlast rfl ▸ List.infix_append k' opening y)

/-- A scalar and a string differ in what stands behind the colon, because a scalar has no quote in
it. -/
theorem scalar_ne_string (hk : ¬ opening <:+: k) (hw : '"' ∉ w) :
    k ++ ':' :: ' ' :: w ≠ k' ++ (opening ++ x) := by
  intro h
  rw [← List.append_assoc] at h
  rcases List.append_eq_append_iff.1 h with ⟨c, hc, htext⟩ | ⟨c, rfl, -⟩
  · rcases List.eq_nil_or_concat c with rfl | ⟨y, q, rfl⟩
    · rw [List.append_nil] at hc
      exact hk (hc ▸ (List.suffix_append k' opening).isInfix)
    · -- the quote would stand in the scalar
      rw [List.concat_eq_append] at hc htext
      have hlast : (k' ++ [':', ' ']) ++ ['"'] = (k ++ y) ++ [q] := by
        rw [List.append_assoc k y, ← hc]
        simp [opening]
      obtain rfl : '"' = q := (List.cons.inj (List.append_inj_right' hlast rfl)).1
      have hmem : '"' ∈ ':' :: ' ' :: w := by
        rw [htext]
        simp
      simp [hw] at hmem
  · exact hk (List.infix_append k' opening c)

end

/-! ## What is read back -/

section
variable (d : FloatDump)

/-- The fields are read back, up to where the block ends. -/
def FieldsInj (fields : List (String × Json)) : Prop :=
  ∀ {n fields' t t'}, ShapedFields fields → PlainFields fields → ShapedFields fields' →
    PlainFields fields' → Ends n t → Ends n t' →
    fieldsToYaml d n fields ++ t = fieldsToYaml d n fields' ++ t' → fields = fields' ∧ t = t'

/-- The elements are read back, up to where the block ends. -/
def ItemsInj (items : List Json) : Prop :=
  ∀ {n items' t t'}, ShapedItems items → PlainItems items → ShapedItems items' →
    PlainItems items' → Ends (n + 1) t → Ends (n + 1) t' →
    itemsToYaml d n items ++ t = itemsToYaml d n items' ++ t' → items = items' ∧ t = t'

/-- The content of a container is read back. -/
def ContentInj : Json → Prop
  | .object fields => FieldsInj d fields
  | .array items => ItemsInj d items
  | _ => True

/-- A container. -/
abbrev IsBlock (v : Json) : Prop := (v.isObject || isArray v) = true

/-- What is written for a container, without its head. -/
def content (n : Nat) : Json → Text
  | .object fields => fieldsToYaml d (n + 1) fields
  | .array items => itemsToYaml d n items
  | _ => []

end

section
variable {d : FloatDump} {n : Nat} {t t' : Text}

/-- A plain value is a block, a string or a scalar, and these are written in three ways. -/
theorem plain_cases {v : Json} (h : Plain v) :
    IsBlock v ∨ (∃ s, v = .string s) ∨ IsScalar v := by
  cases v with
  | null => exact .inr (.inr (.inr (by simp [words])))
  | boolean b => exact .inr (.inr (.inr (by cases b <;> simp [words])))
  | integer n => exact .inr (.inr (.inl trivial))
  | float bits => exact .inr (.inr (.inl h))
  | string s => exact .inr (.inl ⟨s, rfl⟩)
  | array items => exact .inl rfl
  | object fields => exact .inl rfl

/-- A block goes on the lines behind its key. -/
theorem valueToYaml_block {v : Json} (h : IsBlock v) :
    valueToYaml d n v = ':' :: '\n' :: content d n v := by
  cases v with
  | object _ | array _ => rfl
  | null | boolean _ | integer _ | float _ | string _ => cases h

/-- A scalar goes on the line of its key. -/
theorem valueToYaml_scalar {v : Json} (h : IsScalar v) :
    valueToYaml d n v = ':' :: ' ' :: (fieldScalar d v ++ ['\n']) := by
  cases v with
  | null | boolean _ | integer _ | float _ => rfl
  | string _ | array _ | object _ => simp [IsScalar, IsNumber, words] at h

/-- An element is an object or stands behind the dash. -/
theorem item_cases {e : Json} (hshaped : isArray e = false)
    (hplain : (∃ s, e = .string s) ∨ Plain e) : (∃ fields, e = .object fields) ∨ IsElement e := by
  rcases hplain with hstring | hplain
  · exact .inr (.inr hstring)
  · cases e with
    | object fields => exact .inl ⟨fields, rfl⟩
    | array _ => cases hshaped
    | null | boolean _ | integer _ | float _ | string _ =>
      rcases plain_cases hplain with h | h | h
      · cases h
      · exact .inr (.inr h)
      · exact .inr (.inl h)

/-- An element that is no block goes on the line of its dash. -/
theorem itemToYaml_element {e : Json} (h : IsElement e) :
    itemToYaml d n e = '-' :: ' ' :: (dump d e ++ ['\n']) := by
  cases e with
  | null | boolean _ | integer _ | float _ | string _ => rfl
  | array _ | object _ => simp [IsElement, IsScalar, IsNumber, words] at h

/-- **No object looks like an array**: a field is no element. -/
theorem fields_ne_items {fields : List (String × Json)} {items : List Json}
    (hfields : PlainFields fields) (hne : items ≠ []) (hshaped : ShapedItems items)
    (hitems : PlainItems items) (ht : Ends (n + 1) t) :
    fieldsToYaml d (n + 1) fields ++ t ≠ itemsToYaml d n items ++ t' := by
  intro h
  obtain ⟨e, rest, rfl⟩ := List.exists_cons_of_ne_nil hne
  cases fields with
  | nil =>
    -- the block would go on
    obtain rfl : t = itemsToYaml d n (e :: rest) ++ t' := h
    exact not_ends_item e rest t' ht
  | cons field tail =>
    obtain ⟨key, v⟩ := field
    simp only [fieldsToYaml_cons, itemsToYaml_cons, List.append_assoc] at h
    have h := List.append_cancel_left h
    obtain ⟨y, u, hy, hline⟩ := valueToYaml_line d (n + 1) v (fieldsToYaml d (n + 1) tail ++ t)
    obtain ⟨hnl, -, -, hdash⟩ := hfields.1
    rw [hline, ← List.cons_append, ← List.append_assoc] at h
    have hfield : '\n' ∉ key.toList ++ ':' :: y := by simp [hnl, hy]
    -- the two lines
    have hcut : ∀ w r, '\n' ∉ w →
        itemToYaml d n e ++ (itemsToYaml d n rest ++ t') = w ++ '\n' :: r →
        key.toList ++ ':' :: y = w := by
      intro w r hw hitem
      exact (Scan.cut_unique hfield hw (h.trans hitem)).1
    have hcolon : ':' ∈ key.toList ++ ':' :: y := List.mem_append_right _ List.mem_cons_self
    rcases item_cases hshaped.1 hitems.1 with ⟨inner, rfl⟩ | helem
    · rw [hcut ['-'] (fieldsToYaml d (n + 2) inner ++ (itemsToYaml d n rest ++ t')) (by decide) rfl]
        at hcolon
      revert hcolon
      decide
    · have hline := hcut ('-' :: ' ' :: dump d e) (itemsToYaml d n rest ++ t')
        (by simpa using newline_notMem_dump helem) (by rw [itemToYaml_element helem]; simp)
      rcases helem with hscalar | ⟨s, rfl⟩
      · rw [hline] at hcolon
        have hclean := ((writes_dump d).clean hscalar).1
        simp [hclean] at hcolon
      · refine hdash (Scan.prefix_of_append_cons (c := ':') (r := y) (by decide) ?_)
        rw [hline]
        exact ⟨_, rfl⟩

/-- **A container by its content.** -/
theorem content_inj {v v' : Json} (hcontent : ContentInj d v) (hv : IsBlock v)
    (hv' : IsBlock v') (hshaped : Shaped v) (hshaped' : Shaped v')
    (hplain : Plain v) (hplain' : Plain v') (ht : Ends (n + 1) t) (ht' : Ends (n + 1) t')
    (h : content d n v ++ t = content d n v' ++ t') : v = v' ∧ t = t' := by
  cases v with
  | object fields =>
    cases v' with
    | object fields' =>
      obtain ⟨rfl, rfl⟩ := hcontent hshaped hplain hshaped' hplain' ht ht' h
      exact ⟨rfl, rfl⟩
    | array items' => exact absurd h (fields_ne_items hplain hshaped'.1 hshaped'.2 hplain' ht)
    | null | boolean _ | integer _ | float _ | string _ => cases hv'
  | array items =>
    cases v' with
    | object fields' =>
      exact absurd h.symm (fields_ne_items hplain' hshaped.1 hshaped.2 hplain ht')
    | array items' =>
      obtain ⟨rfl, rfl⟩ := hcontent hshaped.2 hplain hshaped'.2 hplain' ht ht' h
      exact ⟨rfl, rfl⟩
    | null | boolean _ | integer _ | float _ | string _ => cases hv'
  | null | boolean _ | integer _ | float _ | string _ => cases hv

/-- The first lines of one text are the same. -/
theorem line_inj {k k' w w' r r' : Text} (hk : '\n' ∉ k) (hk' : '\n' ∉ k') (hw : '\n' ∉ w)
    (hw' : '\n' ∉ w') (h : k ++ (w ++ '\n' :: r) = k' ++ (w' ++ '\n' :: r')) :
    k ++ w = k' ++ w' ∧ r = r' := by
  rw [← List.append_assoc, ← List.append_assoc] at h
  exact Scan.cut_unique (by simp [hk, hw]) (by simp [hk', hw']) h

/-- A scalar has no line break in it, so the line ends where the value does. -/
theorem newline_notMem_scalar {v : Json} (hv : IsScalar v) :
    '\n' ∉ ':' :: ' ' :: fieldScalar d v := by
  simpa using ((writes_fieldScalar d).clean hv).2.2

/-- The first line of a field that is a container. -/
theorem block_line {v : Json} (hv : IsBlock v) (t : Text) :
    valueToYaml d n v ++ t = [':'] ++ '\n' :: (content d n v ++ t) := by
  rw [valueToYaml_block hv]
  rfl

/-- The first line of a field that is a number or a word. -/
theorem scalar_line {v : Json} (hv : IsScalar v) (t : Text) :
    valueToYaml d n v ++ t = (':' :: ' ' :: fieldScalar d v) ++ '\n' :: t := by
  rw [valueToYaml_scalar hv]
  simp

/-- A string is written between quotes as it is, without an escape. -/
theorem valueToYaml_string (s : String) (t : Text) : valueToYaml d n (.string s) ++ t =
    opening ++ (s.toList ++ (['"', '\n'] ++ t)) := by
  simp [valueToYaml, opening]

/-- The first line of a field that is a string. -/
theorem string_line (s : String) (t : Text) : ∃ x u, '\n' ∉ opening ++ x ∧
    valueToYaml d n (.string s) ++ t = (opening ++ x) ++ '\n' :: u := by
  obtain ⟨x, u, hx, hcut⟩ := Scan.exists_find (c := '\n') (l := s.toList ++ (['"', '\n'] ++ t))
    (by simp)
  refine ⟨x, u, by simpa [opening] using hx, ?_⟩
  rw [valueToYaml_string, hcut, List.append_assoc]

/-! ### Fields of different kinds -/

section
variable {key key' : String} {v v' : Json} {s : String}

/-- The text of a block under a key is not that of a scalar under a key, whatever stands behind
them. -/
theorem block_field_ne_scalar (hkey : PlainKey key) (hkey' : PlainKey key')
    (hv : IsBlock v) (hv' : IsScalar v') :
    key.toList ++ (valueToYaml d n v ++ t) ≠ key'.toList ++ (valueToYaml d n v' ++ t') := by
  intro h
  rw [block_line hv, scalar_line hv'] at h
  obtain ⟨hline, -⟩ := line_inj hkey.1 hkey'.1 (by decide) (newline_notMem_scalar hv') h
  exact block_ne_scalar ((writes_fieldScalar d).clean hv').1 hline

/-- The text of a block under a key is not that of a string under a key. -/
theorem block_field_ne_string (hkey : PlainKey key) (hkey' : PlainKey key')
    (hv : IsBlock v) :
    key.toList ++ (valueToYaml d n v ++ t) ≠
      key'.toList ++ (valueToYaml d n (.string s) ++ t') := by
  intro h
  obtain ⟨x, u, hx, hstring⟩ := string_line (d := d) (n := n) s t'
  rw [block_line hv, hstring] at h
  obtain ⟨hline, -⟩ := line_inj hkey.1 hkey'.1 (by decide) hx h
  exact block_ne_string hkey.2.1 hline

/-- The text of a scalar under a key is not that of a string under a key. -/
theorem scalar_field_ne_string (hkey : PlainKey key) (hkey' : PlainKey key') (hv : IsScalar v) :
    key.toList ++ (valueToYaml d n v ++ t) ≠
      key'.toList ++ (valueToYaml d n (.string s) ++ t') := by
  intro h
  obtain ⟨x, u, hx, hstring⟩ := string_line (d := d) (n := n) s t'
  rw [scalar_line hv, hstring] at h
  obtain ⟨hline, -⟩ := line_inj hkey.1 hkey'.1 (newline_notMem_scalar hv) hx h
  exact scalar_ne_string hkey.2.1 ((writes_fieldScalar d).clean hv).2.1 hline

end

/-! ### Fields of the same kind -/

section
variable {key key' : String}

/-- A line with a block tells its key, and leaves the text of the block. -/
theorem block_field_inj {v v' : Json} (hkey : PlainKey key) (hkey' : PlainKey key')
    (hv : IsBlock v) (hv' : IsBlock v')
    (h : key.toList ++ (valueToYaml d n v ++ t) = key'.toList ++ (valueToYaml d n v' ++ t')) :
    key = key' ∧ content d n v ++ t = content d n v' ++ t' := by
  rw [block_line hv, block_line hv'] at h
  obtain ⟨hline, hrest⟩ := line_inj hkey.1 hkey'.1 (by decide) (by decide) h
  exact ⟨String.toList_inj.1 (List.append_cancel_right hline), hrest⟩

/-- A line with a scalar tells the key and the value, and leaves the rest of the text. -/
theorem scalar_field_inj {v v' : Json} (hkey : PlainKey key) (hkey' : PlainKey key')
    (hv : IsScalar v) (hv' : IsScalar v')
    (h : key.toList ++ (valueToYaml d n v ++ t) = key'.toList ++ (valueToYaml d n v' ++ t')) :
    key = key' ∧ v = v' ∧ t = t' := by
  have hclean : ∀ {v : Json}, IsScalar v → ':' ∉ ' ' :: fieldScalar d v := by
    intro v hv
    simpa using ((writes_fieldScalar d).clean hv).1
  rw [scalar_line hv, scalar_line hv'] at h
  obtain ⟨hline, hrest⟩ := line_inj hkey.1 hkey'.1 (newline_notMem_scalar hv)
    (newline_notMem_scalar hv') h
  -- no scalar has a colon
  obtain ⟨hkeys, htext⟩ := Scan.cut_unique_last (hclean hv) (hclean hv') hline
  exact ⟨String.toList_inj.1 hkeys,
    (writes_fieldScalar d).injective hv hv' (List.cons.inj htext).2, hrest⟩

/-- A line with a string tells the key and the string, where no string has a quote before a line
break. -/
theorem string_field_inj {s s' : String} (hkey : PlainKey key) (hkey' : PlainKey key')
    (hs : ¬ ['"', '\n'] <:+: s.toList) (hs' : ¬ ['"', '\n'] <:+: s'.toList)
    (h : key.toList ++ (valueToYaml d n (.string s) ++ t) =
      key'.toList ++ (valueToYaml d n (.string s') ++ t')) :
    key = key' ∧ s = s' ∧ t = t' := by
  rw [valueToYaml_string, valueToYaml_string] at h
  obtain ⟨hkeys, hbehind⟩ := Scan.cut_sep_unique (by decide) hkey.2.1 hkey'.2.1 h
  obtain ⟨hstrings, hrest⟩ := Scan.cut_sep_unique (by decide) hs hs' hbehind
  exact ⟨String.toList_inj.1 hkeys, String.toList_inj.1 hstrings, hrest⟩

/-- **A field by its lines.** -/
theorem field_inj {v v' : Json} (hcontent : ContentInj d v) (hkey : PlainKey key)
    (hkey' : PlainKey key') (hshaped : Shaped v) (hshaped' : Shaped v') (hplain : Plain v)
    (hplain' : Plain v') (ht : Ends (n + 1) t) (ht' : Ends (n + 1) t')
    (h : key.toList ++ (valueToYaml d n v ++ t) = key'.toList ++ (valueToYaml d n v' ++ t')) :
    key = key' ∧ v = v' ∧ t = t' := by
  rcases plain_cases hplain with hv | ⟨s, rfl⟩ | hv
  · rcases plain_cases hplain' with hv' | ⟨s', rfl⟩ | hv'
    · obtain ⟨hkeys, hbehind⟩ := block_field_inj hkey hkey' hv hv' h
      exact ⟨hkeys, content_inj hcontent hv hv' hshaped hshaped' hplain hplain' ht ht' hbehind⟩
    · exact absurd h (block_field_ne_string hkey hkey' hv)
    · exact absurd h (block_field_ne_scalar hkey hkey' hv hv')
  · rcases plain_cases hplain' with hv' | ⟨s', rfl⟩ | hv'
    · exact absurd h.symm (block_field_ne_string hkey' hkey hv')
    · obtain ⟨hkeys, rfl, hrest⟩ := string_field_inj hkey hkey' hplain hplain' h
      exact ⟨hkeys, rfl, hrest⟩
    · exact absurd h.symm (scalar_field_ne_string hkey' hkey hv')
  · rcases plain_cases hplain' with hv' | ⟨s', rfl⟩ | hv'
    · exact absurd h.symm (block_field_ne_scalar hkey' hkey hv' hv)
    · exact absurd h (scalar_field_ne_string hkey hkey' hv)
    · exact scalar_field_inj hkey hkey' hv hv' h

end

/-- **An element by its lines.** -/
theorem item_inj {e e' : Json} (hcontent : ContentInj d e) (hno : isArray e = false)
    (hno' : isArray e' = false) (hshaped : Shaped e) (hshaped' : Shaped e')
    (hplain : (∃ s, e = .string s) ∨ Plain e) (hplain' : (∃ s, e' = .string s) ∨ Plain e')
    (ht : Ends (n + 2) t) (ht' : Ends (n + 2) t')
    (h : itemToYaml d n e ++ t = itemToYaml d n e' ++ t') : e = e' ∧ t = t' := by
  have hmixed : ∀ (fields : List (String × Json)) {e : Json} (t t' : Text), IsElement e →
      itemToYaml d n (.object fields) ++ t ≠ itemToYaml d n e ++ t' := by
    intro fields e t t' he h
    rw [itemToYaml_element he] at h
    cases (List.cons.inj (List.cons.inj h).2).1
  have hobject : ∀ {fields : List (String × Json)},
      ((∃ s, Json.object fields = .string s) ∨ Plain (.object fields)) → PlainFields fields := by
    rintro fields (⟨s, hs⟩ | h)
    · cases hs
    · exact h
  rcases item_cases hno hplain with ⟨fields, rfl⟩ | he
  · rcases item_cases hno' hplain' with ⟨fields', rfl⟩ | he'
    · obtain ⟨rfl, rfl⟩ := hcontent hshaped (hobject hplain) hshaped' (hobject hplain') ht ht'
        (List.cons.inj (List.cons.inj h).2).2
      exact ⟨rfl, rfl⟩
    · exact absurd h (hmixed fields t t' he')
  · rcases item_cases hno' hplain' with ⟨fields', rfl⟩ | he'
    · exact absurd h.symm (hmixed fields' t' t he)
    · rw [itemToYaml_element he, itemToYaml_element he'] at h
      obtain ⟨htext, hrest⟩ := Scan.cut_unique (newline_notMem_dump (d := d) he)
        (newline_notMem_dump he') (by simpa using h)
      exact ⟨dump_injective he he' htext, hrest⟩

/-! ### Blocks -/

/-- The text of no fields is read back as no fields, because a block does not end where a field
begins. -/
theorem fields_inj_nil : FieldsInj d [] := by
  intro n fields' t t' _ _ _ _ ht _ h
  cases fields' with
  | nil => exact ⟨rfl, h⟩
  | cons field' rest' =>
    obtain rfl : t = fieldsToYaml d n (field' :: rest') ++ t' := h
    exact absurd ht (not_ends_field field' rest' t')

/-- One field is read back from the front of a text, and then the others from the rest. -/
theorem fields_inj_cons {key : String} {v : Json} {rest : List (String × Json)}
    (hcontent : ContentInj d v) (hrest : FieldsInj d rest) : FieldsInj d ((key, v) :: rest) := by
  intro n fields' t t' hshaped hplain hshaped' hplain' ht ht' h
  cases fields' with
  | nil =>
    obtain rfl : t' = fieldsToYaml d n ((key, v) :: rest) ++ t := h.symm
    exact absurd ht' (not_ends_field (key, v) rest t)
  | cons field' rest' =>
    obtain ⟨key', v'⟩ := field'
    simp only [fieldsToYaml_cons, List.append_assoc] at h
    have hends := ends_fields hplain.2.2 d ht
    have hends' := ends_fields hplain'.2.2 d ht'
    obtain ⟨rfl, rfl, hbehind⟩ := field_inj hcontent hplain.1 hplain'.1 hshaped.1 hshaped'.1
      hplain.2.1 hplain'.2.1 hends hends' (List.append_cancel_left h)
    obtain ⟨rfl, rfl⟩ := hrest hshaped.2 hplain.2.2 hshaped'.2 hplain'.2.2 ht ht' hbehind
    exact ⟨rfl, rfl⟩

/-- The text of no elements is read back as no elements. -/
theorem items_inj_nil : ItemsInj d [] := by
  intro n items' t t' _ _ _ _ ht _ h
  cases items' with
  | nil => exact ⟨rfl, h⟩
  | cons e' rest' =>
    obtain rfl : t = itemsToYaml d n (e' :: rest') ++ t' := h
    exact absurd ht (not_ends_item e' rest' t')

/-- One element is read back from the front of a text, and then the others from the rest. -/
theorem items_inj_cons {e : Json} {rest : List Json} (hcontent : ContentInj d e)
    (hrest : ItemsInj d rest) : ItemsInj d (e :: rest) := by
  intro n items' t t' hshaped hplain hshaped' hplain' ht ht' h
  cases items' with
  | nil =>
    obtain rfl : t' = itemsToYaml d n (e :: rest) ++ t := h.symm
    exact absurd ht' (not_ends_item e rest t)
  | cons e' rest' =>
    simp only [itemsToYaml_cons, List.append_assoc] at h
    have hends := ends_items rest d ht
    have hends' := ends_items rest' d ht'
    obtain ⟨rfl, hbehind⟩ := item_inj hcontent hshaped.1 hshaped'.1 hshaped.2.1 hshaped'.2.1
      hplain.1 hplain'.1 hends hends' (List.append_cancel_left h)
    obtain ⟨rfl, rfl⟩ := hrest hshaped.2.2 hplain.2 hshaped'.2.2 hplain'.2 ht ht' hbehind
    exact ⟨rfl, rfl⟩

end

/-! ### Objects -/

mutual

/-- The fields of a mapping are read back. The induction goes with the value: a field's value is
smaller than the mapping. -/
theorem fields_inj (d : FloatDump) : ∀ fields, FieldsInj d fields
  | [] => fields_inj_nil
  | (_, v) :: rest => fields_inj_cons (content_read d v) (fields_inj d rest)

/-- The elements of a sequence are read back. -/
theorem items_inj (d : FloatDump) : ∀ items, ItemsInj d items
  | [] => items_inj_nil
  | e :: rest => items_inj_cons (content_read d e) (items_inj d rest)

/-- What is written for a plain value determines the value. -/
theorem content_read (d : FloatDump) : ∀ v, ContentInj d v
  | .object fields => fields_inj d fields
  | .array items => items_inj d items
  | .null | .boolean _ | .integer _ | .float _ | .string _ => trivial

end

/-- **An object by its text.** -/
theorem object_inj (d : FloatDump) {fields fields' : List (String × Json)} (n : Nat)
    (hshaped : ShapedFields fields) (hplain : PlainFields fields) (hshaped' : ShapedFields fields')
    (hplain' : PlainFields fields') (h : fieldsToYaml d n fields = fieldsToYaml d n fields') :
    fields = fields' :=
  (fields_inj d fields hshaped hplain hshaped' hplain' (.inl rfl) (.inl rfl)
    (congrArg (· ++ []) h)).1

-- what each condition on a key is for

example (d : FloatDump) : fieldsToYaml d 0 [("a: null\nb", .null)] =
    fieldsToYaml d 0 [("a", .null), ("b", .null)] := rfl

example (d : FloatDump) : fieldsToYaml d 0 [("a: \"b", .string "c")] =
    fieldsToYaml d 0 [("a", .string "b: \"c")] := rfl

example (d : FloatDump) : fieldsToYaml d 0 [("a", .object []), ("  b", .null)] =
    fieldsToYaml d 0 [("a", .object [("b", .null)])] := rfl

example (d : FloatDump) : fieldsToYaml d 0 [("a", .object [("- \"b", .string "\n  - \"c")])] =
    fieldsToYaml d 0 [("a", .array [.string "b: ", .string "c"])] := rfl

end MyMediamtxMonitor
