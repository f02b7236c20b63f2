import FastCppServer.MyMediamtxMonitor.YamlReading

/-!
# What the YAML of a configuration leaves out

An empty container comes to nothing, and so does an array that is an element of an array, whatever
is in it. `blanked e` puts `e` in their places; where `e` is an empty container itself, the text
remains. That is all that is lost of a configuration that is plain
(`fieldsToYaml_eq_iff`).
-/

namespace MyMediamtxMonitor

open MyData

/-- An empty container. -/
def IsEmpty (v : Json) : Prop := v = .object [] ∨ v = .array []

/-- Induction over a value, with a hypothesis for every element and every field. -/
@[elab_as_elim]
theorem recData {motive : Json → Prop} (v : Json)
    (hscalar : ∀ v, (v.isObject || isArray v) = false → motive v)
    (hempty : ∀ v, IsEmpty v → motive v)
    (harray : ∀ items, items ≠ [] → (∀ e ∈ items, motive e) → motive (.array items))
    (hobject : ∀ fields, fields ≠ [] → (∀ f ∈ fields, motive f.2) → motive (.object fields)) :
    motive v := by
  have harray' : ∀ items, (∀ e ∈ items, motive e) → motive (.array items) := by
    intro items ih
    by_cases hnil : items = []
    · exact hempty _ (.inr (congrArg Json.array hnil))
    · exact harray items hnil ih
  have hobject' : ∀ fields, (∀ f ∈ fields, motive f.2) → motive (.object fields) := by
    intro fields ih
    by_cases hnil : fields = []
    · exact hempty _ (.inl (congrArg Json.object hnil))
    · exact hobject fields hnil ih
  exact @Json.rec motive (fun items => ∀ e ∈ items, motive e)
    (fun fields => ∀ f ∈ fields, motive f.2) (fun f => motive f.2)
    (hscalar _ rfl) (fun _ => hscalar _ rfl) (fun _ => hscalar _ rfl) (fun _ => hscalar _ rfl)
    (fun _ => hscalar _ rfl) harray' hobject' (fun _ h => absurd h List.not_mem_nil)
    (fun _ _ he hitems => List.forall_mem_cons.2 ⟨he, hitems⟩)
    (fun _ h => absurd h List.not_mem_nil)
    (fun _ _ hf hfields => List.forall_mem_cons.2 ⟨hf, hfields⟩) (fun _ _ h => h) v

/-! ## What is left out -/

mutual

/-- No container is empty, and no array is an element of an array. -/
def Full : Json → Prop
  | .object fields => fields ≠ [] ∧ FullFields fields
  | .array items => items ≠ [] ∧ FullItems items
  | _ => True

/-- `Full` over the fields of an object. -/
def FullFields : List (String × Json) → Prop
  | [] => True
  | (_, v) :: rest => Full v ∧ FullFields rest

/-- `Full` over the items of an array. -/
def FullItems : List Json → Prop
  | [] => True
  | e :: rest => isArray e = false ∧ Full e ∧ FullItems rest

end

mutual

/-- The value with `e` for whatever comes to nothing. -/
def blanked (e : Json) : Json → Json
  | .object fields => if fields.isEmpty then e else .object (blankedFields e fields)
  | .array items => if items.isEmpty then e else .array (blankedItems e items)
  | v => v

/-- `blanked` over the fields of an object. -/
def blankedFields (e : Json) : List (String × Json) → List (String × Json)
  | [] => []
  | (key, v) :: rest => (key, blanked e v) :: blankedFields e rest

/-- `blanked` over the items of an array, where an array comes to nothing. -/
def blankedItems (e : Json) : List Json → List Json
  | [] => []
  | v :: rest => (if isArray v then e else blanked e v) :: blankedItems e rest

end

section
variable {d : FloatDump}

/-- `ShapedFields` for each field. -/
theorem shapedFields_iff (fields : List (String × Json)) :
    ShapedFields fields ↔ ∀ f ∈ fields, Shaped f.2 := by
  induction fields with
  | nil => simp [ShapedFields]
  | cons f rest ih => simp [ShapedFields, ih]

/-- `ShapedItems` for each item. -/
theorem shapedItems_iff (items : List Json) :
    ShapedItems items ↔ ∀ e ∈ items, isArray e = false ∧ Shaped e := by
  induction items with
  | nil => simp [ShapedItems]
  | cons e rest ih => simp [ShapedItems, ih, and_assoc]

/-- `PlainFields` for each field. -/
theorem plainFields_iff (fields : List (String × Json)) :
    PlainFields fields ↔ ∀ f ∈ fields, PlainKey f.1 ∧ Plain f.2 := by
  induction fields with
  | nil => simp [PlainFields]
  | cons f rest ih => simp [PlainFields, ih, and_assoc]

/-- `PlainItems` for each item. -/
theorem plainItems_iff (items : List Json) :
    PlainItems items ↔ ∀ e ∈ items, (∃ s, e = .string s) ∨ Plain e := by
  induction items with
  | nil => simp [PlainItems]
  | cons e rest ih => simp [PlainItems, ih]

/-- `FullFields` for each field. -/
theorem fullFields_iff (fields : List (String × Json)) :
    FullFields fields ↔ ∀ f ∈ fields, Full f.2 := by
  induction fields with
  | nil => simp [FullFields]
  | cons f rest ih => simp [FullFields, ih]

/-- `FullItems` for each item. -/
theorem fullItems_iff (items : List Json) :
    FullItems items ↔ ∀ e ∈ items, isArray e = false ∧ Full e := by
  induction items with
  | nil => simp [FullItems]
  | cons e rest ih => simp [FullItems, ih, and_assoc]

/-- `blankedFields`, field by field. -/
theorem blankedFields_eq_map (e : Json) (fields : List (String × Json)) :
    blankedFields e fields = fields.map fun f => (f.1, blanked e f.2) := by
  induction fields with
  | nil => rfl
  | cons f rest ih => simp [blankedFields, ih]

/-- `blankedItems`, item by item. -/
theorem blankedItems_eq_map (e : Json) (items : List Json) :
    blankedItems e items = items.map fun v => if isArray v then e else blanked e v := by
  induction items with
  | nil => rfl
  | cons v rest ih => simp [blankedItems, ih]

/-- The fields are printed one after the other. -/
theorem fieldsToYaml_eq_flatMap (n : Nat) (fields : List (String × Json)) :
    fieldsToYaml d n fields =
      fields.flatMap fun f => pad n ++ (f.1.toList ++ valueToYaml d n f.2) := by
  induction fields with
  | nil => rfl
  | cons f rest ih =>
    obtain ⟨key, v⟩ := f
    simp [fieldsToYaml_cons, ih]

/-- The items are printed one after the other. -/
theorem itemsToYaml_eq_flatMap (n : Nat) (items : List Json) :
    itemsToYaml d n items = items.flatMap fun e => pad (n + 1) ++ itemToYaml d n e := by
  induction items with
  | nil => rfl
  | cons e rest ih => simp [itemsToYaml_cons, ih]

/-! ## What is put in its place -/

/-- Nothing is blanked in a scalar. -/
theorem blanked_scalar {v : Json} (hv : (v.isObject || isArray v) = false) (e : Json) :
    blanked e v = v := by
  cases v with
  | null | boolean _ | integer _ | float _ | string _ => rfl
  | array _ | object _ => cases hv

/-- A scalar has no empty container. -/
theorem full_scalar {v : Json} (hv : (v.isObject || isArray v) = false) : Full v := by
  cases v with
  | null | boolean _ | integer _ | float _ | string _ => trivial
  | array _ | object _ => cases hv

/-- An empty container is blanked itself. -/
theorem blanked_empty {v : Json} (hv : IsEmpty v) (e : Json) : blanked e v = e := by
  rcases hv with rfl | rfl <;> rfl

/-- An empty container is not full. -/
theorem not_full_empty {v : Json} (hv : IsEmpty v) : ¬ Full v := by
  rcases hv with rfl | rfl <;> exact fun h => h.1 rfl

/-- An array that is not empty is blanked in its items. -/
theorem blanked_array {items : List Json} (h : items ≠ []) (e : Json) :
    blanked e (.array items) = .array (blankedItems e items) := by
  rw [blanked, List.isEmpty_eq_false_iff.2 h]
  rfl

/-- An object that is not empty is blanked in its fields. -/
theorem blanked_object {fields : List (String × Json)} (h : fields ≠ []) (e : Json) :
    blanked e (.object fields) = .object (blankedFields e fields) := by
  rw [blanked, List.isEmpty_eq_false_iff.2 h]
  rfl

/-- What becomes the same when it is blanked does so in each field. -/
theorem blankedFields_inj {a b : Json} {fields : List (String × Json)}
    (h : blankedFields a fields = blankedFields b fields) :
    ∀ f ∈ fields, blanked a f.2 = blanked b f.2 := by
  rw [blankedFields_eq_map, blankedFields_eq_map] at h
  exact fun f hf => (Prod.mk.inj (List.map_inj_left.1 h f hf)).2

/-- The shape of blanked fields, field by field. -/
theorem shapedFields_blanked_iff (e : Json) (fields : List (String × Json)) :
    ShapedFields (blankedFields e fields) ↔ ∀ f ∈ fields, Shaped (blanked e f.2) := by
  rw [blankedFields_eq_map, shapedFields_iff, List.forall_mem_map]

/-- Blanked fields are full if each of them is. -/
theorem fullFields_blanked_iff (e : Json) (fields : List (String × Json)) :
    FullFields (blankedFields e fields) ↔ ∀ f ∈ fields, Full (blanked e f.2) := by
  rw [blankedFields_eq_map, fullFields_iff, List.forall_mem_map]

/-- Plain fields stay plain, if what is in them does. -/
theorem plainFields_blanked {e : Json} {fields : List (String × Json)} (h : PlainFields fields)
    (hv : ∀ f ∈ fields, Plain f.2 → Plain (blanked e f.2)) :
    PlainFields (blankedFields e fields) := by
  rw [blankedFields_eq_map, plainFields_iff, List.forall_mem_map]
  intro f hf
  obtain ⟨hkey, hplain⟩ := (plainFields_iff fields).1 h f hf
  exact ⟨hkey, hv f hf hplain⟩

/-- Where no field changes nothing has changed. -/
theorem blankedFields_of_full {fields : List (String × Json)} {e : Json}
    (h : ∀ f ∈ fields, blanked e f.2 = f.2) : blankedFields e fields = fields := by
  have hmap : ∀ f ∈ fields, (f.1, blanked e f.2) = f := fun f hf => Prod.ext rfl (h f hf)
  rw [blankedFields_eq_map, (List.map_congr_left hmap).trans (List.map_id' fields)]

/-- Where nothing is left out, nothing is replaced. -/
theorem blanked_of_full {v : Json} (h : Full v) (e : Json) : blanked e v = v := by
  induction v using recData with
  | hscalar v hv => exact blanked_scalar hv e
  | hempty v hv => exact absurd h (not_full_empty hv)
  | harray items hnil ih =>
    have hitems := (fullItems_iff items).1 h.2
    have hmap : ∀ v ∈ items, (if isArray v then e else blanked e v) = v := by
      intro v hv
      rw [(hitems v hv).1]
      exact ih v hv (hitems v hv).2
    rw [blanked_array hnil, blankedItems_eq_map,
      (List.map_congr_left hmap).trans (List.map_id' items)]
  | hobject fields hnil ih =>
    have hfields := (fullFields_iff fields).1 h.2
    rw [blanked_object hnil, blankedFields_of_full fun f hf => ih f hf (hfields f hf)]

/-- What is replaced is left out. -/
theorem full_of_blanked_eq {a b v : Json} (hab : a ≠ b) (h : blanked a v = blanked b v) :
    Full v := by
  induction v using recData with
  | hscalar v hv => exact full_scalar hv
  | hempty v hv =>
    rw [blanked_empty hv, blanked_empty hv] at h
    exact absurd h hab
  | harray items hnil ih =>
    rw [blanked_array hnil, blanked_array hnil, blankedItems_eq_map, blankedItems_eq_map] at h
    refine ⟨hnil, (fullItems_iff items).2 fun v hv => ?_⟩
    have hv' := List.map_inj_left.1 (Json.array.inj h) v hv
    by_cases harr : isArray v = true
    · rw [if_pos harr, if_pos harr] at hv'
      exact absurd hv' hab
    · rw [if_neg harr, if_neg harr] at hv'
      exact ⟨by simpa using harr, ih v hv hv'⟩
  | hobject fields hnil ih =>
    rw [blanked_object hnil, blanked_object hnil] at h
    refine ⟨hnil, (fullFields_iff fields).2 fun f hf => ih f hf ?_⟩
    exact blankedFields_inj (Json.object.inj h) f hf

/-- With something hollow in place of what is left out, a value is full only if nothing is. -/
theorem full_of_full_blanked {e v : Json} (he : ¬ Full e) (h : Full (blanked e v)) : Full v := by
  induction v using recData with
  | hscalar v hv => exact full_scalar hv
  | hempty v hv =>
    rw [blanked_empty hv] at h
    exact absurd h he
  | harray items hnil ih =>
    rw [blanked_array hnil, blankedItems_eq_map] at h
    refine ⟨hnil, (fullItems_iff items).2 fun v hv => ?_⟩
    have hv' := ((fullItems_iff _).1 h.2 _ (List.mem_map_of_mem hv)).2
    by_cases harr : isArray v = true
    · rw [if_pos harr] at hv'
      exact absurd hv' he
    · rw [if_neg harr] at hv'
      exact ⟨by simpa using harr, ih v hv hv'⟩
  | hobject fields hnil ih =>
    rw [blanked_object hnil] at h
    refine ⟨hnil, (fullFields_iff fields).2 fun f hf => ih f hf ?_⟩
    exact (fullFields_blanked_iff e fields).1 h.2 f hf

/-- What is no array does not become one. -/
theorem isArray_blanked {e v : Json} (he : isArray e = false) (hv : isArray v = false) :
    isArray (blanked e v) = false := by
  cases v with
  | null | boolean _ | integer _ | float _ | string _ => rfl
  | array _ => cases hv
  | object fields =>
    by_cases hnil : fields = []
    · rwa [blanked_empty (.inl (congrArg Json.object hnil))]
    · rw [blanked_object hnil]
      rfl

/-- With an empty object for whatever comes to nothing, no array does. -/
theorem shaped_blanked (v : Json) : Shaped (blanked (.object []) v) := by
  induction v using recData with
  | hscalar v hv =>
    rw [blanked_scalar hv]
    cases v with
    | null | boolean _ | integer _ | float _ | string _ => trivial
    | array _ | object _ => cases hv
  | hempty v hv =>
    rw [blanked_empty hv]
    trivial
  | harray items hnil ih =>
    rw [blanked_array hnil, blankedItems_eq_map]
    refine ⟨by simpa using hnil, (shapedItems_iff _).2 fun v hv => ?_⟩
    obtain ⟨v, hmem, rfl⟩ := List.mem_map.1 hv
    split
    · exact ⟨rfl, trivial⟩
    · rename_i harr
      exact ⟨isArray_blanked rfl (by simpa using harr), ih v hmem⟩
  | hobject fields hnil ih =>
    rw [blanked_object hnil]
    exact (shapedFields_blanked_iff _ fields).2 ih

/-- A plain value stays plain. -/
theorem plain_blanked {e v : Json} (he : Plain e) (h : Plain v) : Plain (blanked e v) := by
  induction v using recData with
  | hscalar v hv => rwa [blanked_scalar hv]
  | hempty v hv => rwa [blanked_empty hv]
  | harray items hnil ih =>
    rw [blanked_array hnil, blankedItems_eq_map]
    refine (plainItems_iff _).2 fun v hv => ?_
    obtain ⟨v, hmem, rfl⟩ := List.mem_map.1 hv
    split
    · exact .inr he
    · rcases (plainItems_iff items).1 h v hmem with ⟨s, rfl⟩ | hplain
      · exact .inl ⟨s, rfl⟩
      · exact .inr (ih v hmem hplain)
  | hobject fields hnil ih =>
    rw [blanked_object hnil]
    exact plainFields_blanked h ih

/-- An empty container is printed as nothing. -/
theorem valueToYaml_empty {e : Json} (he : IsEmpty e) (n : Nat) :
    valueToYaml d n e = [':', '\n'] := by
  rcases he with rfl | rfl <;> rfl

/-- The fields remain, where their values do. -/
theorem fieldsToYaml_blanked {e : Json} {fields : List (String × Json)} {n : Nat}
    (h : ∀ f ∈ fields, valueToYaml d n (blanked e f.2) = valueToYaml d n f.2) :
    fieldsToYaml d n (blankedFields e fields) = fieldsToYaml d n fields := by
  rw [blankedFields_eq_map, fieldsToYaml_eq_flatMap, fieldsToYaml_eq_flatMap, List.flatMap_map]
  refine List.flatMap_congr fun f hf => ?_
  rw [h f hf]

/-- And so is one that is an item. -/
theorem itemToYaml_empty {e : Json} (he : IsEmpty e) (n : Nat) :
    itemToYaml d n e = ['-', '\n'] := by
  rcases he with rfl | rfl <;> rfl

/-- An element remains, where it would as a field. -/
theorem itemToYaml_blanked {e v : Json} (he : IsEmpty e) {n : Nat}
    (h : valueToYaml d (n + 1) (blanked e v) = valueToYaml d (n + 1) v) :
    itemToYaml d n (if isArray v then e else blanked e v) = itemToYaml d n v := by
  cases v with
  | null | boolean _ | integer _ | float _ | string _ => rfl
  | array items => exact itemToYaml_empty he n
  | object fields =>
    rw [show isArray (.object fields) = false from rfl, if_neg Bool.false_ne_true]
    by_cases hnil : fields = []
    · have hv : IsEmpty (.object fields) := .inl (congrArg Json.object hnil)
      rw [blanked_empty hv, itemToYaml_empty he, itemToYaml_empty hv]
    · rw [blanked_object hnil] at h ⊢
      exact congrArg ('-' :: ·) (List.cons.inj h).2

/-- **The text remains.** -/
theorem valueToYaml_blanked {e : Json} (he : IsEmpty e) (v : Json) (n : Nat) :
    valueToYaml d n (blanked e v) = valueToYaml d n v := by
  induction v using recData generalizing n with
  | hscalar v hv => rw [blanked_scalar hv]
  | hempty v hv => rw [blanked_empty hv, valueToYaml_empty he, valueToYaml_empty hv]
  | harray items hnil ih =>
    rw [blanked_array hnil, valueToYaml, valueToYaml, blankedItems_eq_map, itemsToYaml_eq_flatMap,
      itemsToYaml_eq_flatMap, List.flatMap_map]
    congr 2
    refine List.flatMap_congr fun v hv => ?_
    rw [itemToYaml_blanked he (ih v hv (n + 1))]
  | hobject fields hnil ih =>
    rw [blanked_object hnil, valueToYaml, valueToYaml,
      fieldsToYaml_blanked fun f hf => ih f hf (n + 1)]

/-! ## Leaves -/

mutual

/-- The scalars of a field, as they are printed. -/
def leaves (d : FloatDump) : Json → List Text
  | .object fields => fieldLeaves d fields
  | .array items => itemLeaves d items
  | .string s => [s.toList]
  | v => [fieldScalar d v]

/-- `leaves` over the fields of an object. -/
def fieldLeaves (d : FloatDump) : List (String × Json) → List Text
  | [] => []
  | (_, v) :: rest => leaves d v ++ fieldLeaves d rest

/-- `leaves` over the items of an array. -/
def itemLeaves (d : FloatDump) : List Json → List Text
  | [] => []
  | e :: rest =>
    (if e.isObject || isArray e then leaves d e else [dump d e]) ++ itemLeaves d rest

end

/-- The scalars of fields, field by field. -/
theorem fieldLeaves_eq_flatMap (fields : List (String × Json)) :
    fieldLeaves d fields = fields.flatMap fun f => leaves d f.2 := by
  induction fields with
  | nil => rfl
  | cons f rest ih => simp [fieldLeaves, ih]

/-- The scalars of items, item by item. -/
theorem itemLeaves_eq_flatMap (items : List Json) : itemLeaves d items =
    items.flatMap fun e => if e.isObject || isArray e then leaves d e else [dump d e] := by
  induction items with
  | nil => rfl
  | cons e rest ih => simp [itemLeaves, ih]

/-- The leaf of a scalar stands behind its key. -/
theorem leaf_scalar {v : Json} (hv : (v.isObject || isArray v) = false) (n : Nat) :
    ∀ leaf ∈ leaves d v, leaf <:+: valueToYaml d n v := by
  intro leaf hleaf
  cases v with
  | null | boolean _ | integer _ | float _ =>
    rw [List.mem_singleton.1 hleaf]
    exact List.infix_append [':', ' '] _ ['\n']
  | string s =>
    rw [List.mem_singleton.1 hleaf]
    exact List.infix_append [':', ' ', '"'] _ ['"', '\n']
  | array _ | object _ => cases hv

/-- The text of a field is part of the text of all fields. -/
theorem value_within {fields : List (String × Json)} {f : String × Json} (hf : f ∈ fields)
    (n : Nat) : valueToYaml d n f.2 <:+: fieldsToYaml d n fields := by
  have hline : pad n ++ (f.1.toList ++ valueToYaml d n f.2) <:+: fieldsToYaml d n fields := by
    rw [fieldsToYaml_eq_flatMap, List.flatMap_def]
    exact List.infix_of_mem_flatten (List.mem_map_of_mem hf)
  rw [← List.append_assoc] at hline
  exact (List.suffix_append _ _).isInfix.trans hline

/-- The text of an item is part of the text of all items. -/
theorem item_within {items : List Json} {e : Json} (he : e ∈ items) (n : Nat) :
    itemToYaml d n e <:+: itemsToYaml d n items := by
  have hline : pad (n + 1) ++ itemToYaml d n e <:+: itemsToYaml d n items := by
    rw [itemsToYaml_eq_flatMap, List.flatMap_def]
    exact List.infix_of_mem_flatten (List.mem_map_of_mem he)
  exact (List.suffix_append _ _).isInfix.trans hline

/-- The text of a block is part of the text of its value. -/
theorem content_within {v : Json} (hv : IsBlock v) (n : Nat) :
    content d n v <:+: valueToYaml d n v := by
  rw [valueToYaml_block hv]
  exact (List.suffix_append [':', '\n'] _).isInfix

/-- The scalars are in the text of the fields, if those of each block are in the text of the
block. -/
theorem fieldLeaves_within {fields : List (String × Json)} {n : Nat}
    (h : ∀ f ∈ fields, IsBlock f.2 →
      ∀ leaf ∈ leaves d f.2, leaf <:+: content d n f.2) :
    ∀ leaf ∈ fieldLeaves d fields, leaf <:+: fieldsToYaml d n fields := by
  intro leaf hleaf
  rw [fieldLeaves_eq_flatMap] at hleaf
  obtain ⟨f, hf, hleaf⟩ := List.mem_flatMap.1 hleaf
  have hvalue : leaf <:+: valueToYaml d n f.2 := by
    by_cases hv : IsBlock f.2
    · exact (h f hf hv leaf hleaf).trans (content_within hv n)
    · exact leaf_scalar (by simpa using hv) n leaf hleaf
  exact hvalue.trans (value_within hf n)

/-- **Every leaf is there**, where nothing is left out. -/
theorem leaves_within {v : Json} (hv : IsBlock v) (hfull : Full v) (n : Nat) :
    ∀ leaf ∈ leaves d v, leaf <:+: content d n v := by
  induction v using recData generalizing n with
  | hscalar v hno => exact absurd (hno.symm.trans hv) Bool.false_ne_true
  | hempty v hempty => exact absurd hfull (not_full_empty hempty)
  | harray items hnil ih =>
    intro leaf hleaf
    rw [leaves, itemLeaves_eq_flatMap] at hleaf
    obtain ⟨e, he, hleaf⟩ := List.mem_flatMap.1 hleaf
    obtain ⟨hno, hefull⟩ := (fullItems_iff items).1 hfull.2 e he
    refine List.IsInfix.trans ?_ (item_within he n)
    split at hleaf
    · rename_i hblock
      have hcontent := ih e he hblock hefull (n + 1) leaf hleaf
      cases e with
      | object fields => exact hcontent.trans (List.suffix_append ['-', '\n'] _).isInfix
      | array _ => cases hno
      | null | boolean _ | integer _ | float _ | string _ => cases hblock
    · rename_i hscalar
      rw [List.mem_singleton.1 hleaf]
      cases e with
      | null | boolean _ | integer _ | float _ | string _ =>
        exact List.infix_append ['-', ' '] _ ['\n']
      | array _ | object _ => exact absurd rfl hscalar
  | hobject fields hnil ih =>
    have hfields := (fullFields_iff fields).1 hfull.2
    exact fieldLeaves_within fun f hf hblock => ih f hf hblock (hfields f hf) (n + 1)

/-! ## What is left of an object -/

/-- **What is blanked cannot be told** from what has been there. -/
theorem jsonToYaml_blanked {e : Json} (he : IsEmpty e) (n : Nat) (fields : List (String × Json)) :
    jsonToYaml d n (.object (blankedFields e fields)) = jsonToYaml d n (.object fields) :=
  fieldsToYaml_blanked fun f _ => valueToYaml_blanked he f.2 n

/-- **Two objects that are plain have one text** if they are the same with empty objects for what
is left out. -/
theorem jsonToYaml_eq_iff {fields fields' : List (String × Json)} (hplain : PlainFields fields)
    (hplain' : PlainFields fields') (n : Nat) :
    jsonToYaml d n (.object fields) = jsonToYaml d n (.object fields') ↔
      blankedFields (.object []) fields = blankedFields (.object []) fields' := by
  have hempty : IsEmpty (.object []) := .inl rfl
  have hshaped : ∀ fields, ShapedFields (blankedFields (.object []) fields) := by
    intro fields
    exact (shapedFields_blanked_iff _ fields).2 fun f _ => shaped_blanked f.2
  have hplain : ∀ {fields}, PlainFields fields →
      PlainFields (blankedFields (.object []) fields) := by
    intro fields h
    exact plainFields_blanked h fun f _ => plain_blanked (e := .object []) trivial
  constructor
  · intro h
    rw [← jsonToYaml_blanked hempty n fields, ← jsonToYaml_blanked hempty n fields'] at h
    exact object_inj d n (hshaped fields) (hplain ‹_›) (hshaped fields') (hplain hplain') h
  · intro h
    rw [← jsonToYaml_blanked hempty n fields, h, jsonToYaml_blanked hempty]

/-- Where something is left out, something else could be. -/
theorem exists_blanked_ne {fields : List (String × Json)} (h : ¬ FullFields fields) :
    ∃ e, IsEmpty e ∧ fields ≠ blankedFields e fields := by
  by_contra hno
  have hsame : ∀ {e}, IsEmpty e → fields = blankedFields e fields := by
    intro e he
    by_contra hne
    exact hno ⟨e, he, hne⟩
  have hinj := blankedFields_inj ((hsame (.inl rfl)).symm.trans (hsame (.inr rfl)))
  have hne : Json.object [] ≠ .array [] := by
    intro h
    cases h
  exact h ((fullFields_iff fields).2 fun f hf => full_of_blanked_eq hne (hinj f hf))

/-- **An object that is full is no other object with something left out.** -/
theorem eq_of_blanked_eq {fields fields' : List (String × Json)} (hfull : FullFields fields)
    (h : blankedFields (.object []) fields = blankedFields (.object []) fields') :
    fields = fields' := by
  have hfixed : ∀ {fields}, FullFields fields → blankedFields (.object []) fields = fields := by
    intro fields hfull
    exact blankedFields_of_full fun f hf => blanked_of_full ((fullFields_iff fields).1 hfull f hf) _
  have hfull' : FullFields fields' := by
    rw [hfixed hfull] at h
    rw [h] at hfull
    refine (fullFields_iff fields').2 fun f hf => ?_
    exact full_of_full_blanked (not_full_empty (.inl rfl))
      ((fullFields_blanked_iff _ fields').1 hfull f hf)
  rw [hfixed hfull, hfixed hfull'] at h
  exact h

/-- **Every scalar of a full value is printed.** -/
theorem fieldLeaves_of_full {fields : List (String × Json)} (hfull : FullFields fields)
    (n : Nat) : ∀ leaf ∈ fieldLeaves d fields, leaf <:+: jsonToYaml d n (.object fields) := by
  refine fieldLeaves_within fun f hf hblock => ?_
  exact leaves_within hblock ((fullFields_iff fields).1 hfull f hf) n

/-- All fields but the last can be in the key of the last. -/
theorem exists_one_field {fields : List (String × Json)} (h : 2 ≤ fields.length) :
    ∃ field, fields ≠ [field] ∧
      jsonToYaml d 0 (.object fields) = jsonToYaml d 0 (.object [field]) := by
  rcases List.eq_nil_or_concat fields with rfl | ⟨init, ⟨key, v⟩, rfl⟩
  · cases h
  · refine ⟨(String.ofList (fieldsToYaml d 0 init ++ key.toList), v), ?_, ?_⟩
    · intro hone
      rw [hone] at h
      exact absurd h (Nat.not_succ_le_self 1)
    · rw [List.concat_eq_append, jsonToYaml, jsonToYaml, fieldsToYaml_eq_flatMap,
        List.flatMap_append, ← fieldsToYaml_eq_flatMap, ← fieldsToYaml_eq_flatMap,
        fieldsToYaml_cons, fieldsToYaml_cons, String.toList_ofList]
      simp [pad]

end

/-- **The text of an object that is plain**, among those of the others: two have the same text if
they differ in what is left out only. So exactly one in which nothing is left out has a text of
its own with every leaf in it. Among all objects only one of a single field can have. -/
theorem jsonToYaml_determines_iff (d : FloatDump) {fields : List (String × Json)}
    (hplain : PlainFields fields) :
    (∀ fields', PlainFields fields' →
      ((fields ≠ fields' → jsonToYaml d 0 (.object fields) ≠ jsonToYaml d 0 (.object fields')) ↔
        (blankedFields (.object []) fields = blankedFields (.object []) fields' →
          fields = fields'))) ∧
    (((∀ fields', PlainFields fields' → fields ≠ fields' →
          jsonToYaml d 0 (.object fields) ≠ jsonToYaml d 0 (.object fields')) ∧
        ∀ leaf ∈ fieldLeaves d fields, leaf <:+: jsonToYaml d 0 (.object fields)) ↔
      FullFields fields) ∧
    (2 ≤ fields.length → ∃ fields', fields ≠ fields' ∧
      jsonToYaml d 0 (.object fields) = jsonToYaml d 0 (.object fields')) := by
  refine ⟨fun fields' hplain' => ?_, ⟨fun h => ?_, fun hfull => ⟨?_, ?_⟩⟩, fun h => ?_⟩
  · rw [← jsonToYaml_eq_iff hplain hplain' 0]
    exact not_imp_not
  · by_contra hfull
    obtain ⟨e, he, hne⟩ := exists_blanked_ne hfull
    have hplain' : PlainFields (blankedFields e fields) := by
      refine plainFields_blanked hplain fun f _ => plain_blanked ?_
      rcases he with rfl | rfl <;> trivial
    exact h.1 _ hplain' hne (jsonToYaml_blanked he 0 fields).symm
  · intro fields' hplain' hne h
    exact hne (eq_of_blanked_eq hfull ((jsonToYaml_eq_iff hplain hplain' 0).1 h))
  · exact fieldLeaves_of_full hfull 0
  · obtain ⟨field, hfield⟩ := exists_one_field (d := d) h
    exact ⟨[field], hfield⟩

/-- The digits of the bits, and an exponent. -/
def bitsDump : FloatDump where
  dump bits :=
    if Finite bits then Nat.toDigits 10 bits.toNat ++ ['e', '0'] else ['n', 'u', 'l', 'l']
  dump_injective {a b} ha hb h := by
    rw [if_pos ha, if_pos hb] at h
    exact UInt64.toNat_inj.1 (toDigits_injective (List.append_cancel_right h))
  dump_chars {a} ha c hc := by
    rw [if_pos ha] at hc
    rcases List.mem_append.1 hc with hc | hc
    · exact .inl (Nat.isDigit_of_mem_toDigits (by decide) (by decide) hc)
    · rcases List.mem_cons.1 hc with rfl | hc
      · exact .inr (by decide)
      · rw [List.mem_singleton.1 hc]
        exact .inl (by decide)
  dump_mark {a} ha := by
    rw [if_pos ha]
    exact .inr (by simp)
  dump_null {a} ha := if_neg ha

/-- A configuration with one path is printed so that it can be told from all others. -/
theorem jsonToYaml_determines_iff_paths :
    (∀ fields', PlainFields fields' →
      [("paths", Json.object [("cam", .array [.integer 1])])] ≠ fields' →
        jsonToYaml bitsDump 0 (.object [("paths", .object [("cam", .array [.integer 1])])]) ≠
          jsonToYaml bitsDump 0 (.object fields')) ∧
      ∀ leaf ∈ fieldLeaves bitsDump [("paths", Json.object [("cam", .array [.integer 1])])],
        leaf <:+: jsonToYaml bitsDump 0
          (.object [("paths", .object [("cam", .array [.integer 1])])]) := by
  have hkeys : PlainKey "paths" ∧ PlainKey "cam" := by decide
  have hplain : PlainFields [("paths", Json.object [("cam", .array [.integer 1])])] :=
    ⟨hkeys.1, ⟨hkeys.2, ⟨.inr trivial, trivial⟩, trivial⟩, trivial⟩
  have hfull : FullFields [("paths", Json.object [("cam", .array [.integer 1])])] := by
    simp [FullFields, Full, FullItems, isArray]
  exact (jsonToYaml_determines_iff bitsDump hplain).2.1.2 hfull

/-- What a string says can be fields. -/
theorem not_determines : ¬ ∀ (d : FloatDump) (fields fields' : List (String × Json)),
    fields ≠ fields' → jsonToYaml d 0 (.object fields) ≠ jsonToYaml d 0 (.object fields') := by
  intro h
  refine h bitsDump [("a", .string "x\"\nb: \"y")] [("a", .string "x"), ("b", .string "y")] ?_ ?_
  · simp
  · rfl

end MyMediamtxMonitor
