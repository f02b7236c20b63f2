import Mathlib.Data.List.Nodup
import Mathlib.Data.Set.Insert
import Mathlib.Order.Basic
import Std.Data.TreeMap.Lemmas

/-!
# The callback table

`callbacks_` of `FastMQTT`: the callbacks of each filter, in the order of their registration. What a
callback does when it is run is a parameter.

The operations hold `cb_mutex_` while they read and write the table, so each is a function on it;
the subscriptions at the broker that go with them are in `FastCppServer.FastMqtt.Subscriptions`.
-/

namespace FastMqtt

/-- What the table holds of a registration: its handle, the filter it is for, and the callback. -/
structure CallbackEntry (κ : Type) where
  handle : Nat
  filter : String
  callback : κ
  qos : Int := 1

/-- `std::map<std::string, std::vector<CallbackEntry>>`. -/
abbrev Table (κ : Type) := Std.TreeMap String (List (CallbackEntry κ))

namespace Table

variable {κ : Type}

/-- The callbacks of a filter. -/
def callbacks (t : Table κ) (filter : String) : List (CallbackEntry κ) := t[filter]?.getD []

/-- `callbacks_[topic].insert(callbacks_[topic].end(), entry)`. -/
def add (t : Table κ) (e : CallbackEntry κ) : Table κ :=
  t.insert e.filter (t.callbacks e.filter ++ [e])

/-- The search of `UnregisterCallback`: the filter of the handle, and its callbacks without it. -/
def remove (t : Table κ) (handle : Nat) : Option (String × List (CallbackEntry κ)) :=
  (t.toList.find? fun kv => kv.2.any (·.handle = handle)).map fun kv =>
    (kv.1, kv.2.eraseP (·.handle = handle))

/-- What `ResubscribeAll` is going to subscribe: the QoS is that of the first callback. -/
def subscriptions (t : Table κ) : List (String × Int) :=
  t.toList.map fun kv => (kv.1, (kv.2.head?.map CallbackEntry.qos).getD 1)

/-- An empty table has no callbacks under any filter. -/
@[simp] theorem callbacks_empty (f : String) : (∅ : Table κ).callbacks f = [] := by
  rw [callbacks, Std.TreeMap.getElem?_emptyc]
  rfl

/-- Storing a list under a filter changes what that filter has, and nothing else. -/
theorem callbacks_insert (t : Table κ) (f g : String) (es : List (CallbackEntry κ)) :
    callbacks (t.insert g es) f = if g = f then es else t.callbacks f := by
  rw [callbacks, Std.TreeMap.getElem?_insert]
  by_cases h : g = f
  · simp [h]
  · simp [h, callbacks]

/-- A registration is appended to the list of its filter, and the other filters keep theirs. -/
theorem callbacks_add (t : Table κ) (e : CallbackEntry κ) (f : String) :
    (t.add e).callbacks f = if e.filter = f then t.callbacks f ++ [e] else t.callbacks f := by
  rw [add, callbacks_insert]
  split
  next h => rw [h]
  next => rfl

/-- Erasing a filter takes all its callbacks, and none of another filter. -/
theorem callbacks_erase (t : Table κ) (f g : String) :
    callbacks (t.erase g) f = if g = f then [] else t.callbacks f := by
  rw [callbacks, Std.TreeMap.getElem?_erase]
  by_cases h : g = f
  · simp [h]
  · simp [h, callbacks]

/-- The lists that the dispatch goes through are those of the filters. -/
theorem mem_toList {t : Table κ} {f : String} {es : List (CallbackEntry κ)}
    (h : (f, es) ∈ t.toList) : t.callbacks f = es := by
  rw [callbacks, Std.TreeMap.mem_toList_iff_getElem?_eq_some.1 h]
  rfl

/-- A removal takes one callback with the handle, from a filter that has it. -/
theorem remove_some {t : Table κ} {handle : Nat} {f : String} {es : List (CallbackEntry κ)}
    (h : t.remove handle = some (f, es)) :
    (∃ e ∈ t.callbacks f, e.handle = handle) ∧ es = (t.callbacks f).eraseP (·.handle = handle) := by
  obtain ⟨⟨g, ds⟩, hfind, hkv⟩ := Option.map_eq_some_iff.1 h
  obtain ⟨rfl, rfl⟩ := Prod.mk.inj hkv
  have hmem := mem_toList (List.mem_of_find?_eq_some hfind)
  have hany := List.find?_some hfind
  rw [List.any_eq_true] at hany
  obtain ⟨e, he, hhandle⟩ := hany
  rw [hmem]
  exact ⟨⟨e, he, of_decide_eq_true hhandle⟩, rfl⟩

/-- An unregistration that finds nothing tells that the handle is nowhere in the table. -/
theorem remove_none {t : Table κ} {handle : Nat} (h : t.remove handle = none) (f : String) :
    ∀ e ∈ t.callbacks f, e.handle ≠ handle := by
  intro e he hhandle
  rw [remove, Option.map_eq_none_iff, List.find?_eq_none] at h
  rw [callbacks] at he
  cases hf : t[f]? with
  | none => simp [hf] at he
  | some es =>
    rw [hf, Option.getD_some] at he
    have := h (f, es) (Std.TreeMap.mem_toList_iff_getElem?_eq_some.2 hf)
    exact this (List.any_eq_true.2 ⟨e, he, decide_eq_true hhandle⟩)

/-- Every filter with a callback is subscribed again. -/
theorem mem_subscriptions {t : Table κ} {f : String} (h : t.callbacks f ≠ []) :
    ∃ qos, (f, qos) ∈ t.subscriptions := by
  rw [callbacks] at h
  cases hf : t[f]? with
  | none => simp [hf] at h
  | some es =>
    exact ⟨_, List.mem_map.2 ⟨(f, es), Std.TreeMap.mem_toList_iff_getElem?_eq_some.2 hf, rfl⟩⟩

end Table

/-! ## Registering and unregistering -/

/-- The table with its counter, as the callers of `RegisterCallback` and `UnregisterCallback` see
it. -/
structure FastMQTT (κ : Type) where
  table : Table κ := ∅
  nextHandle : Nat := 1

namespace FastMQTT

variable {κ : Type}

/-- `FastMQTT::RegisterCallback`: the handle, which is 0 for a null callback. -/
def registerCallback (m : FastMQTT κ) (topic : String) (callback : Option κ) (qos : Int) :
    Nat × FastMQTT κ :=
  match callback with
  | none => (0, m)
  | some callback =>
    let handle := m.nextHandle
    (handle,
      { table := m.table.add { handle, filter := topic, callback, qos }, nextHandle := handle + 1 })

/-- `FastMQTT::UnregisterCallback`. -/
def unregisterCallback (m : FastMQTT κ) (handle : Nat) : Bool × FastMQTT κ :=
  match m.table.remove handle with
  | none => (false, m)
  | some (filter, []) => (true, { m with table := m.table.erase filter })
  | some (filter, es) => (true, { m with table := m.table.insert filter es })

/-- `FastMQTT::ClearCallback`. -/
def clearCallback (m : FastMQTT κ) (topic : String) : FastMQTT κ :=
  if topic ∈ m.table then { m with table := m.table.erase topic } else m

/-- `FastMQTT::ClearAllCallbacks`. -/
def clearAllCallbacks (m : FastMQTT κ) : FastMQTT κ := { m with table := ∅ }

/-- The copy in `DispatchToCallbacks`: each callback of each filter that matches goes to the front.
`topicMatch` is `FastMQTT::TopicMatch`. -/
def matched (topicMatch : String → String → Bool) (m : FastMQTT κ) (topic : String) :
    List (CallbackEntry κ) :=
  m.table.toList.foldl
    (fun matched kv =>
      if topicMatch kv.1 topic then kv.2.foldl (fun matched e => e :: matched) matched else matched)
    []

/-- A handle is given once, and 0 is none. -/
structure Good (m : FastMQTT κ) : Prop where
  next_pos : 0 < m.nextHandle
  bound : ∀ f, ∀ e ∈ m.table.callbacks f, 0 < e.handle ∧ e.handle < m.nextHandle
  nodup : ∀ f, ((m.table.callbacks f).map CallbackEntry.handle).Nodup
  apart : ∀ f, ∀ e ∈ m.table.callbacks f, ∀ g, ∀ e' ∈ m.table.callbacks g,
    e.handle = e'.handle → f = g

/-- The client begins with an empty table, and the handles begin with 1. -/
theorem good_empty : Good ({} : FastMQTT κ) where
  next_pos := Nat.one_pos
  bound f e he := by simp at he
  nodup f := by simp
  apart f e he := by simp at he

/-- Of callbacks with different handles, the search takes the one that there is. -/
theorem eraseP_handle {es : List (CallbackEntry κ)} (h : (es.map CallbackEntry.handle).Nodup)
    (handle : Nat) : es.eraseP (·.handle = handle) = es.filter (·.handle ≠ handle) := by
  induction es with
  | nil => rfl
  | cons e es ih =>
    rw [List.map_cons, List.nodup_cons] at h
    rcases eq_or_ne e.handle handle with he | he
    · have hother : ∀ e' ∈ es, e'.handle ≠ handle := by
        intro e' he' heq
        exact h.1 (List.mem_map.2 ⟨e', he', heq.trans he.symm⟩)
      rw [List.eraseP_cons_of_pos (by simpa using he), List.filter_cons_of_neg (by simpa using he)]
      exact (List.filter_eq_self.2 fun e' he' => by simpa using hother e' he').symm
    · rw [List.eraseP_cons_of_neg (by simpa using he), List.filter_cons_of_pos (by simpa using he),
        ih h.2]

section
variable {m : FastMQTT κ}

/-- A registration gets the next handle, and stands last under its filter. -/
theorem callbacks_register (topic : String) (callback : κ) (qos : Int) (f : String) :
    (m.registerCallback topic (some callback) qos).2.table.callbacks f =
      if topic = f then
        m.table.callbacks f ++ [{ handle := m.nextHandle, filter := topic, callback, qos }]
      else m.table.callbacks f :=
  Table.callbacks_add ..

/-- What is registered afterwards is what was registered before, and the new callback. -/
theorem mem_register {topic : String} {callback : κ} {qos : Int} {f : String}
    {e : CallbackEntry κ} :
    e ∈ (m.registerCallback topic (some callback) qos).2.table.callbacks f ↔
      e ∈ m.table.callbacks f ∨
        topic = f ∧ e = { handle := m.nextHandle, filter := topic, callback, qos } := by
  rw [callbacks_register]
  split
  next hf => simp [hf]
  next hf => simp [hf]

/-- An unregistration takes away the one callback that has the handle, under whatever filter it
is. -/
theorem callbacks_unregister (h : Good m) (handle : Nat) (f : String) :
    (m.unregisterCallback handle).2.table.callbacks f =
      (m.table.callbacks f).filter (·.handle ≠ handle) := by
  unfold unregisterCallback
  cases hr : m.table.remove handle with
  | none =>
    refine (List.filter_eq_self.2 fun e he => ?_).symm
    simpa using Table.remove_none hr f e he
  | some kv =>
    obtain ⟨g, es⟩ := kv
    obtain ⟨⟨e, he, hhandle⟩, hes⟩ := Table.remove_some hr
    rw [eraseP_handle (h.nodup g)] at hes
    have hother : g ≠ f →
        m.table.callbacks f = (m.table.callbacks f).filter (·.handle ≠ handle) := by
      intro hne
      refine (List.filter_eq_self.2 fun e' he' => ?_).symm
      have hd : e'.handle ≠ handle :=
        fun hd => hne (h.apart g e he f e' he' (hhandle.trans hd.symm))
      simpa using hd
    cases es with
    | nil =>
      dsimp only
      rw [Table.callbacks_erase]
      split
      next hf => rw [← hf, ← hes]
      next hf => exact hother hf
    | cons e' es =>
      dsimp only
      rw [Table.callbacks_insert]
      split
      next hf => rw [← hf, ← hes]
      next hf => exact hother hf

/-- Handles are not given back: the next one stays what it is. -/
theorem unregister_nextHandle (handle : Nat) :
    (m.unregisterCallback handle).2.nextHandle = m.nextHandle := by
  unfold unregisterCallback
  split <;> rfl

/-- A callback with a handle that the table does not have. -/
theorem Good.add (h : Good m) {e : CallbackEntry κ} (hpos : 0 < e.handle)
    (hnext : e.handle < m.nextHandle)
    (hnew : ∀ f, ∀ e' ∈ m.table.callbacks f, e'.handle ≠ e.handle) :
    Good { m with table := m.table.add e } := by
  have hmem : ∀ f, ∀ e' ∈ (m.table.add e).callbacks f,
      e' ∈ m.table.callbacks f ∨ e.filter = f ∧ e' = e := by
    intro f e' he'
    rw [Table.callbacks_add] at he'
    split at he'
    next hf =>
      rcases List.mem_append.1 he' with he' | he'
      · exact .inl he'
      · exact .inr ⟨hf, List.mem_singleton.1 he'⟩
    next => exact .inl he'
  refine ⟨h.next_pos, fun f e' he' => ?_, fun f => ?_, fun f d hd g d' hd' hdd => ?_⟩
  · rcases hmem f e' he' with he' | ⟨-, rfl⟩
    · exact h.bound f e' he'
    · exact ⟨hpos, hnext⟩
  · dsimp only
    rw [Table.callbacks_add]
    split
    · rw [List.map_append, List.nodup_append]
      refine ⟨h.nodup f, List.pairwise_singleton .., ?_⟩
      rintro a ha b hb rfl
      obtain ⟨e', he', rfl⟩ := List.mem_map.1 ha
      exact hnew f e' he' (List.mem_singleton.1 hb)
    · exact h.nodup f
  · rcases hmem f d hd with hold | ⟨rfl, rfl⟩
    · rcases hmem g d' hd' with hold' | ⟨rfl, rfl⟩
      · exact h.apart f d hold g d' hold' hdd
      · exact absurd hdd (hnew f d hold)
    · rcases hmem g d' hd' with hold' | ⟨rfl, -⟩
      · exact absurd hdd.symm (hnew g d' hold')
      · rfl

/-- Drawing a handle keeps the table good, since the ones in use are below the next one. -/
theorem Good.next (h : Good m) : Good { m with nextHandle := m.nextHandle + 1 } where
  next_pos := Nat.succ_pos _
  bound f e he := ⟨(h.bound f e he).1, Nat.lt_succ_of_lt (h.bound f e he).2⟩
  nodup := h.nodup
  apart := h.apart

/-- Callbacks go. -/
theorem Good.shrink (h : Good m) {t : Table κ}
    (hsub : ∀ f, (t.callbacks f).Sublist (m.table.callbacks f)) : Good { m with table := t } where
  next_pos := h.next_pos
  bound f e he := h.bound f e ((hsub f).subset he)
  nodup f := (h.nodup f).sublist ((hsub f).map _)
  apart f e he g e' he' := h.apart f e ((hsub f).subset he) g e' ((hsub g).subset he')

/-- A registration keeps the table good. -/
theorem Good.register (h : Good m) (topic : String) (callback : κ) (qos : Int) :
    Good (m.registerCallback topic (some callback) qos).2 :=
  h.next.add h.next_pos (Nat.lt_succ_self _) fun f e he => Nat.ne_of_lt (h.bound f e he).2

/-- An unregistration keeps the table good, whether it finds the handle or not. -/
theorem Good.unregister (h : Good m) (handle : Nat) : Good (m.unregisterCallback handle).2 := by
  have hshrink := h.shrink (t := (m.unregisterCallback handle).2.table) fun f => by
    rw [callbacks_unregister h]
    exact List.filter_sublist
  rwa [← unregister_nextHandle handle] at hshrink

/-- Clearing a topic only takes callbacks away, under that filter or another one. -/
theorem clearCallback_sublist (topic f : String) :
    ((m.clearCallback topic).table.callbacks f).Sublist (m.table.callbacks f) := by
  unfold clearCallback
  split
  · dsimp only
    rw [Table.callbacks_erase]
    split
    · exact List.nil_sublist _
    · exact List.Sublist.refl _
  · exact List.Sublist.refl _

/-- Clearing a topic gives no handle back. -/
theorem clearCallback_nextHandle (topic : String) :
    (m.clearCallback topic).nextHandle = m.nextHandle := by
  unfold clearCallback
  split <;> rfl

/-- Clearing everything only takes callbacks away. -/
theorem clearAllCallbacks_sublist (f : String) :
    (m.clearAllCallbacks.table.callbacks f).Sublist (m.table.callbacks f) := by
  rw [clearAllCallbacks, Table.callbacks_empty]
  exact List.nil_sublist _

/-- Clearing a topic keeps the table good. -/
theorem Good.clear (h : Good m) (topic : String) : Good (m.clearCallback topic) := by
  have hshrink := h.shrink (clearCallback_sublist topic)
  rwa [← clearCallback_nextHandle topic] at hshrink

/-- Clearing everything keeps the table good. -/
theorem Good.clearAll (h : Good m) : Good m.clearAllCallbacks :=
  h.shrink clearAllCallbacks_sublist

/-- The handles in the table. -/
def alive (m : FastMQTT κ) : Set Nat := {handle | ∃ f, ∃ e ∈ m.table.callbacks f, e.handle = handle}

/-- What is in use shrinks with the table. -/
theorem alive_subset {m' : FastMQTT κ}
    (hsub : ∀ f, (m'.table.callbacks f).Sublist (m.table.callbacks f)) : m'.alive ⊆ m.alive := by
  rintro handle ⟨f, e, he, rfl⟩
  exact ⟨f, e, (hsub f).subset he, rfl⟩

/-- Adding a callback makes its handle live, and no other one. -/
theorem alive_add (e : CallbackEntry κ) :
    alive { m with table := m.table.add e } = insert e.handle m.alive := by
  ext handle
  simp only [alive, Set.mem_ofPred_eq, Set.mem_insert_iff, Table.callbacks_add]
  constructor
  · rintro ⟨f, e', he', rfl⟩
    split at he'
    · rcases List.mem_append.1 he' with he' | he'
      · exact .inr ⟨f, e', he', rfl⟩
      · rw [List.mem_singleton.1 he']
        exact .inl rfl
    · exact .inr ⟨f, e', he', rfl⟩
  · rintro (rfl | ⟨f, e', he', rfl⟩)
    · exact ⟨e.filter, e, by simp, rfl⟩
    · refine ⟨f, e', ?_, rfl⟩
      split
      · exact List.mem_append_left _ he'
      · exact he'

/-- After a registration the handles in use are those before it and the one it returns. -/
theorem alive_register (topic : String) (callback : κ) (qos : Int) :
    (m.registerCallback topic (some callback) qos).2.alive = insert m.nextHandle m.alive :=
  alive_add { handle := m.nextHandle, filter := topic, callback, qos }

/-- After an unregistration the handles in use are those before it without the one it was given. -/
theorem alive_unregister (h : Good m) (handle : Nat) :
    (m.unregisterCallback handle).2.alive = m.alive \ {handle} := by
  ext d
  simp only [alive, Set.mem_ofPred_eq, Set.mem_sdiff, Set.mem_singleton_iff, callbacks_unregister h]
  constructor
  · rintro ⟨f, e, he, rfl⟩
    exact ⟨⟨f, e, List.mem_of_mem_filter he, rfl⟩, by simpa using List.of_mem_filter he⟩
  · rintro ⟨⟨f, e, he, rfl⟩, hne⟩
    exact ⟨f, e, List.mem_filter.2 ⟨he, by simpa using hne⟩, rfl⟩

/-! ## Dispatching -/

/-- What a message is matched with, in the order of the source: the filters of the table that match
the topic, and for each of them its callbacks. -/
theorem matched_eq (topicMatch : String → String → Bool) (topic : String) :
    m.matched topicMatch topic =
      (m.table.toList.flatMap fun kv => if topicMatch kv.1 topic then kv.2 else []).reverse := by
  have hfold : ∀ (kvs : List (String × List (CallbackEntry κ))) (acc : List (CallbackEntry κ)),
      kvs.foldl (fun matched kv => if topicMatch kv.1 topic then
        kv.2.foldl (fun matched e => e :: matched) matched else matched) acc =
      (kvs.flatMap fun kv => if topicMatch kv.1 topic then kv.2 else []).reverse ++ acc := by
    intro kvs
    induction kvs with
    | nil => exact fun acc => rfl
    | cons kv kvs ih =>
      intro acc
      rw [List.foldl_cons, ih, List.flatMap_cons, List.reverse_append, List.append_assoc]
      split
      · rw [List.foldl_flip_cons_eq_append']
      · rfl
  rw [matched, hfold, List.append_nil]

/-- A callback is run for a message just if it is registered under a filter that matches the
topic. -/
theorem mem_matched {topicMatch : String → String → Bool} {topic : String} {e : CallbackEntry κ} :
    e ∈ m.matched topicMatch topic ↔ ∃ f, topicMatch f topic = true ∧ e ∈ m.table.callbacks f := by
  simp only [matched_eq, List.mem_reverse, List.mem_flatMap, Prod.exists]
  constructor
  · rintro ⟨f, es, hes, he⟩
    split at he
    next hf => exact ⟨f, hf, (Table.mem_toList hes).symm ▸ he⟩
    next => cases he
  · rintro ⟨f, hf, he⟩
    have hes : m.table[f]? = some (m.table.callbacks f) := by
      rw [Table.callbacks] at he ⊢
      cases hget : m.table[f]? with
      | none => simp [hget] at he
      | some es => rfl
    exact ⟨f, _, Std.TreeMap.mem_toList_iff_getElem?_eq_some.2 hes, by rwa [if_pos hf]⟩

/-- A handle is that of one callback. -/
theorem Good.eq_of_handle (h : Good m) {f g : String} {e e' : CallbackEntry κ}
    (he : e ∈ m.table.callbacks f) (he' : e' ∈ m.table.callbacks g) (hh : e.handle = e'.handle) :
    f = g ∧ e = e' := by
  obtain rfl := h.apart f e he g e' he' hh
  exact ⟨rfl, List.inj_on_of_nodup_map (h.nodup f) he he' hh⟩

/-- No callback is run twice for a message. -/
theorem matched_nodup (h : Good m) (topicMatch : String → String → Bool) (topic : String) :
    ((m.matched topicMatch topic).map CallbackEntry.handle).Nodup := by
  rw [matched_eq, List.map_reverse, List.nodup_reverse, List.map_flatMap, List.nodup_flatMap]
  constructor
  · rintro ⟨f, es⟩ hes
    split
    · exact Table.mem_toList hes ▸ h.nodup f
    · exact List.nodup_nil
  · refine Std.TreeMap.distinct_keys_toList.imp_of_mem ?_
    rintro ⟨f, es⟩ ⟨g, ds⟩ hes hds hne d hd hd'
    have hmem : ∀ kv ∈ m.table.toList, d ∈ ((if topicMatch kv.1 topic then kv.2 else []).map
        CallbackEntry.handle) → ∃ e ∈ m.table.callbacks kv.1, e.handle = d := by
      intro kv hkv hd
      split at hd
      · exact Table.mem_toList hkv ▸ List.mem_map.1 hd
      · cases hd
    obtain ⟨e, he, rfl⟩ := hmem _ hes hd
    obtain ⟨e', he', heq⟩ := hmem _ hds hd'
    obtain rfl : f = g := h.apart f e he g e' he' heq.symm
    exact hne Std.ReflCmp.compare_self

end

end FastMQTT

end FastMqtt
