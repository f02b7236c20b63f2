import FastCppServer.FastMqtt.Publish
import FastCppServer.MyComm.Bridge

/-!
# Which callbacks a message reaches

A message goes from `FastMQTT::DispatchToCallbacks` to the bridge's `OnRawMessage` for each filter
that matches, and from there to the parsed callbacks of the entry. A parsed callback is reached once
if its entry has a handle, and the handles are those of the bridge's own subscriptions (`Wired`).

In a running bridge an entry with parsed callbacks can be without a handle in one way: it was there
before `Start`, and its topic is not among those that `Start` subscribes.
-/

namespace MyComm

open FastMqtt Function Transition

variable {κ π μ : Type}

/-- A call of a parsed callback. -/
structure Delivery (π μ : Type) where
  handle : Nat
  callback : π
  topic : String
  message : μ
  deriving DecidableEq

/-- `OnRawMessage`. A payload that does not parse is dropped. -/
def onRawMessage (parse : List UInt8 → Option μ) (s : System κ π) (topicFilter : String)
    (msg : Message) : List (Delivery π μ) :=
  match parse msg.payload with
  | none => []
  | some message => (s.bridge.entry topicFilter).callbacks.map fun item =>
    { handle := item.handle, callback := item.callback, topic := msg.topic, message }

/-- `FastMQTT::DispatchToCallbacks`, as far as the bridge's parsed callbacks are concerned. What a
callback throws is caught. -/
def dispatchToCallbacks (topicMatch : String → String → Bool) (parse : List UInt8 → Option μ)
    (s : System κ π) (msg : Message) : List (Delivery π μ) :=
  (s.mqtt.matched topicMatch msg.topic).flatMap fun e =>
    match e.callback with
    | .onRawMessage topicFilter => onRawMessage parse s topicFilter msg
    | .direct _ => []

/-- Each parsed callback has the subscription of its topic, and is called exactly once for a message
that the topic matches. -/
def Reaches (topicMatch : String → String → Bool) (parse : List UInt8 → Option μ)
    (s : System κ π) : Prop :=
  ∀ topic, ∀ item ∈ (s.bridge.entry topic).callbacks,
    (∃ e ∈ s.mqtt.table.callbacks topic, e.callback = .onRawMessage topic) ∧
    ∀ msg message, topicMatch topic msg.topic = true → parse msg.payload = some message →
      (dispatchToCallbacks topicMatch parse s msg).filter (·.handle = item.handle) =
        [{ handle := item.handle, callback := item.callback, topic := msg.topic, message }]

/-- A `Start` that goes through. -/
def Starts (s : System κ π) (ready : Bool) : Prop :=
  s.bridge.initialized = true ∧ s.bridge.enable = true ∧ s.bridge.running = false ∧ ready = true

/-- A `Start` subscribes the topics of all parsed callbacks; and `JsonComm` is not asked to put
another handle into an entry. -/
def Listed (s : System κ π) : Comm κ → Op κ π → Prop
  | _, .start ready =>
    Starts s ready → ∀ t, (s.bridge.entry t).callbacks ≠ [] → t ∈ s.bridge.topics
  | .json, .registerCallbackToFastMQTT _ (some _) _ => s.bridge.initialized = false
  | _, _ => True

/-! ## What is kept -/

/-- The handles are those of the bridge's subscriptions, and of all of them. -/
structure Wired (mqtt : FastMQTT (MessageCallback κ)) (handles : String → Nat) : Prop where
  good : mqtt.Good
  live : ∀ t, handles t ≠ 0 →
    ∃ e ∈ mqtt.table.callbacks t, e.handle = handles t ∧ e.callback = .onRawMessage t
  own : ∀ f, ∀ e ∈ mqtt.table.callbacks f, ∀ t, e.callback = .onRawMessage t →
    f = t ∧ e.handle = handles t

/-- A parsed callback is told by its handle. -/
structure Distinct (items : String → List (CallbackItem π)) (next : Nat) : Prop where
  bound : ∀ t, ∀ i ∈ items t, i.handle < next
  nodup : ∀ t, ((items t).map CallbackItem.handle).Nodup
  apart : ∀ t, ∀ i ∈ items t, ∀ t', ∀ j ∈ items t', i.handle = j.handle → t = t'

/-- What every operation keeps of the handles and the callbacks. -/
structure Linked (s : System κ π) : Prop where
  wired : Wired s.mqtt s.bridge.handles
  distinct : Distinct s.bridge.items s.bridge.nextHandle

/-- **While the bridge runs every topic with a callback has its subscription.** -/
structure Connected (s : System κ π) : Prop extends Linked s where
  covered : s.bridge.running = true → ∀ t, s.bridge.items t ≠ [] → s.bridge.handles t ≠ 0

/-! ## Reaching a callback -/

/-- The one element with the key. -/
theorem filter_key {α β : Type} [DecidableEq β] {f : α → β} {l : List α} {a : α}
    (h : (l.map f).Nodup) (ha : a ∈ l) : l.filter (fun b => f b = f a) = [a] := by
  induction l with
  | nil => cases ha
  | cons b l ih =>
    rw [List.map_cons, List.nodup_cons] at h
    rcases List.mem_cons.1 ha with rfl | ha
    · have hrest : l.filter (fun b => f b = f a) = [] := by
        refine List.filter_eq_nil_iff.2 fun b hb hf => h.1 ?_
        exact List.mem_map.2 ⟨b, hb, of_decide_eq_true hf⟩
      rw [List.filter_cons_of_pos (by simp), hrest]
    · have hne : f b ≠ f a := fun hf => h.1 (hf ▸ List.mem_map_of_mem ha)
      rw [List.filter_cons_of_neg (by simpa using hne), ih h.2 ha]

/-- Of the runs of callbacks, one brings something. -/
theorem flatMap_key {α β γ : Type} [DecidableEq β] {f : α → β} {l : List α} {a : α} (c : γ)
    (h : (l.map f).Nodup) (ha : a ∈ l) :
    (l.flatMap fun b => if f b = f a then [c] else []) = [c] := by
  have hfilter : ∀ l : List α, (l.flatMap fun b => if f b = f a then [c] else []) =
      (l.filter (fun b => f b = f a)).map fun _ => c := by
    intro l
    induction l with
    | nil => rfl
    | cons b l ih =>
      rw [List.flatMap_cons, List.filter_cons, ih]
      by_cases hb : f b = f a <;> simp [hb]
  rw [hfilter, filter_key h ha]
  rfl

section
variable {s : System κ π}

/-- Then every parsed callback is reached. -/
theorem Connected.reaches (h : Connected s) (hrunning : s.bridge.running = true)
    (topicMatch : String → String → Bool) (parse : List UInt8 → Option μ) :
    Reaches topicMatch parse s := by
  intro topic item hitem
  have hne : s.bridge.handles topic ≠ 0 :=
    h.covered hrunning topic (List.ne_nil_of_mem hitem)
  obtain ⟨e, he, hhandle, hcallback⟩ := h.wired.live topic hne
  refine ⟨⟨e, he, hcallback⟩, fun msg message hmatch hparse => ?_⟩
  have hmem : e ∈ s.mqtt.matched topicMatch msg.topic := FastMQTT.mem_matched.2 ⟨topic, hmatch, he⟩
  rw [dispatchToCallbacks, List.filter_flatMap]
  refine Eq.trans (List.flatMap_congr fun e' he' => ?_)
    (flatMap_key _ (FastMQTT.matched_nodup h.wired.good topicMatch msg.topic) hmem)
  obtain ⟨f, -, he'⟩ := FastMQTT.mem_matched.1 he'
  -- a callback with the handle of the subscription is the subscription
  have hsame : e'.handle = e.handle → e' = e := fun hh => (h.wired.good.eq_of_handle he' he hh).2
  cases hcb : e'.callback with
  | direct callback =>
    have hother : e'.handle ≠ e.handle := by
      intro hh
      rw [hsame hh, hcallback] at hcb
      cases hcb
    rw [if_neg hother]
    rfl
  | onRawMessage t =>
    obtain ⟨rfl, hhandle'⟩ := h.wired.own f e' he' t hcb
    simp only [onRawMessage, hparse]
    rcases eq_or_ne f topic with rfl | hne'
    · rw [if_pos (hhandle'.trans hhandle.symm), List.filter_map]
      exact congrArg _ (filter_key (h.distinct.nodup f) hitem)
    · have hother : e'.handle ≠ e.handle := by
        intro hh
        rw [hsame hh, hcallback] at hcb
        exact hne' (MessageCallback.onRawMessage.inj hcb).symm
      rw [if_neg hother, List.filter_map, List.map_eq_nil_iff, List.filter_eq_nil_iff]
      intro j hj hh
      exact hne' (h.distinct.apart f j hj topic item hitem (of_decide_eq_true hh))

end

/-! ## The wiring -/

section
variable {mqtt : FastMQTT (MessageCallback κ)} {handles : String → Nat}

/-- A subscription of a topic that has none. -/
theorem Wired.take (h : Wired mqtt handles) {t : String} (ht : handles t = 0) (qos : Int) :
    Wired (mqtt.registerCallback t (some (.onRawMessage t)) qos).2
      (update handles t mqtt.nextHandle) where
  good := h.good.register t _ qos
  live t' ht' := by
    rcases eq_or_ne t' t with rfl | hne
    · exact ⟨_, FastMQTT.mem_register.2 (.inr ⟨rfl, rfl⟩), by rw [update_self], rfl⟩
    · rw [update_of_ne hne] at ht' ⊢
      obtain ⟨e, he, hhandle, hcallback⟩ := h.live t' ht'
      exact ⟨e, FastMQTT.mem_register.2 (.inl he), hhandle, hcallback⟩
  own f e he t' hcallback := by
    rcases FastMQTT.mem_register.1 he with hold | ⟨rfl, rfl⟩
    · obtain ⟨rfl, hhandle⟩ := h.own f e hold t' hcallback
      have hne : f ≠ t := by
        intro hft
        have hpos := (h.good.bound f e hold).1
        rw [hhandle, hft, ht] at hpos
        exact Nat.lt_irrefl 0 hpos
      exact ⟨rfl, by rw [update_of_ne hne, hhandle]⟩
    · cases hcallback
      exact ⟨rfl, by rw [update_self]⟩

/-- A callback that is not the bridge's. -/
theorem Wired.direct (h : Wired mqtt handles) (t : String) (callback : κ) (qos : Int) :
    Wired (mqtt.registerCallback t (some (.direct callback)) qos).2 handles where
  good := h.good.register t _ qos
  live t' ht' := by
    obtain ⟨e, he, hhandle, hcallback⟩ := h.live t' ht'
    exact ⟨e, FastMQTT.mem_register.2 (.inl he), hhandle, hcallback⟩
  own f e he t' hcallback := by
    rcases FastMQTT.mem_register.1 he with he | ⟨rfl, rfl⟩
    · exact h.own f e he t' hcallback
    · cases hcallback

/-- The end of a subscription. -/
theorem Wired.giveBack (h : Wired mqtt handles) (t : String) (ht : handles t ≠ 0) :
    Wired (mqtt.unregisterCallback (handles t)).2 (update handles t 0) where
  good := h.good.unregister _
  live t' ht' := by
    have hne : t' ≠ t := by
      rintro rfl
      exact ht' (update_self ..)
    rw [update_of_ne hne] at ht' ⊢
    obtain ⟨e, he, hhandle, hcallback⟩ := h.live t' ht'
    obtain ⟨e', he', hhandle', -⟩ := h.live t ht
    have hkeep : e.handle ≠ handles t := by
      intro hh
      exact hne (h.good.eq_of_handle he he' (hh.trans hhandle'.symm)).1
    refine ⟨e, ?_, hhandle, hcallback⟩
    rw [FastMQTT.callbacks_unregister h.good]
    exact List.mem_filter.2 ⟨he, decide_eq_true hkeep⟩
  own f e he t' hcallback := by
    rw [FastMQTT.callbacks_unregister h.good] at he
    obtain ⟨he, hkeep⟩ := List.mem_filter.1 he
    obtain ⟨rfl, hhandle⟩ := h.own f e he t' hcallback
    have hne : f ≠ t := by
      rintro rfl
      exact of_decide_eq_true hkeep hhandle
    exact ⟨rfl, by rw [update_of_ne hne, hhandle]⟩

/-- After all handles have been given back there is no subscription of the bridge. -/
theorem Wired.clear {b : Bridge π} (h : Wired mqtt b.handles) :
    Wired (unregisterEntries mqtt b.entries.toList) fun _ => 0 := by
  obtain ⟨hgood, -, hcallbacks⟩ := unregisterEntries_spec h.good b.entries.toList
  refine ⟨hgood, fun t ht => absurd rfl ht, fun f e he t hcallback => ?_⟩
  rw [hcallbacks] at he
  obtain ⟨he, hkeep⟩ := List.mem_filter.1 he
  obtain ⟨rfl, hhandle⟩ := h.own f e he t hcallback
  have hpos : b.handles f ≠ 0 := Nat.ne_of_gt (hhandle ▸ (h.good.bound f e he).1)
  have hgone := List.all_eq_true.1 hkeep _ (entry_mem hpos)
  exact absurd hhandle.symm (of_decide_eq_true hgone)

end

section
variable {items : String → List (CallbackItem π)} {next : Nat}

/-- One more parsed callback. -/
theorem Distinct.append (h : Distinct items next) (t : String) (callback : π) :
    Distinct (update items t (items t ++ [{ handle := next, callback }])) (next + 1) := by
  have hmem : ∀ t' i, i ∈ update items t (items t ++ [{ handle := next, callback }]) t' →
      i ∈ items t' ∨ t' = t ∧ i.handle = next := by
    intro t' i hi
    rcases eq_or_ne t' t with rfl | hne
    · rw [update_self] at hi
      rcases List.mem_append.1 hi with hi | hi
      · exact .inl hi
      · exact .inr ⟨rfl, List.mem_singleton.1 hi ▸ rfl⟩
    · rw [update_of_ne hne] at hi
      exact .inl hi
  refine ⟨fun t' i hi => ?_, fun t' => ?_, fun t₁ i hi t₂ j hj hij => ?_⟩
  · rcases hmem t' i hi with hi | ⟨-, hi⟩
    · exact Nat.lt_succ_of_lt (h.bound t' i hi)
    · exact hi ▸ Nat.lt_succ_self _
  · rcases eq_or_ne t' t with rfl | hne
    · rw [update_self, List.map_append, List.nodup_append]
      refine ⟨h.nodup t', List.pairwise_singleton .., ?_⟩
      rintro a ha b hb rfl
      obtain ⟨i, hi, rfl⟩ := List.mem_map.1 ha
      exact Nat.ne_of_lt (h.bound t' i hi) (List.mem_singleton.1 hb)
    · rw [update_of_ne hne]
      exact h.nodup t'
  · rcases hmem t₁ i hi with hi₁ | ⟨ht₁, hi₁⟩ <;> rcases hmem t₂ j hj with hj₂ | ⟨ht₂, hj₂⟩
    · exact h.apart t₁ i hi₁ t₂ j hj₂ hij
    · exact absurd (hij.trans hj₂) (Nat.ne_of_lt (h.bound t₁ i hi₁))
    · exact absurd (hij.symm.trans hi₁) (Nat.ne_of_lt (h.bound t₂ j hj₂))
    · exact ht₁.trans ht₂.symm

/-- Fewer parsed callbacks. -/
theorem Distinct.mono (h : Distinct items next) {items' : String → List (CallbackItem π)}
    (hsub : ∀ t, List.Sublist (items' t) (items t)) : Distinct items' next where
  bound t i hi := h.bound t i ((hsub t).subset hi)
  nodup t := (h.nodup t).sublist ((hsub t).map _)
  apart t i hi t' j hj := h.apart t i ((hsub t).subset hi) t' j ((hsub t').subset hj)

end

/-! ## One operation -/

section
variable {s s' : System κ π}

/-- A change of what callbacks and handles do not depend on. -/
theorem Linked.of_eq (h : Linked s) (hmqtt : s'.mqtt = s.mqtt)
    (hentries : s'.bridge.entries = s.bridge.entries)
    (hnext : s'.bridge.nextHandle = s.bridge.nextHandle) : Linked s' := by
  have hentry : s'.bridge.entry = s.bridge.entry := by
    funext t
    rw [Bridge.entry, hentries, Bridge.entry]
  have hhandles : s'.bridge.handles = s.bridge.handles := by
    funext t
    rw [Bridge.handles, hentry, Bridge.handles]
  have hitems : s'.bridge.items = s.bridge.items := by
    funext t
    rw [Bridge.items, hentry, Bridge.items]
  refine ⟨?_, ?_⟩
  · rw [hmqtt, hhandles]
    exact h.wired
  · rw [hitems, hnext]
    exact h.distinct

/-- What subscribing these topics does. -/
structure Subscribes (s s' : System κ π) (topics : List String) : Prop where
  linked : Linked s'
  items : s'.bridge.items = s.bridge.items
  running : s'.bridge.running = s.bridge.running
  held : ∀ t, s.bridge.handles t ≠ 0 ∨ t ∈ topics → s'.bridge.handles t ≠ 0

/-- `SubscribeTopicLocked` subscribes its topic. -/
theorem subscribes_topic (h : Linked s) (topic : String) (qos : Int) :
    Subscribes s (subscribeTopicLocked s topic qos) [topic] := by
  unfold subscribeTopicLocked
  dsimp only
  have hitems : update s.bridge.items topic (s.bridge.entry topic).callbacks = s.bridge.items :=
    update_eq_self ..
  split
  next hne =>
    have hhandles : update s.bridge.handles topic (s.bridge.entry topic).handle =
        s.bridge.handles := update_eq_self ..
    refine ⟨⟨?_, ?_⟩, ?_, rfl, fun t ht => ?_⟩
    · rw [handles_setEntry, hhandles]
      exact h.wired
    · rw [items_setEntry, hitems]
      exact h.distinct
    · rw [items_setEntry, hitems]
    · rw [handles_setEntry, hhandles]
      rcases ht with ht | ht
      · exact ht
      · exact List.mem_singleton.1 ht ▸ hne
  next hzero =>
    have hnew : s.mqtt.nextHandle ≠ 0 := Nat.ne_of_gt h.wired.good.next_pos
    refine ⟨⟨?_, ?_⟩, ?_, rfl, fun t ht => ?_⟩
    · rw [handles_setEntry]
      exact h.wired.take (not_not.1 hzero) qos
    · have hdistinct := h.distinct
      rw [← hitems] at hdistinct
      rw [items_setEntry]
      exact hdistinct
    · rw [items_setEntry]
      exact hitems
    · rw [handles_setEntry]
      rcases eq_or_ne t topic with rfl | hne
      · rw [update_self]
        exact hnew
      · rw [update_of_ne hne]
        exact ht.resolve_right fun hmem => hne (List.mem_singleton.1 hmem)

/-- A loop subscribes all of its topics. -/
theorem subscribes_topics (h : Linked s) (topics : List String) : Subscribes s
    (topics.foldl (fun s topic => subscribeTopicLocked s topic s.bridge.defaultQos) s) topics := by
  induction topics generalizing s with
  | nil => exact ⟨h, rfl, rfl, fun t ht => ht.resolve_right List.not_mem_nil⟩
  | cons topic topics ih =>
    have hfirst := subscribes_topic h topic s.bridge.defaultQos
    have hrest := ih hfirst.linked
    refine ⟨hrest.linked, hrest.items.trans hfirst.items, hrest.running.trans hfirst.running, ?_⟩
    intro t ht
    refine hrest.held t ?_
    rcases ht with ht | ht
    · exact .inl (hfirst.held t (.inl ht))
    · rcases List.mem_cons.1 ht with rfl | ht
      · exact .inl (hfirst.held t (.inr List.mem_cons_self))
      · exact .inr ht

/-- `Start` keeps it, if it subscribes the topics of all callbacks. -/
theorem connected_start (h : Connected s) (ready : Bool)
    (hlisted : Starts s ready → ∀ t, (s.bridge.entry t).callbacks ≠ [] → t ∈ s.bridge.topics) :
    Connected (start s ready).2 := by
  unfold start
  split
  · exact h
  next hinit =>
  split
  · exact h
  next henable =>
  split
  · exact h
  next hrunning =>
  split
  · exact h
  next hready =>
  have hstarts : Starts s ready := by simp_all [Starts]
  have hsub := subscribes_topics h.toLinked s.bridge.topics
  refine ⟨hsub.linked.of_eq rfl rfl rfl, fun _ t ht => ?_⟩
  have hitems : s.bridge.items t ≠ [] := hsub.items ▸ ht
  exact hsub.held t (.inr (hlisted hstarts t hitems))

/-- A callback has a handle of its own. -/
theorem linked_pushCallback (h : Linked s) (topic : String) (callback : π) (qos : Int) :
    Linked (pushCallback s topic callback qos) where
  wired := by
    rw [handles_pushCallback]
    exact h.wired
  distinct := by
    rw [items_pushCallback]
    exact h.distinct.append topic callback

/-- `RegisterParsedCallback` keeps it: a late topic is subscribed at once. -/
theorem connected_registerParsedCallback (h : Connected s) (topic : String) (callback : Option π)
    (qos : Int) : Connected (registerParsedCallback s topic callback qos).2 := by
  unfold registerParsedCallback
  split
  · exact h
  next callback =>
  split
  · exact h
  have hlinked := linked_pushCallback h.toLinked topic callback qos
  have hcovered : s.bridge.running = true → ∀ t, t ≠ topic →
      (pushCallback s topic callback qos).bridge.items t ≠ [] →
      (pushCallback s topic callback qos).bridge.handles t ≠ 0 := by
    intro hr t hne ht
    rw [items_pushCallback, update_of_ne hne] at ht
    rw [handles_pushCallback]
    exact h.covered hr t ht
  dsimp only
  split
  next =>
    have hsub := subscribes_topic hlinked topic qos
    refine ⟨hsub.linked, fun hr t ht => hsub.held t ?_⟩
    rw [hsub.items] at ht
    rcases eq_or_ne t topic with rfl | hne
    · exact .inr (List.mem_singleton_self t)
    · exact .inl (hcovered (hsub.running.symm.trans hr) t hne ht)
  next hlate =>
    refine ⟨hlinked, fun hr t ht => ?_⟩
    rcases eq_or_ne t topic with rfl | hne
    · exact fun hz => hlate ⟨hr, hz⟩
    · exact hcovered hr t hne ht

/-- `UnsubscribeTopicLocked` takes the subscription away with the handle. -/
theorem linked_unsubscribe (h : Linked s) (topic : String) :
    Linked (unsubscribeTopicLocked s topic) := by
  unfold unsubscribeTopicLocked
  split
  · exact h
  next entry he =>
  have hentry : s.bridge.entry topic = entry := by rw [Bridge.entry, he, Option.getD_some]
  split
  next hne =>
    subst hentry
    refine ⟨?_, ?_⟩
    · rw [handles_setEntry]
      exact h.wired.giveBack topic hne
    · have hdistinct := h.distinct
      rw [← update_eq_self topic s.bridge.items] at hdistinct
      rw [items_setEntry]
      exact hdistinct
  · exact h

/-- `UnsubscribeTopicLocked` does not stop the bridge. -/
theorem unsubscribe_running (s : System κ π) (topic : String) :
    (unsubscribeTopicLocked s topic).bridge.running = s.bridge.running := by
  unfold unsubscribeTopicLocked
  split
  · rfl
  split <;> rfl

/-- `ClearTopic` keeps it. -/
theorem connected_clearTopic (h : Connected s) (topic : String) :
    Connected (clearTopic s topic) := by
  have hlinked := linked_unsubscribe h.toLinked topic
  have hentry : ∀ t, (clearTopic s topic).bridge.entry t =
      if topic = t then {} else s.bridge.entry t := by
    intro t
    rw [clearTopic, entry_erase, unsubscribe_entry]
    split <;> rfl
  have hhandles : (clearTopic s topic).bridge.handles =
      (unsubscribeTopicLocked s topic).bridge.handles := by
    funext t
    rw [Bridge.handles, hentry, Bridge.handles, unsubscribe_entry]
    split <;> rfl
  refine ⟨⟨?_, hlinked.distinct.mono fun t => ?_⟩, fun hr t ht => ?_⟩
  · rw [hhandles]
    exact hlinked.wired
  · rw [Bridge.items, hentry, Bridge.items, unsubscribe_entry]
    split
    · exact List.nil_sublist _
    · exact List.Sublist.refl _
  · rw [Bridge.items, hentry] at ht
    rw [Bridge.handles, hentry]
    split at ht
    next => exact absurd rfl ht
    next hne =>
      rw [if_neg hne]
      exact h.covered ((unsubscribe_running s topic).symm.trans hr) t ht

/-- `ClearAll` keeps it. -/
theorem connected_clearAll (h : Linked s) : Connected (clearAll s) where
  wired := h.wired.clear
  distinct := h.distinct.mono fun _ => List.nil_sublist _
  covered := nofun

/-- What the two initialisations share keeps it. -/
theorem connected_initWith (h : Connected s) (config : Config)
    {finish : System κ π → System κ π} (hfinish : ∀ s, Connected s → Connected (finish s)) :
    Connected (initWith s config finish).2 := by
  unfold initWith
  split
  · exact h
  cases config.enable with
  | none => exact h
  | some enable =>
    have henable : Connected { s with bridge := { s.bridge with enable } } :=
      ⟨⟨h.wired, h.distinct⟩, h.covered⟩
    cases config.defaultQos with
    | none => exact henable
    | some defaultQos =>
      have hconfig : Connected { s with bridge := { s.bridge with enable, defaultQos } } :=
        ⟨⟨h.wired, h.distinct⟩, h.covered⟩
      have hlast := hfinish _ hconfig
      exact ⟨⟨hlast.wired, hlast.distinct⟩, hlast.covered⟩

/-- The default topics of `CSY2536Comm` keep it. -/
theorem connected_setting2536 (callbackFor : String → κ) (h : Connected s) :
    Connected (CSY2536Comm.setting2536CallbackForTopic callbackFor s) := by
  unfold CSY2536Comm.setting2536CallbackForTopic
  induction s.bridge.topics generalizing s with
  | nil => exact h
  | cons topic topics ih =>
    refine ih ⟨⟨?_, h.distinct⟩, h.covered⟩
    exact h.wired.direct topic (callbackFor topic) s.bridge.defaultQos

/-- An initialisation keeps it. -/
theorem connected_init (comm : Comm κ) (h : Connected s) (config : Config) :
    Connected (comm.init s config).2 := by
  cases comm with
  | json => exact connected_initWith h config fun s h => ⟨⟨h.wired, h.distinct⟩, h.covered⟩
  | csy2536 callbackFor =>
    refine connected_initWith h config fun s h => connected_setting2536 callbackFor ?_
    exact ⟨⟨h.wired, h.distinct⟩, h.covered⟩

/-- A direct registration keeps it, if it takes no entry's handle away. -/
theorem connected_registerCallback (comm : Comm κ) (h : Connected s) (topic : String)
    (callback : Option κ) (qos : Int)
    (hl : Listed s comm (.registerCallbackToFastMQTT topic callback qos)) :
    Connected (comm.registerCallbackToFastMQTT s topic callback qos).2 := by
  cases callback with
  | none => cases comm <;> exact h
  | some callback =>
    cases comm with
    | json =>
      have hs : (JsonComm.registerCallbackToFastMQTT s topic (some callback) qos).2 = s := by
        have hinit : s.bridge.initialized = false := hl
        simp [JsonComm.registerCallbackToFastMQTT, hinit]
      rw [Comm.registerCallbackToFastMQTT, hs]
      exact h
    | csy2536 callbackFor =>
      exact ⟨⟨h.wired.direct topic callback qos, h.distinct⟩, h.covered⟩

/-- **One operation.** -/
theorem connected_apply (comm : Comm κ) (h : Connected s) {op : Op κ π} (hl : Listed s comm op) :
    Connected (comm.apply s op) := by
  cases op with
  | init config => exact connected_init comm h config
  | registerParsedCallback topic callback qos =>
    exact connected_registerParsedCallback h topic callback qos
  | registerCallbackToFastMQTT topic callback qos =>
    exact connected_registerCallback comm h topic callback qos hl
  | start ready => exact connected_start h ready (by cases comm <;> exact hl)
  | clearTopic topic => exact connected_clearTopic h topic
  | clearAll => exact connected_clearAll h.toLinked
  | stop =>
    rw [Comm.apply, stop]
    split
    · exact h
    · exact connected_clearAll h.toLinked

end

/-! ## Runs -/

/-- A `FastMQTT` that the bridge has not been using. -/
structure Foreign (mqtt : FastMQTT (MessageCallback κ)) : Prop where
  good : mqtt.Good
  direct : ∀ f, ∀ e ∈ mqtt.table.callbacks f, ∀ t, e.callback ≠ .onRawMessage t

/-- A new bridge is connected. -/
theorem connected_initial (comm : Comm κ) {mqtt : FastMQTT (MessageCallback κ)}
    (h : Foreign mqtt) : Connected (comm.initial mqtt : System κ π) where
  wired := {
    good := h.good
    live := fun t ht => absurd rfl ht
    own := fun f e he t hcallback => absurd hcallback (h.direct f e he t) }
  distinct := {
    bound := fun t i hi => by simp [Comm.initial, Bridge.items, Bridge.entry] at hi
    nodup := fun t => by simp [Comm.initial, Bridge.items, Bridge.entry]
    apart := fun t i hi => by simp [Comm.initial, Bridge.items, Bridge.entry] at hi }
  covered := nofun

/-- **Every parsed callback of a running bridge is reached**, once by each message with a payload
that parses, as long as each `Start` has subscribed the topics that have parsed callbacks. -/
theorem running_reaches (comm : Comm κ) {mqtt : FastMQTT (MessageCallback κ)} (hmqtt : Foreign mqtt)
    {ops : List (Op κ π)} (hl : Along comm.step (fun s => Listed s comm) (comm.initial mqtt) ops)
    {s : System κ π} (h : run comm.step (comm.initial mqtt) ops = some s)
    (hrunning : s.bridge.running = true) (topicMatch : String → String → Bool)
    (parse : List UInt8 → Option μ) : Reaches topicMatch parse s := by
  refine Connected.reaches ?_ hrunning topicMatch parse
  refine run_along (fun s op t hl h hs => ?_) (connected_initial comm hmqtt) hl h
  obtain rfl := Option.some.inj hs
  exact connected_apply comm h hl

/-- A new `FastMQTT` has nothing of the bridge's. -/
theorem foreign_empty : Foreign ({} : FastMQTT (MessageCallback κ)) where
  good := FastMQTT.good_empty
  direct f e he := by simp at he

/-- A callback for a configured topic before `Start`, and one for another topic after it. -/
def lateRun : List (Op Nat Nat) :=
  [.init { topics := ["a"] }, .registerParsedCallback "a" (some 1) 1, .start true,
    .registerParsedCallback "b" (some 2) 1]

/-- A callback for a topic that comes after `Start` is reached. -/
theorem running_reaches_late :
    ∃ s, run (Comm.step .json) (Comm.initial .json {}) lateRun = some s ∧
      s.bridge.running = true ∧ (s.bridge.entry "b").callbacks.length = 1 ∧
      Reaches (fun filter topic => filter == topic) (fun payload => some payload.length) s := by
  have hlisted : Along (Comm.step .json) (fun s => Listed s .json) (Comm.initial .json {})
      lateRun := by
    refine (along_cons rfl).2 ⟨trivial, (along_cons rfl).2 ⟨trivial, ?_⟩⟩
    refine (along_cons rfl).2 ⟨fun _ t ht => ?_, (along_cons rfl).2 ⟨trivial, trivial⟩⟩
    rcases eq_or_ne t "a" with rfl | hne
    · decide
    · exact absurd ((congrFun (items_pushCallback "a" 1 1) t).trans (update_of_ne hne ..)) ht
  have hrun : ∃ s, run (Comm.step .json) (Comm.initial .json {}) lateRun = some s ∧
      s.bridge.running = true ∧ (s.bridge.entry "b").callbacks.length = 1 :=
    ⟨_, rfl, rfl, rfl⟩
  obtain ⟨s, hs, hrunning, hb⟩ := hrun
  exact ⟨s, hs, hrunning, hb, running_reaches .json foreign_empty hlisted hs hrunning _ _⟩

/-- A callback that is registered before `Start`, for a topic that is not configured, has no
subscription afterwards. -/
theorem unreached_after_start :
    ¬ ∀ (ops : List (Op Nat Nat)) (s : System Nat Nat),
      run (Comm.step .json) (Comm.initial .json {}) ops = some s → s.bridge.running = true →
      Reaches (fun filter topic => filter == topic) (fun payload => some payload.length) s := by
  intro h
  have hs := h [.init {}, .registerParsedCallback "b" (some 1) 1, .start true] _ rfl rfl
  obtain ⟨⟨e, he, -⟩, -⟩ := hs "b" { handle := 1, callback := 1 } (List.mem_singleton.2 rfl)
  exact List.not_mem_nil he

end MyComm
