import FastCppServer.FastMqtt.Callbacks
import FastCppServer.Lib.Transition
import Mathlib.Logic.Function.Basic

/-!
# The MQTT bridges

`JsonComm` and `CSY2536Comm` put themselves between `FastMQTT` and the callbacks of the business:
for each topic a bridge has an entry with one `FastMQTT` handle and the parsed callbacks. The two
are the same code, but for `Init` and for `RegisterCallbackToFastMQTT`.

Every operation holds the `mutex_` of its bridge and calls `FastMQTT` in between, so an operation is
a function on the bridge and the callback table.
-/

namespace MyComm

open FastMqtt Function

/-- What `FastMQTT` calls: the bridge's own `OnRawMessage`, with the topic it was subscribed for, or
any other function. -/
inductive MessageCallback (κ : Type) where
  | onRawMessage (topic : String)
  | direct (callback : κ)

/-- A callback for parsed messages, with its handle. -/
structure CallbackItem (π : Type) where
  handle : Nat
  callback : π

/-- `TopicEntry`: the handle at `FastMQTT`, and the callbacks. -/
structure TopicEntry (π : Type) where
  handle : Nat := 0
  topic : String := ""
  qos : Int := 1
  callbacks : List (CallbackItem π) := []

/-- The fields of a bridge. -/
structure Bridge (π : Type) where
  initialized : Bool := false
  running : Bool := false
  enable : Bool := true
  defaultQos : Int := 1
  topics : List String := []
  entries : Std.TreeMap String (TopicEntry π) := ∅
  nextHandle : Nat := 1

/-- A bridge with the module it registers with. `issued` records the handles it has been given. -/
structure System (κ π : Type) where
  bridge : Bridge π := {}
  mqtt : FastMQTT (MessageCallback κ) := {}
  issued : List Nat := []

/-- What a configuration says. A value that cannot be read throws. -/
structure Config where
  enable : Option Bool := some true
  defaultQos : Option Int := some 1
  /-- The strings in `topics`. -/
  topics : List String := []

variable {κ π : Type}

/-- `topic_entries_[topic]`. -/
def Bridge.entry (b : Bridge π) (topic : String) : TopicEntry π := b.entries[topic]?.getD {}

/-- The entry of a topic is replaced. -/
def System.setEntry (s : System κ π) (topic : String) (entry : TopicEntry π) : System κ π :=
  { s with bridge := { s.bridge with entries := s.bridge.entries.insert topic entry } }

/-- `FastMQTT::RegisterCallback`, as the bridge calls it. -/
def System.registerCallback (s : System κ π) (topic : String)
    (callback : Option (MessageCallback κ)) (qos : Int) : Nat × System κ π :=
  let (handle, mqtt) := s.mqtt.registerCallback topic callback qos
  (handle, { s with mqtt, issued := if handle = 0 then s.issued else handle :: s.issued })

/-- `FastMQTT::UnregisterCallback`, as the bridge calls it. -/
def System.unregisterCallback (s : System κ π) (handle : Nat) : System κ π :=
  { s with mqtt := (s.mqtt.unregisterCallback handle).2 }

/-- `SubscribeTopicLocked`: the bridge registers once for a topic. -/
def subscribeTopicLocked (s : System κ π) (topic : String) (qos : Int) : System κ π :=
  let entry := { s.bridge.entry topic with topic, qos }
  if entry.handle ≠ 0 then s.setEntry topic entry
  else
    let (handle, s') := s.registerCallback topic (some (.onRawMessage topic)) qos
    s'.setEntry topic { entry with handle }

/-- `UnsubscribeTopicLocked`. -/
def unsubscribeTopicLocked (s : System κ π) (topic : String) : System κ π :=
  match s.bridge.entries[topic]? with
  | none => s
  | some entry =>
    if entry.handle ≠ 0 then
      (s.unregisterCallback entry.handle).setEntry topic { entry with handle := 0 }
    else s

/-- `Start`, with what `FastMQTT::IsReady` says. -/
def start (s : System κ π) (ready : Bool) : Bool × System κ π :=
  if ¬ s.bridge.initialized then (false, s)
  else if ¬ s.bridge.enable then (false, s)
  else if s.bridge.running then (true, s)
  else if ¬ ready then (false, s)
  else
    let s' :=
      s.bridge.topics.foldl (fun s topic => subscribeTopicLocked s topic s.bridge.defaultQos) s
    (true, { s' with bridge := { s'.bridge with running := true } })

/-- The loop in `Stop` and in `ClearAll`. -/
def unregisterEntries (mqtt : FastMQTT (MessageCallback κ))
    (entries : List (String × TopicEntry π)) :
    FastMQTT (MessageCallback κ) :=
  entries.foldl
    (fun mqtt kv => if kv.2.handle ≠ 0 then (mqtt.unregisterCallback kv.2.handle).2 else mqtt) mqtt

/-- `ClearAll`. -/
def clearAll (s : System κ π) : System κ π :=
  { s with
    mqtt := unregisterEntries s.mqtt s.bridge.entries.toList
    bridge := { s.bridge with entries := ∅, running := false } }

/-- `Stop`. -/
def stop (s : System κ π) : System κ π := if ¬ s.bridge.initialized then s else clearAll s

/-- `ClearTopic`. -/
def clearTopic (s : System κ π) (topic : String) : System κ π :=
  let s' := unsubscribeTopicLocked s topic
  { s' with bridge := { s'.bridge with entries := s'.bridge.entries.erase topic } }

/-- The first half of `RegisterParsedCallback`: the callback goes into the entry. -/
def pushCallback (s : System κ π) (topic : String) (callback : π) (qos : Int) : System κ π :=
  let item : CallbackItem π := { handle := s.bridge.nextHandle, callback }
  let entry := s.bridge.entry topic
  let s' := { s with bridge := { s.bridge with nextHandle := s.bridge.nextHandle + 1 } }
  s'.setEntry topic { entry with topic, qos, callbacks := entry.callbacks ++ [item] }

/-- `RegisterParsedCallback`, with the handle that it returns. -/
def registerParsedCallback (s : System κ π) (topic : String) (callback : Option π) (qos : Int) :
    Nat × System κ π :=
  match callback with
  | none => (0, s)
  | some callback =>
    if ¬ s.bridge.initialized then (0, s)
    else
      let s' := pushCallback s topic callback qos
      let late := s'.bridge.running = true ∧ (s'.bridge.entry topic).handle = 0
      (s.bridge.nextHandle, if late then subscribeTopicLocked s' topic qos else s')

/-- What the two initialisations share: they are refused the second time, and what throws leaves
what has been assigned before. -/
def initWith (s : System κ π) (config : Config) (finish : System κ π → System κ π) :
    Option Bool × System κ π :=
  if s.bridge.initialized then (some false, s)
  else match config.enable with
  | none => (none, s)
  | some enable =>
    let s := { s with bridge := { s.bridge with enable } }
    match config.defaultQos with
    | none => (none, s)
    | some defaultQos =>
      let s := finish { s with bridge := { s.bridge with defaultQos } }
      (some true, { s with bridge := { s.bridge with initialized := true } })

/-- `AppendDefaultTopics`. -/
def appendDefaultTopics (s : System κ π) (topic : String) : System κ π :=
  { s with bridge := { s.bridge with topics := s.bridge.topics ++ [topic] } }

namespace JsonComm

/-- The topics of a configuration, or the default one. -/
def parseTopics (topics : List String) : List String :=
  if topics = [] then ["/json/default"] else topics

/-- `JsonComm::Init`. -/
def init (s : System κ π) (config : Config) : Option Bool × System κ π :=
  initWith s config fun s =>
    appendDefaultTopics { s with bridge := { s.bridge with topics := parseTopics config.topics } }
      "/json/default"

/-- The handle that is returned is the bridge's own; that of `FastMQTT` goes into the entry. -/
def registerCallbackToFastMQTT (s : System κ π) (topic : String) (callback : Option κ) (qos : Int) :
    Nat × System κ π :=
  match callback with
  | none => (0, s)
  | some callback =>
    if ¬ s.bridge.initialized then (0, s)
    else
      let callbackHandle := s.bridge.nextHandle
      let entry := { s.bridge.entry topic with topic, qos }
      let s := { s with bridge := { s.bridge with nextHandle := callbackHandle + 1 } }
      let (handle, s) := s.registerCallback topic (some (.direct callback)) qos
      let s := s.setEntry topic { entry with handle }
      if handle = 0 then (0, s) else (callbackHandle, s)

end JsonComm

namespace CSY2536Comm

/-- `JsonComm::RegisterCallbackToFastMQTT`: the handle that is returned is that of `FastMQTT`. -/
def registerCallbackToFastMQTT (s : System κ π) (topic : String) (callback : Option κ) (qos : Int) :
    Nat × System κ π :=
  s.registerCallback topic (callback.map .direct) qos

/-- `callbackFor` is `CSY2536CallBackFuncs::GetCallbackForTopic`, which has a callback for every
topic. -/
def setting2536CallbackForTopic (callbackFor : String → κ) (s : System κ π) : System κ π :=
  s.bridge.topics.foldl
    (fun s topic =>
      (registerCallbackToFastMQTT s topic (some (callbackFor topic)) s.bridge.defaultQos).2) s

/-- `CSY2536Comm::Initialize`. It does not read `topics`. -/
def init (callbackFor : String → κ) (s : System κ π) (config : Config) : Option Bool × System κ π :=
  initWith s config fun s =>
    setting2536CallbackForTopic callbackFor (appendDefaultTopics s "yingji/situation_ui")

end CSY2536Comm

/-! ## Sequences of calls -/

/-- Which of the two bridges. -/
inductive Comm (κ : Type) where
  | json
  | csy2536 (callbackFor : String → κ)

/-- The operations of a bridge. -/
inductive Op (κ π : Type) where
  | init (config : Config)
  | registerParsedCallback (topic : String) (callback : Option π) (qos : Int)
  | registerCallbackToFastMQTT (topic : String) (callback : Option κ) (qos : Int)
  | start (ready : Bool)
  | clearTopic (topic : String)
  | clearAll
  | stop

/-- The topics that a bridge has before any configuration. -/
def Comm.topics : Comm κ → List String
  | .json => []
  | .csy2536 _ => ["/2536/default"]

/-- A new bridge, with a `FastMQTT` that others may have used before. -/
def Comm.initial (comm : Comm κ) (mqtt : FastMQTT (MessageCallback κ)) : System κ π :=
  { bridge := { topics := comm.topics }, mqtt }

/-- The initialisation of a bridge. -/
def Comm.init : Comm κ → System κ π → Config → Option Bool × System κ π
  | .json => JsonComm.init
  | .csy2536 callbackFor => CSY2536Comm.init callbackFor

/-- `RegisterCallbackToFastMQTT` of a bridge. -/
def Comm.registerCallbackToFastMQTT :
    Comm κ → System κ π → String → Option κ → Int → Nat × System κ π
  | .json => JsonComm.registerCallbackToFastMQTT
  | .csy2536 _ => CSY2536Comm.registerCallbackToFastMQTT

/-- What an operation does. -/
def Comm.apply (comm : Comm κ) (s : System κ π) : Op κ π → System κ π
  | .init config => (comm.init s config).2
  | .registerParsedCallback topic callback qos =>
    (MyComm.registerParsedCallback s topic callback qos).2
  | .registerCallbackToFastMQTT topic callback qos =>
    (comm.registerCallbackToFastMQTT s topic callback qos).2
  | .start ready => (MyComm.start s ready).2
  | .clearTopic topic => MyComm.clearTopic s topic
  | .clearAll => MyComm.clearAll s
  | .stop => MyComm.stop s

/-- Every operation is possible at any time. -/
def Comm.step (comm : Comm κ) (s : System κ π) (op : Op κ π) : Option (System κ π) :=
  some (comm.apply s op)

/-! ## Entries -/

/-- The handle of the entry of a topic. -/
def Bridge.handles (b : Bridge π) (topic : String) : Nat := (b.entry topic).handle

/-- The callbacks of the entry of a topic. -/
def Bridge.items (b : Bridge π) (topic : String) : List (CallbackItem π) :=
  (b.entry topic).callbacks

section
variable {s : System κ π}

/-- The entries after one has been replaced. -/
theorem entry_setEntry (topic : String) (entry : TopicEntry π) (t : String) :
    (s.setEntry topic entry).bridge.entry t = if topic = t then entry else s.bridge.entry t := by
  rw [Bridge.entry, System.setEntry]
  dsimp only
  rw [Std.TreeMap.getElem?_insert]
  by_cases h : topic = t
  · simp [h]
  · simp [h, Bridge.entry]

/-- The handles after an entry has been replaced. -/
theorem handles_setEntry (topic : String) (entry : TopicEntry π) :
    (s.setEntry topic entry).bridge.handles = update s.bridge.handles topic entry.handle := by
  funext t
  rw [Bridge.handles, entry_setEntry]
  rcases eq_or_ne topic t with rfl | hne
  · rw [if_pos rfl, update_self]
  · rw [if_neg hne, update_of_ne hne.symm, Bridge.handles]

/-- The callbacks after an entry has been replaced. -/
theorem items_setEntry (topic : String) (entry : TopicEntry π) :
    (s.setEntry topic entry).bridge.items = update s.bridge.items topic entry.callbacks := by
  funext t
  rw [Bridge.items, entry_setEntry]
  rcases eq_or_ne topic t with rfl | hne
  · rw [if_pos rfl, update_self]
  · rw [if_neg hne, update_of_ne hne.symm, Bridge.items]

/-- A new callback changes no handle. -/
theorem handles_pushCallback (topic : String) (callback : π) (qos : Int) :
    (pushCallback s topic callback qos).bridge.handles = s.bridge.handles := by
  rw [pushCallback, handles_setEntry]
  exact update_eq_self ..

/-- A new callback is the last one of its topic. -/
theorem items_pushCallback (topic : String) (callback : π) (qos : Int) :
    (pushCallback s topic callback qos).bridge.items = update s.bridge.items topic
      (s.bridge.items topic ++ [{ handle := s.bridge.nextHandle, callback }]) :=
  items_setEntry ..

/-- The entries after one has been taken away. -/
theorem entry_erase (b : Bridge π) (topic t : String) :
    { b with entries := b.entries.erase topic }.entry t = if topic = t then {} else b.entry t := by
  rw [Bridge.entry]
  dsimp only
  rw [Std.TreeMap.getElem?_erase]
  by_cases h : topic = t
  · simp [h]
  · simp [h, Bridge.entry]

/-- Only the entry of the topic changes, and it gives its handle up. -/
theorem unsubscribe_entry (s : System κ π) (topic t : String) :
    (unsubscribeTopicLocked s topic).bridge.entry t =
      if topic = t then { s.bridge.entry t with handle := 0 } else s.bridge.entry t := by
  unfold unsubscribeTopicLocked
  cases he : s.bridge.entries[topic]? with
  | none =>
    dsimp only
    split
    next ht =>
      subst ht
      rw [Bridge.entry, he]
      rfl
    next => rfl
  | some entry =>
    have hentry : s.bridge.entry topic = entry := by rw [Bridge.entry, he, Option.getD_some]
    dsimp only
    split
    next =>
      rw [entry_setEntry]
      split
      next ht => rw [← ht, hentry]
      next => rfl
    next hz =>
      split
      next ht =>
        subst ht
        rw [hentry, ← not_not.1 hz]
      next => rfl

/-- An entry that is listed is that of its topic. -/
theorem mem_entries {b : Bridge π} {topic : String} {entry : TopicEntry π}
    (h : (topic, entry) ∈ b.entries.toList) : b.entry topic = entry := by
  rw [Bridge.entry, Std.TreeMap.mem_toList_iff_getElem?_eq_some.1 h]
  rfl

/-- An entry with a handle is listed. -/
theorem entry_mem {b : Bridge π} {topic : String} (h : (b.entry topic).handle ≠ 0) :
    (topic, b.entry topic) ∈ b.entries.toList := by
  rw [Bridge.entry] at h ⊢
  cases he : b.entries[topic]? with
  | none => simp [he] at h
  | some entry => exact Std.TreeMap.mem_toList_iff_getElem?_eq_some.2 he

/-- The loop takes the callbacks with the handles of the entries out of the table. -/
theorem unregisterEntries_spec {mqtt : FastMQTT (MessageCallback κ)} (h : mqtt.Good)
    (entries : List (String × TopicEntry π)) :
    (unregisterEntries mqtt entries).Good ∧
      (unregisterEntries mqtt entries).nextHandle = mqtt.nextHandle ∧
      ∀ f, (unregisterEntries mqtt entries).table.callbacks f =
        (mqtt.table.callbacks f).filter fun e => entries.all (·.2.handle ≠ e.handle) := by
  induction entries generalizing mqtt with
  | nil => exact ⟨h, rfl, fun f => by simp [unregisterEntries]⟩
  | cons kv entries ih =>
    have hstep : unregisterEntries mqtt (kv :: entries) = unregisterEntries
        (if kv.2.handle ≠ 0 then (mqtt.unregisterCallback kv.2.handle).2 else mqtt) entries := rfl
    rw [hstep]
    split
    next hne =>
      obtain ⟨hgood, hnext, hcallbacks⟩ := ih (h.unregister kv.2.handle)
      refine ⟨hgood, hnext.trans (FastMQTT.unregister_nextHandle _), fun f => ?_⟩
      rw [hcallbacks, FastMQTT.callbacks_unregister h, List.filter_filter]
      refine List.filter_congr fun e _ => ?_
      rw [List.all_cons, Bool.and_comm]
      simp [eq_comm]
    next hz =>
      obtain ⟨hgood, hnext, hcallbacks⟩ := ih h
      refine ⟨hgood, hnext, fun f => (hcallbacks f).trans (List.filter_congr fun e he => ?_)⟩
      have hpos := (h.bound f e he).1
      have hne : kv.2.handle ≠ e.handle := by
        rw [not_not.1 hz]
        exact Nat.ne_of_lt hpos
      simp [hne]

end

end MyComm
