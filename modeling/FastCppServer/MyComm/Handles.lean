import FastCppServer.Lib.Ledger
import FastCppServer.MyComm.Bridge

/-!
# What a bridge leaves behind

A bridge holds the handles of `FastMQTT` in its entries, one for each topic; `Stop` and `ClearAll`
give back what the entries hold. So what a bridge leaves behind is what it has leaked
(`Ledger.Leaked`), and it leaks in the operations that are not `Careful`, each of which does: a
direct registration of `JsonComm` on a topic that has a handle already, and the direct registrations
of `CSY2536Comm`, those of its `Initialize` included, which go into no entry at all.
-/

namespace MyComm

open FastMqtt Function Ledger Transition

variable {κ π : Type}

/-- The handles between `FastMQTT` and the entries. -/
def System.ledger (s : System κ π) : Ledger String where
  next := s.mqtt.nextHandle
  alive := s.mqtt.alive
  issued := {handle | handle ∈ s.issued}
  held := s.bridge.handles

/-- Whether an initialisation goes through. -/
def Accepted (s : System κ π) (config : Config) : Prop :=
  s.bridge.initialized = false ∧ config.enable.isSome ∧ config.defaultQos.isSome

instance (s : System κ π) (config : Config) : Decidable (Accepted s config) :=
  inferInstanceAs (Decidable (_ ∧ _))

/-- An operation that puts each handle that it gets into an empty entry. -/
def Careful (s : System κ π) : Comm κ → Op κ π → Prop
  | .json, .registerCallbackToFastMQTT topic (some _) _ =>
    s.bridge.initialized = true → (s.bridge.entry topic).handle = 0
  | .csy2536 _, .registerCallbackToFastMQTT _ (some _) _ => False
  | .csy2536 _, .init config => ¬ Accepted s config
  | _, _ => True

/-- What every operation keeps: the table is good, and the books are sound. -/
structure Kept (s : System κ π) : Prop where
  good : s.mqtt.Good
  sound : s.ledger.Sound

/-- A change that leaks nothing. -/
structure Keeps (s s' : System κ π) : Prop where
  kept : Kept s'
  leaked : Leaked s'.ledger ↔ Leaked s.ledger
  initialized : s'.bridge.initialized = s.bridge.initialized

section
variable {s s' t : System κ π}

/-- Two changes that leak nothing leak nothing together. -/
theorem Keeps.trans (h : Keeps s s') (h' : Keeps s' t) : Keeps s t :=
  ⟨h'.kept, h'.leaked.trans h.leaked, h'.initialized.trans h.initialized⟩

/-- Doing nothing leaks nothing. -/
theorem Kept.refl (h : Kept s) : Keeps s s := ⟨h, .rfl, rfl⟩

/-- A change of what is not about handles. -/
theorem Kept.of_eq (h : Kept s) (hmqtt : s'.mqtt = s.mqtt) (hledger : s'.ledger = s.ledger)
    (hinit : s'.bridge.initialized = s.bridge.initialized) : Keeps s s' :=
  ⟨⟨hmqtt ▸ h.good, hledger ▸ h.sound⟩, by rw [hledger], hinit⟩

/-- A loop over topics leaks nothing, if no round does. -/
theorem keeps_foldl {f : System κ π → String → System κ π}
    (hf : ∀ s topic, Kept s → Keeps s (f s topic)) (topics : List String) (h : Kept s) :
    Keeps s (topics.foldl f s) := by
  induction topics generalizing s with
  | nil => exact h.refl
  | cons topic topics ih => exact (hf s topic h).trans (ih (hf s topic h).kept)

/-- The books after an entry has been replaced. -/
theorem ledger_setEntry (topic : String) (entry : TopicEntry π) :
    (s.setEntry topic entry).ledger =
      { s.ledger with held := update s.ledger.held topic entry.handle } := by
  simp only [System.ledger, handles_setEntry]
  rfl

/-- A registration is an issue. -/
theorem ledger_registerCallback (h : s.mqtt.Good) (topic : String) (callback : MessageCallback κ)
    (qos : Int) : (s.registerCallback topic (some callback) qos).2.ledger = s.ledger.issue := by
  have hne : s.mqtt.nextHandle ≠ 0 := Nat.ne_of_gt h.next_pos
  have halive := FastMQTT.alive_register (m := s.mqtt) topic callback qos
  simp only [System.ledger, Ledger.issue, System.registerCallback]
  rw [halive]
  congr 1
  ext d
  simp [FastMQTT.registerCallback, hne]

/-- A registration keeps the books sound. -/
theorem kept_registerCallback (h : Kept s) (topic : String) (callback : MessageCallback κ)
    (qos : Int) : Kept (s.registerCallback topic (some callback) qos).2 where
  good := h.good.register topic callback qos
  sound := by
    rw [ledger_registerCallback h.good]
    exact h.sound.issue h.good.next_pos

/-- A registration into an entry. -/
theorem ledger_take (h : s.mqtt.Good) (topic : String) (callback : MessageCallback κ) (qos : Int)
    (entry : TopicEntry π) (he : entry.handle = s.mqtt.nextHandle) :
    ((s.registerCallback topic (some callback) qos).2.setEntry topic entry).ledger =
      s.ledger.take topic := by
  rw [ledger_setEntry, ledger_registerCallback h, he]
  rfl

/-- `SubscribeTopicLocked` leaks nothing. -/
theorem keeps_subscribe (h : Kept s) (topic : String) (qos : Int) :
    Keeps s (subscribeTopicLocked s topic qos) := by
  unfold subscribeTopicLocked
  dsimp only
  split
  next hne =>
    refine h.of_eq rfl ?_ rfl
    rw [ledger_setEntry]
    exact congrArg _ (update_eq_self ..)
  next hzero =>
    have hledger := ledger_take h.good topic (.onRawMessage topic) qos
      { s.bridge.entry topic with topic, qos, handle := s.mqtt.nextHandle } rfl
    have hempty : s.ledger.held topic = 0 := not_not.1 hzero
    refine ⟨⟨h.good.register topic _ qos, ?_⟩, ?_, rfl⟩
    · exact hledger ▸ h.sound.take h.good.next_pos topic
    · exact (congrArg Leaked hledger).to_iff.trans (leaked_take h.sound hempty)

/-- The books after a handle has been given back. -/
theorem ledger_unregister (h : s.mqtt.Good) (handle : Nat) :
    (s.unregisterCallback handle).ledger =
      { s.ledger with alive := s.ledger.alive \ {handle} } := by
  simp only [System.ledger, System.unregisterCallback, FastMQTT.unregister_nextHandle,
    FastMQTT.alive_unregister h]

/-- `UnsubscribeTopicLocked` leaks nothing. -/
theorem keeps_unsubscribe (h : Kept s) (topic : String) :
    Keeps s (unsubscribeTopicLocked s topic) := by
  unfold unsubscribeTopicLocked
  split
  next => exact h.refl
  next entry he =>
  have hentry : s.bridge.entry topic = entry := by rw [Bridge.entry, he, Option.getD_some]
  split
  next hne =>
    have hledger : ((s.unregisterCallback entry.handle).setEntry topic
        { entry with handle := 0 }).ledger = s.ledger.giveBack topic := by
      rw [ledger_setEntry, ledger_unregister h.good, ← hentry]
      rfl
    refine ⟨⟨h.good.unregister entry.handle, ?_⟩, ?_, rfl⟩
    · exact hledger ▸ h.sound.giveBack topic
    · exact (congrArg Leaked hledger).to_iff.trans (leaked_giveBack h.sound topic)
  next => exact h.refl

/-- After `UnsubscribeTopicLocked` the entry has no handle. -/
theorem unsubscribe_held (s : System κ π) (topic : String) :
    ((unsubscribeTopicLocked s topic).bridge.entry topic).handle = 0 := by
  rw [unsubscribe_entry, if_pos rfl]

/-- `ClearTopic` leaks nothing. -/
theorem keeps_clearTopic (h : Kept s) (topic : String) : Keeps s (clearTopic s topic) := by
  have hu := keeps_unsubscribe h topic
  refine hu.trans (hu.kept.of_eq rfl ?_ rfl)
  have hheld : (clearTopic s topic).bridge.handles =
      (unsubscribeTopicLocked s topic).bridge.handles := by
    funext t
    rw [Bridge.handles, clearTopic, entry_erase]
    split
    next ht => rw [Bridge.handles, ← ht, unsubscribe_held]
    next => rfl
  simp only [System.ledger, hheld]
  rfl

/-- The loop takes the handles of the entries out of the table. -/
theorem unregisterEntries_alive {mqtt : FastMQTT (MessageCallback κ)} (h : mqtt.Good)
    (entries : List (String × TopicEntry π)) :
    (unregisterEntries mqtt entries).alive =
      mqtt.alive \ {d | ∃ kv ∈ entries, kv.2.handle = d} := by
  obtain ⟨-, -, hcallbacks⟩ := unregisterEntries_spec h entries
  ext d
  simp only [FastMQTT.alive, hcallbacks, Set.mem_sdiff, Set.mem_ofPred_eq, List.mem_filter,
    List.all_eq_true, decide_eq_true_eq]
  constructor
  · rintro ⟨f, e, ⟨he, hne⟩, rfl⟩
    exact ⟨⟨f, e, he, rfl⟩, fun ⟨kv, hkv, heq⟩ => hne kv hkv heq⟩
  · rintro ⟨⟨f, e, he, rfl⟩, hne⟩
    exact ⟨f, e, ⟨he, fun kv hkv heq => hne ⟨kv, hkv, heq⟩⟩, rfl⟩

/-- After `ClearAll` no entry has a handle. -/
theorem clearAll_held (s : System κ π) (t : String) :
    ((clearAll s).bridge.entry t).handle = 0 := by
  rw [Bridge.entry, clearAll, Std.TreeMap.getElem?_emptyc, Option.getD_none]

/-- `ClearAll` leaks nothing. -/
theorem keeps_clearAll (h : Kept s) : Keeps s (clearAll s) := by
  obtain ⟨hgood, hnext, -⟩ := unregisterEntries_spec h.good s.bridge.entries.toList
  have halive := unregisterEntries_alive h.good s.bridge.entries.toList
  have hledger : (clearAll s).ledger = s.ledger.giveBackAll := by
    have hheld : (clearAll s).ledger.held = fun _ => 0 := funext fun t => clearAll_held s t
    have hmem : ∀ d ∈ s.mqtt.alive, (∃ kv ∈ s.bridge.entries.toList, kv.2.handle = d) ↔
        ∃ t, s.ledger.held t = d := by
      intro d hd
      have hpos : d ≠ 0 := Nat.ne_of_gt (h.sound.alive_bound d hd).1
      constructor
      · rintro ⟨⟨topic, entry⟩, hkv, rfl⟩
        exact ⟨topic, congrArg TopicEntry.handle (mem_entries hkv)⟩
      · rintro ⟨t, rfl⟩
        exact ⟨_, entry_mem hpos, rfl⟩
    have hrest : (clearAll s).ledger.alive = s.ledger.alive \ Set.range s.ledger.held := by
      refine halive.trans ?_
      ext d
      exact and_congr_right fun hd => not_congr (hmem d hd)
    simp only [Ledger.giveBackAll, ← hheld, ← hrest]
    exact congrArg (Ledger.mk · _ _ _) hnext
  refine ⟨⟨hgood, ?_⟩, ?_, rfl⟩
  · exact hledger ▸ h.sound.giveBackAll
  · exact (congrArg Leaked hledger).to_iff.trans (leaked_giveBackAll h.sound)

/-- `Start` leaks nothing. -/
theorem keeps_start (h : Kept s) (ready : Bool) : Keeps s (start s ready).2 := by
  unfold start
  split
  · exact h.refl
  split
  · exact h.refl
  split
  · exact h.refl
  split
  · exact h.refl
  have hfold := keeps_foldl (fun s topic h => keeps_subscribe h topic s.bridge.defaultQos)
    s.bridge.topics h
  exact hfold.trans (hfold.kept.of_eq rfl rfl rfl)

/-- A callback of the bridge's own leaks nothing. -/
theorem keeps_pushCallback (h : Kept s) (topic : String) (callback : π) (qos : Int) :
    Keeps s (pushCallback s topic callback qos) := by
  refine h.of_eq rfl ?_ rfl
  simp only [System.ledger, handles_pushCallback]
  rfl

/-- `RegisterParsedCallback` leaks nothing. -/
theorem keeps_registerParsedCallback (h : Kept s) (topic : String) (callback : Option π)
    (qos : Int) : Keeps s (registerParsedCallback s topic callback qos).2 := by
  unfold registerParsedCallback
  split
  · exact h.refl
  next callback =>
  split
  · exact h.refl
  have hpush := keeps_pushCallback h topic callback qos
  dsimp only
  split
  · exact hpush.trans (keeps_subscribe hpush.kept topic qos)
  · exact hpush

/-! ## Direct registrations -/

/-- `JsonComm` puts the new handle into the entry, over the one that is there. -/
theorem json_registerCallback (h : Kept s) (hinit : s.bridge.initialized = true) (topic : String)
    (callback : κ) (qos : Int) {s' : System κ π}
    (hs : s' = (JsonComm.registerCallbackToFastMQTT s topic (some callback) qos).2) :
    Kept s' ∧ s'.ledger = s.ledger.take topic ∧ s'.bridge.initialized = true := by
  have hne : s.mqtt.nextHandle ≠ 0 := Nat.ne_of_gt h.good.next_pos
  let s₁ := { s with bridge := { s.bridge with nextHandle := s.bridge.nextHandle + 1 } }
  have hs₁ : s' = (s₁.registerCallback topic (some (.direct callback)) qos).2.setEntry topic
      { s.bridge.entry topic with topic, qos, handle := s.mqtt.nextHandle } := by
    rw [hs]
    simp [JsonComm.registerCallbackToFastMQTT, hinit, System.registerCallback,
      FastMQTT.registerCallback, hne, s₁]
  have hledger : s'.ledger = s.ledger.take topic :=
    hs₁ ▸ ledger_take (s := s₁) h.good topic (.direct callback) qos _ rfl
  refine ⟨⟨?_, hledger ▸ h.sound.take h.good.next_pos topic⟩, hledger, ?_⟩
  · exact hs₁ ▸ h.good.register topic _ qos
  · exact hs₁ ▸ hinit

/-- The direct registrations of `CSY2536Comm` go into no entry. -/
theorem leaks_csy2536 (h : Kept s) (topic : String) (callback : κ) (qos : Int) :
    Kept (CSY2536Comm.registerCallbackToFastMQTT s topic (some callback) qos).2 ∧
      Leaked (CSY2536Comm.registerCallbackToFastMQTT s topic (some callback) qos).2.ledger := by
  have hledger := ledger_registerCallback h.good topic (.direct callback) qos
  exact ⟨kept_registerCallback h topic _ qos, hledger ▸ leaked_issue h.sound h.good.next_pos⟩

/-- **The default topics of `CSY2536Comm` leak** each handle that they register. -/
theorem leaks_setting2536 (callbackFor : String → κ) (h : Kept s) (topics : List String)
    (hl : topics ≠ [] ∨ Leaked s.ledger) :
    let s' := topics.foldl (fun s topic => (CSY2536Comm.registerCallbackToFastMQTT s topic
      (some (callbackFor topic)) s.bridge.defaultQos).2) s
    Kept s' ∧ Leaked s'.ledger := by
  induction topics generalizing s with
  | nil => exact ⟨h, hl.resolve_left fun hn => hn rfl⟩
  | cons topic topics ih =>
    obtain ⟨hkept, hleaked⟩ := leaks_csy2536 h topic (callbackFor topic) s.bridge.defaultQos
    exact ih hkept (.inr hleaked)

/-! ## One operation -/

/-- What an operation does to the books: it leaks if it is not careful, and no leak is mended. -/
structure Accounts (careful : Prop) (s s' : System κ π) : Prop where
  kept : Kept s'
  leaked : Leaked s'.ledger ↔ Leaked s.ledger ∨ ¬ careful

/-- What leaks nothing is a careful operation. -/
theorem Keeps.accounts (h : Keeps s s') {careful : Prop} (hc : careful) : Accounts careful s s' :=
  ⟨h.kept, by simp [h.leaked, hc]⟩

/-- An initialisation that does not go through is about no handle. -/
theorem initWith_rejected (h : Kept s) {config : Config} (hr : ¬ Accepted s config)
    (finish : System κ π → System κ π) : Keeps s (initWith s config finish).2 := by
  unfold initWith
  split
  · exact h.refl
  next hinit =>
  cases henable : config.enable with
  | none => exact h.refl
  | some enable =>
    cases hqos : config.defaultQos with
    | none => exact h.of_eq rfl rfl rfl
    | some qos => exact absurd ⟨by simpa using hinit, by simp [henable], by simp [hqos]⟩ hr

/-- What the two initialisations share, where they go through. -/
theorem initWith_accepted {config : Config} (ha : Accepted s config)
    (finish : System κ π → System κ π) : ∃ enable defaultQos,
      let s' := finish { s with bridge := { s.bridge with enable, defaultQos } }
      (initWith s config finish).2 =
        { s' with bridge := { s'.bridge with initialized := true } } := by
  obtain ⟨hinit, henable, hqos⟩ := ha
  obtain ⟨enable, henable⟩ := Option.isSome_iff_exists.1 henable
  obtain ⟨qos, hqos⟩ := Option.isSome_iff_exists.1 hqos
  refine ⟨enable, qos, ?_⟩
  simp [initWith, hinit, henable, hqos]

/-- What an initialisation does to the books. -/
theorem init_accounts (comm : Comm κ) (h : Kept s) (config : Config) :
    Accounts (Careful s comm (.init config)) s (comm.init s config).2 := by
  by_cases ha : Accepted s config
  · cases comm with
    | json =>
      obtain ⟨enable, qos, hs⟩ := initWith_accepted ha fun s : System κ π => appendDefaultTopics
        { s with bridge := { s.bridge with topics := JsonComm.parseTopics config.topics } }
        "/json/default"
      rw [Comm.init, JsonComm.init, hs]
      exact ⟨⟨h.good, h.sound⟩, by simp [Careful]; rfl⟩
    | csy2536 callbackFor =>
      obtain ⟨enable, qos, hs⟩ := initWith_accepted ha fun s : System κ π =>
        CSY2536Comm.setting2536CallbackForTopic callbackFor
          (appendDefaultTopics s "yingji/situation_ui")
      rw [Comm.init, CSY2536Comm.init, hs]
      let s₁ := { s with bridge := { s.bridge with
        enable, defaultQos := qos, topics := s.bridge.topics ++ ["yingji/situation_ui"] } }
      have hs₁ : Kept s₁ := ⟨h.good, h.sound⟩
      obtain ⟨hkept, hleaked⟩ := leaks_setting2536 callbackFor hs₁ s₁.bridge.topics
        (.inl (by simp [s₁]))
      exact ⟨⟨hkept.good, hkept.sound⟩, iff_of_true hleaked (.inr fun hc => hc ha)⟩
  · cases comm with
    | json => exact (initWith_rejected h ha _).accounts trivial
    | csy2536 callbackFor => exact (initWith_rejected h ha _).accounts ha

/-- What a direct registration does to the books. -/
theorem registerCallback_accounts (comm : Comm κ) (h : Kept s) (topic : String)
    (callback : Option κ) (qos : Int) :
    Accounts (Careful s comm (.registerCallbackToFastMQTT topic callback qos)) s
      (comm.registerCallbackToFastMQTT s topic callback qos).2 := by
  cases callback with
  | none => cases comm <;> exact h.refl.accounts trivial
  | some callback =>
    cases comm with
    | json =>
      cases hinit : s.bridge.initialized with
      | false =>
        have hs : (JsonComm.registerCallbackToFastMQTT s topic (some callback) qos).2 = s := by
          simp [JsonComm.registerCallbackToFastMQTT, hinit]
        rw [Comm.registerCallbackToFastMQTT, hs]
        exact h.refl.accounts fun ht => by simp [hinit] at ht
      | true =>
        obtain ⟨hkept, hledger, -⟩ := json_registerCallback h hinit topic callback qos rfl
        refine ⟨hkept, ?_⟩
        rw [Comm.registerCallbackToFastMQTT, hledger]
        rcases eq_or_ne (s.ledger.held topic) 0 with hz | hne
        · rw [leaked_take h.sound hz]
          simp only [Careful]
          exact (or_iff_left fun hc => hc fun _ => hz).symm
        · have hcareless :
              ¬ Careful s .json (.registerCallbackToFastMQTT topic (some callback) qos) :=
            fun hc => hne (hc hinit)
          exact iff_of_true (leaked_take_held h.sound h.good.next_pos hne) (.inr hcareless)
    | csy2536 callbackFor =>
      obtain ⟨hkept, hleaked⟩ := leaks_csy2536 h topic callback qos
      exact ⟨hkept, by simp [Careful, Comm.registerCallbackToFastMQTT, hleaked]⟩

/-- **One operation.** -/
theorem apply_accounts (comm : Comm κ) (h : Kept s) (op : Op κ π) :
    Accounts (Careful s comm op) s (comm.apply s op) := by
  cases op with
  | init config => exact init_accounts comm h config
  | registerParsedCallback topic callback qos =>
    exact (keeps_registerParsedCallback h topic callback qos).accounts (by cases comm <;> trivial)
  | registerCallbackToFastMQTT topic callback qos =>
    exact registerCallback_accounts comm h topic callback qos
  | start ready => exact (keeps_start h ready).accounts (by cases comm <;> trivial)
  | clearTopic topic => exact (keeps_clearTopic h topic).accounts (by cases comm <;> trivial)
  | clearAll => exact (keeps_clearAll h).accounts (by cases comm <;> trivial)
  | stop =>
    have hc : Careful s comm .stop := by cases comm <;> trivial
    simp only [Comm.apply, MyComm.stop]
    split
    · exact h.refl.accounts hc
    · exact (keeps_clearAll h).accounts hc

/-- A bridge that has not been initialised holds nothing. -/
def Idle (s : System κ π) : Prop :=
  s.bridge.initialized = true ∨ ∀ t, (s.bridge.entry t).handle = 0

/-- A bridge that holds nothing has nothing to unsubscribe. -/
theorem unsubscribe_idle (hs : ∀ t, (s.bridge.entry t).handle = 0) (topic : String) :
    unsubscribeTopicLocked s topic = s := by
  unfold unsubscribeTopicLocked
  split
  next => rfl
  next entry he =>
    have hz := hs topic
    rw [Bridge.entry, he, Option.getD_some] at hz
    rw [if_neg (not_not.2 hz)]

/-- A bridge that has been initialised stays so. -/
theorem apply_initialized (comm : Comm κ) (h : Kept s) (hinit : s.bridge.initialized = true)
    (op : Op κ π) : (comm.apply s op).bridge.initialized = true := by
  cases op with
  | init config =>
    cases comm <;>
      simp [Comm.apply, Comm.init, JsonComm.init, CSY2536Comm.init, initWith, hinit]
  | registerParsedCallback topic callback qos =>
    exact (keeps_registerParsedCallback h topic callback qos).initialized.trans hinit
  | registerCallbackToFastMQTT topic callback qos =>
    cases comm with
    | csy2536 callbackFor => exact hinit
    | json =>
      cases callback with
      | none => exact hinit
      | some callback => exact (json_registerCallback h hinit topic callback qos rfl).2.2
  | start ready => exact (keeps_start h ready).initialized.trans hinit
  | clearTopic topic => exact (keeps_clearTopic h topic).initialized.trans hinit
  | clearAll => exact hinit
  | stop =>
    rw [Comm.apply, MyComm.stop, if_neg (not_not.2 hinit)]
    exact hinit

/-- A bridge that holds nothing is idle after its initialisation has been refused. -/
theorem initWith_idle (hzero : ∀ t, (s.bridge.entry t).handle = 0) (config : Config)
    (finish : System κ π → System κ π) : Idle (initWith s config finish).2 := by
  unfold initWith
  split
  · exact .inr hzero
  cases config.enable with
  | none => exact .inr hzero
  | some enable =>
    cases config.defaultQos with
    | none => exact .inr hzero
    | some qos => exact .inl rfl

/-- A bridge that has not been initialised holds nothing after any operation. -/
theorem apply_uninitialized (comm : Comm κ) (hzero : ∀ t, (s.bridge.entry t).handle = 0)
    (hinit : ¬ s.bridge.initialized = true) (op : Op κ π) : Idle (comm.apply s op) := by
  cases op with
  | init config => cases comm <;> exact initWith_idle hzero config _
  | registerParsedCallback topic callback qos =>
    cases callback with
    | none => exact .inr hzero
    | some callback =>
      rw [Comm.apply, MyComm.registerParsedCallback, if_pos hinit]
      exact .inr hzero
  | registerCallbackToFastMQTT topic callback qos =>
    cases comm with
    | csy2536 callbackFor => exact .inr hzero
    | json =>
      cases callback with
      | none => exact .inr hzero
      | some callback =>
        rw [Comm.apply, Comm.registerCallbackToFastMQTT, JsonComm.registerCallbackToFastMQTT,
          if_pos hinit]
        exact .inr hzero
  | start ready =>
    rw [Comm.apply, MyComm.start, if_pos hinit]
    exact .inr hzero
  | clearTopic topic =>
    refine .inr fun t => ?_
    rw [Comm.apply, MyComm.clearTopic, unsubscribe_idle hzero, entry_erase]
    split
    · rfl
    · exact hzero t
  | clearAll => exact .inr (clearAll_held s)
  | stop =>
    rw [Comm.apply, MyComm.stop, if_pos hinit]
    exact .inr hzero

/-- **Every operation keeps an idle bridge idle.** -/
theorem apply_idle (comm : Comm κ) (h : Kept s) (hidle : Idle s) (op : Op κ π) :
    Idle (comm.apply s op) := by
  by_cases hinit : s.bridge.initialized = true
  · exact .inl (apply_initialized comm h hinit op)
  · exact apply_uninitialized comm (hidle.resolve_left hinit) hinit op

/-- After `Stop` or `ClearAll`, a bridge holds nothing. -/
theorem stopped_held (comm : Comm κ) (hidle : Idle s) {op : Op κ π}
    (hop : op = .stop ∨ op = .clearAll) (t : String) :
    ((comm.apply s op).bridge.entry t).handle = 0 := by
  rcases hop with rfl | rfl
  · rw [Comm.apply, MyComm.stop]
    split
    next hinit => exact hidle.resolve_left hinit t
    next => exact clearAll_held s t
  · exact clearAll_held s t

end

/-! ## Runs -/

/-- A new bridge holds no handle. -/
theorem held_initial (comm : Comm κ) (mqtt : FastMQTT (MessageCallback κ)) (topic : String) :
    (comm.initial mqtt : System κ π).ledger.held topic = 0 := by
  simp [System.ledger, Comm.initial, Bridge.handles, Bridge.entry]

/-- The books of a new bridge are sound. -/
theorem kept_initial (comm : Comm κ) {mqtt : FastMQTT (MessageCallback κ)} (h : mqtt.Good) :
    Kept (comm.initial mqtt : System κ π) where
  good := h
  sound := {
    alive_bound := fun _ ⟨f, e, he, hd⟩ => hd ▸ h.bound f e he
    issued_lt := nofun
    held_alive := fun t ht => absurd (held_initial comm mqtt t) ht
    held_issued := fun t ht => absurd (held_initial comm mqtt t) ht
    held_inj := fun t _ ht => absurd (held_initial comm mqtt t) ht }

/-- A run leaks if and only if one of its operations is not careful. -/
theorem run_accounts (comm : Comm κ) {ops : List (Op κ π)} {s₀ s : System κ π} (h₀ : Kept s₀)
    (hidle : Idle s₀) (h : run comm.step s₀ ops = some s) :
    Kept s ∧ Idle s ∧ (Leaked s.ledger ↔
      Leaked s₀.ledger ∨ ¬ Along comm.step (fun s => Careful s comm) s₀ ops) := by
  induction ops generalizing s₀ with
  | nil =>
    cases h
    exact ⟨h₀, hidle, by simp [Along]⟩
  | cons op ops ih =>
    have hstep : comm.step s₀ op = some (comm.apply s₀ op) := rfl
    rw [run_cons, hstep, Option.bind_some] at h
    have hop := apply_accounts comm h₀ op
    obtain ⟨hkept, hidle', hleaked⟩ := ih hop.kept (apply_idle comm h₀ hidle op) h
    refine ⟨hkept, hidle', ?_⟩
    rw [hleaked, hop.leaked, along_cons hstep, not_and_or, or_assoc]

/-- No callback that the bridge has ever registered is in the table. -/
def LeavesNothing (s : System κ π) : Prop :=
  ∀ handle ∈ s.issued, ∀ f, ∀ e ∈ s.mqtt.table.callbacks f, e.handle ≠ handle

/-- **What a bridge leaves behind.** After a `Stop` or a `ClearAll` no callback of the bridge is in
the table if and only if every operation before it was careful. -/
theorem leaves_nothing_iff (comm : Comm κ) {mqtt : FastMQTT (MessageCallback κ)} (hmqtt : mqtt.Good)
    {ops : List (Op κ π)} {s s' : System κ π} (h : run comm.step (comm.initial mqtt) ops = some s)
    {op : Op κ π} (hop : op = .stop ∨ op = .clearAll) (hs : comm.step s op = some s') :
    LeavesNothing s' ↔
      Along comm.step (fun s => Careful s comm) (comm.initial mqtt) ops := by
  obtain rfl := Option.some.inj hs
  obtain ⟨hkept, hidle, hleaked⟩ :=
    run_accounts comm (kept_initial comm hmqtt) (.inr fun _ => rfl) h
  have hlast := apply_accounts comm hkept op
  have hcareful : Careful s comm op := by rcases hop with rfl | rfl <;> cases comm <;> trivial
  have hinitial : ¬ Leaked (comm.initial mqtt : System κ π).ledger := fun ⟨_, hd, _⟩ => nomatch hd
  have hiff : Leaked (comm.apply s op).ledger ↔
      ¬ Along comm.step (fun s => Careful s comm) (comm.initial mqtt) ops := by
    rw [hlast.leaked, or_iff_left (not_not.2 hcareful), hleaked, or_iff_right hinitial]
  rw [← not_iff_not, ← hiff, leaked_iff hlast.kept.sound (stopped_held comm hidle hop)]
  simp only [LeavesNothing, System.ledger, FastMQTT.alive, Set.mem_ofPred_eq, not_forall, not_not,
    exists_prop]

/-- A run of `JsonComm` with a direct registration on a topic of its own. -/
def directRun : List (Op Nat Nat) :=
  [.init { topics := ["a"] }, .start true, .registerParsedCallback "a" (some 1) 1,
    .registerCallbackToFastMQTT "b" (some 2) 1]

/-- A direct registration on a topic of its own is given back by `Stop`. -/
theorem leaves_nothing_direct :
    ∃ s s', run (Comm.step .json) (Comm.initial .json {}) directRun = some s ∧
      Comm.step .json s .stop = some s' ∧ s'.issued = [3, 2, 1] ∧ LeavesNothing s' := by
  have hcareful : Along (Comm.step .json) (fun s => Careful s .json) (Comm.initial .json {})
      directRun := by
    refine (along_cons rfl).2 ⟨trivial, (along_cons rfl).2 ⟨trivial, ?_⟩⟩
    exact (along_cons rfl).2 ⟨trivial, (along_cons rfl).2 ⟨fun _ => rfl, trivial⟩⟩
  have hrun : ∃ s, run (Comm.step .json) (Comm.initial .json {}) directRun = some s := ⟨_, rfl⟩
  obtain ⟨s, hs⟩ := hrun
  refine ⟨s, _, hs, rfl, ?_, ?_⟩
  · obtain rfl := Option.some.inj hs
    decide
  · exact (leaves_nothing_iff .json FastMQTT.good_empty hs (.inl rfl) rfl).2 hcareful

/-- A second direct registration takes the place of the first handle in the entry; and what
`Initialize` of `CSY2536Comm` registers is in no entry. -/
theorem left_behind :
    (¬ ∀ (ops : List (Op Nat Nat)) (s s' : System Nat Nat),
      run (Comm.step .json) (Comm.initial .json {}) ops = some s →
      Comm.step .json s .stop = some s' → LeavesNothing s') ∧
    ¬ ∀ (ops : List (Op Nat Nat)) (s s' : System Nat Nat),
      run (Comm.step (.csy2536 fun _ => 0)) (Comm.initial (.csy2536 fun _ => 0) {}) ops = some s →
      Comm.step (.csy2536 fun _ => 0) s .stop = some s' → LeavesNothing s' := by
  constructor
  · intro h
    have hs := h [.init {}, .registerCallbackToFastMQTT "a" (some 1) 1,
      .registerCallbackToFastMQTT "a" (some 2) 1] _ _ rfl rfl
    exact hs 1 (by decide) "a" _ (List.mem_singleton.2 rfl) rfl
  · intro h
    have hs := h [.init {}] _ _ rfl rfl
    exact hs 1 (by decide) "/2536/default" _ (List.mem_singleton.2 rfl) rfl

end MyComm
