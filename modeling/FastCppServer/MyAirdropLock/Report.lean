import FastCppServer.MyAirdropLock.AirdropLock

/-!
# What is reported of the lock

`GetStatus` reports the state that the manager keeps. `OpenDropper` and `CloseDropper` set it after
a whole command has gone through, and whatever fails sets it to an error. But `Init` sets it to
closed without a command: the protection that should send the `lock_cmd` is commented out, and a
device that has been told to open stays open. And `SetDutyCycle` leaves it as it is, though its
command can be the `open_cmd` or the `lock_cmd` of the configuration.

So the report is right exactly as long as no `Init` opens the port of a device that has been told to
open since it was told to lock, and no duty cycle is one of the two commands (`Careful`).
-/

namespace MyAirdropLock

open MyData Transition

/-- Where closed is reported, no part of an `open_cmd` has been written to the device since it was
given a whole `lock_cmd`; where open is reported, the last of the two that it was given is an
`open_cmd`. -/
structure Safe (m : Manager) : Prop where
  closed : m.getStatus.state = "closed" →
    ¬ Since (Write.opens m.config.device) (Write.locks m.config.device) m.log
  opened : m.getStatus.isOpen = true →
    Since (Write.opensFully m.config.device) (Write.locks m.config.device) m.log

/-- The configuration has two different commands, if it is accepted. -/
def Label.Distinct (dump : UInt64 → String) : Label → Prop
  | .init config _ => ∀ cfg, parseConfig dump config = .ok cfg → cfg.openCmd ≠ cfg.lockCmd
  | _ => True

/-- An `Init` that gets to the port finds a device that has not been told to open since it was told
to lock; a duty cycle that goes through is no `open_cmd` while closed is reported, and no `lock_cmd`
while open is. -/
def Careful (dump : UInt64 → String) (m : Manager) : Label → Prop
  | .init config none =>
    match parseConfig dump config with
    | .ok cfg =>
      cfg.enabled = true → ¬ Since (Write.opens cfg.device) (Write.locks cfg.device) m.log
    | .error _ => True
  | .setDutyCycle dutyCycle o =>
    match normalizeDutyCycleCommand dutyCycle with
    | .ok command =>
      o.succeeds command = true →
        (m.state = .closed → command ≠ m.config.openCmd) ∧
        (m.state = .opened → command ≠ m.config.lockCmd)
    | .error _ => True
  | _ => True

instance (dump : UInt64 → String) (m : Manager) : ∀ l, Decidable (Careful dump m l)
  | .init config none =>
    match h : parseConfig dump config with
    | .ok cfg =>
      decidable_of_iff (cfg.enabled = true →
        ¬ Since (Write.opens cfg.device) (Write.locks cfg.device) m.log) (by simp [Careful, h])
    | .error _ => isTrue (by simp [Careful, h])
  | .setDutyCycle dutyCycle o =>
    match h : normalizeDutyCycleCommand dutyCycle with
    | .ok command =>
      decidable_of_iff (o.succeeds command = true →
        (m.state = .closed → command ≠ m.config.openCmd) ∧
        (m.state = .opened → command ≠ m.config.lockCmd)) (by simp [Careful, h])
    | .error _ => isTrue (by simp [Careful, h])
  | .init _ (some _) | .start | .openDropper _ | .closeDropper _ | .stop => isTrue trivial

/-- What a careful `Init` asks: when it really starts the manager, no opening has been written since
the last lock. -/
theorem careful_init {dump : UInt64 → String} {m : Manager} {config : Json} :
    Careful dump m (.init config none) ↔ ∀ cfg, parseConfig dump config = .ok cfg →
      cfg.enabled = true → ¬ Since (Write.opens cfg.device) (Write.locks cfg.device) m.log := by
  cases h : parseConfig dump config <;> simp [Careful, h]

/-- What a careful `SetDutyCycle` asks: a command that is written must not open a lock reported
closed, nor close one reported open. -/
theorem careful_setDutyCycle {dump : UInt64 → String} {m : Manager} {dutyCycle : String}
    {o : Outcome} : Careful dump m (.setDutyCycle dutyCycle o) ↔
      ∀ command, normalizeDutyCycleCommand dutyCycle = .ok command → o.succeeds command = true →
        (m.state = .closed → command ≠ m.config.openCmd) ∧
        (m.state = .opened → command ≠ m.config.lockCmd) := by
  cases h : normalizeDutyCycleCommand dutyCycle <;> simp [Careful, h]

/-! ## What is kept -/

/-- The port is that of the configuration, and closed and open are reported only while commands can
be sent to it. -/
structure Inv (m : Manager) : Prop where
  distinct : m.config.openCmd ≠ m.config.lockCmd
  port : ∀ p, m.port = some p → p = m.config.device
  works : m.state = .closed ∨ m.state = .opened →
    m.initialized = true ∧ m.config.enabled = true ∧ m.port = some m.config.device

variable {dump : UInt64 → String} {m m' : Manager} {l : Label} {o : Outcome}
  {command actionName : String}

/-- Only the closed state is reported as `closed`. -/
theorem State.toString_closed {state : State} : state.toString = "closed" ↔ state = .closed := by
  cases state <;> decide

/-- The report is right when a closed lock has no opening after its last lock, and an open one
has. -/
theorem safe_iff : Safe m ↔
    (m.state = .closed →
      ¬ Since (Write.opens m.config.device) (Write.locks m.config.device) m.log) ∧
    (m.state = .opened →
      Since (Write.opensFully m.config.device) (Write.locks m.config.device) m.log) := by
  constructor
  · rintro ⟨hclosed, hopened⟩
    exact ⟨fun h => hclosed (State.toString_closed.2 h), fun h => hopened (decide_eq_true h)⟩
  · rintro ⟨hclosed, hopened⟩
    exact ⟨fun h => hclosed (State.toString_closed.1 h), fun h => hopened (of_decide_eq_true h)⟩

/-! ## Errors -/

/-- `SetError` leaves a state that is neither closed nor open. -/
theorem setError_state (m : Manager) (error : String) :
    (m.setError error).state ≠ .closed ∧ (m.setError error).state ≠ .opened := by
  unfold Manager.setError
  split <;> exact ⟨fun h => (by cases h), fun h => by cases h⟩

/-- What reports neither is right. -/
theorem safe_of_state (h : m.state ≠ .closed ∧ m.state ≠ .opened) : Safe m :=
  safe_iff.2 ⟨fun hc => absurd hc h.1, fun ho => absurd ho h.2⟩

/-- A manager in the error state makes no report that could be wrong. -/
theorem setError_safe (m : Manager) (error : String) : Safe (m.setError error) :=
  safe_of_state (setError_state m error)

/-- `SetError` keeps the invariant, which speaks of the port and the configuration only. -/
theorem setError_inv (hdistinct : m.config.openCmd ≠ m.config.lockCmd)
    (hport : ∀ p, m.port = some p → p = m.config.device) (error : String) :
    Inv (m.setError error) :=
  ⟨hdistinct, hport, fun hw =>
    (hw.elim (setError_state m error).1 (setError_state m error).2).elim⟩

/-! ## A command -/

/-- A write succeeds when the port raises no error and takes the whole command. -/
theorem Outcome.succeeds_iff :
    o.succeeds command = true ↔ o.error = "" ∧ o.written = command.length := by
  simp [Outcome.succeeds]

/-- A command that has gone through is on the line as a whole. -/
theorem Outcome.succeeds_sent (h : o.succeeds command = true) : command.length ≤ o.sent := by
  obtain ⟨-, hwritten⟩ := succeeds_iff.1 h
  cases o with
  | returns sent => exact Nat.le_of_eq hwritten.symm
  | throws what sent =>
    rw [← hwritten]
    exact Nat.zero_le sent

/-- **What `SendCommandLocked` does**: it fails before or after it has written to the port, or the
command has gone through. -/
theorem sendCommandLocked_cases (m : Manager) (command actionName : String) (o : Outcome)
    (hname : "初始化".toList.isPrefixOf actionName.toList = false) :
    (∃ m₀ error, m.sendCommandLocked command actionName o = (false, m₀.setError error) ∧
      (Inv m → Inv m₀) ∧
      (o.succeeds command = true → Inv m → m.state ≠ .closed ∧ m.state ≠ .opened)) ∨
    ∃ port, m.initialized = true ∧ m.config.enabled = true ∧ m.port = some port ∧
      o.succeeds command = true ∧ m.sendCommandLocked command actionName o =
        (true, { m with
          log := m.log ++ [m.write port command o], lastCommand := command, lastError := "" }) := by
  have hidle : ∀ {P : Prop}, (m.initialized = true → m.config.enabled = true →
      m.port = some m.config.device → False) →
        (P → Inv m → m.state ≠ .closed ∧ m.state ≠ .opened) := by
    intro P hno _ hinv
    have hworks : ∀ {state}, (state = State.closed ∨ state = .opened) → m.state ≠ state := by
      rintro state hstate rfl
      obtain ⟨hi, he, hp⟩ := hinv.works hstate
      exact hno hi he hp
    exact ⟨hworks (.inl rfl), hworks (.inr rfl)⟩
  unfold Manager.sendCommandLocked
  split
  next hinit =>
    refine .inl ⟨m, _, rfl, id, hidle fun hi => ?_⟩
    rw [hi] at hinit
    cases hinit
  next hinit =>
    rw [hname] at hinit
    split
    next henabled =>
      refine .inl ⟨m, _, rfl, id, hidle fun _ he => ?_⟩
      rw [he] at henabled
      cases henabled
    next henabled =>
      split
      next hport =>
        refine .inl ⟨m, _, rfl, id, hidle fun _ _ hp => ?_⟩
        rw [hport] at hp
        cases hp
      next port hport =>
        dsimp only
        split
        next hok =>
          exact .inr ⟨port, by simpa using hinit, by simpa using henabled, hport, hok, rfl⟩
        next hok =>
          exact .inl ⟨_, _, rfl, fun h => ⟨h.distinct, h.port, h.works⟩, fun hsucceeds =>
            absurd hsucceeds hok⟩

/-- A duty cycle is not the empty command. -/
theorem normalizeDutyCycleCommand_length {dutyCycle : String}
    (h : normalizeDutyCycleCommand dutyCycle = .ok command) : 0 < command.length := by
  unfold normalizeDutyCycleCommand at h
  split at h
  next => cases h
  next c rest _ =>
    generalize (if c = 'F' ∨ c = 'f' then rest else c :: rest) = value at h
    dsimp only at h
    split at h
    next => cases h
    next =>
      split at h
      next => cases h
      next =>
        split at h
        next => cases h
        next =>
          cases h
          rw [String.length_ofList]
          exact Nat.succ_pos _

/-! ## A step -/

/-- The invariant survives any change of state, log and texts while the port and the configuration
stay. -/
theorem Inv.send (h : Inv m) {port : String} (hinit : m.initialized = true)
    (henabled : m.config.enabled = true) (hport : m.port = some port) {state : State}
    {log : List Write} {lastCommand lastError currentDutyCycle : String} :
    Inv { m with state, log, lastCommand, lastError, currentDutyCycle } :=
  ⟨h.distinct, h.port, fun _ => ⟨hinit, henabled, by rw [hport, h.port port hport]⟩⟩

/-- After a command that has gone through the state and the duty cycle can be set. -/
theorem Inv.sendCommand (h : Inv m) {command actionName : String} {o : Outcome} {ok : Bool}
    {t : Manager} (hname : "初始化".toList.isPrefixOf actionName.toList = false)
    (hsend : m.sendCommandLocked command actionName o = (ok, t)) :
    Inv t ∧ (ok = true → ∀ state currentDutyCycle, Inv { t with state, currentDutyCycle }) := by
  rcases sendCommandLocked_cases m command actionName o hname with
    ⟨m₀, error, hfails, hinv, -⟩ | ⟨port, hinit, henabled, hport, -, hgoes⟩
  · cases hfails.symm.trans hsend
    refine ⟨setError_inv (hinv h).distinct (hinv h).port error, fun hok => ?_⟩
    cases hok
  · cases hgoes.symm.trans hsend
    exact ⟨h.send hinit henabled hport, fun _ _ _ => h.send hinit henabled hport⟩

/-- `Init` keeps the invariant, on each of its branches. -/
theorem init_inv (h : Inv m) {config : Json} {failure : Option String}
    (hd : (Label.init config failure).Distinct dump) : Inv (m.init dump config failure).2 := by
  unfold Manager.init
  cases hparse : parseConfig dump config with
  | error what => exact setError_inv h.distinct h.port what
  | ok cfg =>
    have hdistinct := hd cfg hparse
    dsimp only
    split
    next henabled =>
      have henabled : cfg.enabled = false := by simpa using henabled
      refine ⟨hdistinct, fun _ hp => (by cases hp), fun hw => ?_⟩
      simp [Manager.configure, henabled] at hw
    next henabled =>
      cases failure with
      | some error =>
        exact setError_inv hdistinct (fun _ hp => by cases hp) _
      | none =>
        have henabled : cfg.enabled = true := by simpa using henabled
        refine ⟨hdistinct, fun p hp => ?_, fun _ => ⟨rfl, henabled, rfl⟩⟩
        cases hp
        rfl

/-- Every step keeps the invariant; only `Init` changes the configuration. -/
theorem step_inv (h : Inv m) (hd : l.Distinct dump) (hs : step dump m l = some m') : Inv m' := by
  cases l with
  | init config failure =>
    cases hs
    exact init_inv h hd
  | start =>
    cases hs
    exact h
  | stop =>
    cases hs
    exact ⟨h.distinct, fun _ hp => (by cases hp), fun hw => by rcases hw with hw | hw <;> cases hw⟩
  | setDutyCycle dutyCycle o =>
    simp only [step, Manager.setDutyCycle] at hs
    cases hnormal : normalizeDutyCycleCommand dutyCycle with
    | error what =>
      rw [hnormal] at hs
      cases hs
      exact h
    | ok command =>
      rcases hsend : m.sendCommandLocked command "设置占空比/频率" o with ⟨ok, t⟩
      obtain ⟨hfailed, hsent⟩ := h.sendCommand rfl hsend
      simp only [hnormal, hsend] at hs
      cases ok with
      | false =>
        cases hs
        exact hfailed
      | true =>
        cases hs
        exact hsent rfl t.state (trimCopy dutyCycle)
  | openDropper o =>
    rcases hsend : m.sendCommandLocked m.config.openCmd "打开空投锁" o with ⟨ok, t⟩
    obtain ⟨hfailed, hsent⟩ := h.sendCommand rfl hsend
    simp only [step, Manager.openDropper, hsend] at hs
    cases ok with
    | false =>
      cases hs
      exact hfailed
    | true =>
      cases hs
      exact hsent rfl .opened t.currentDutyCycle
  | closeDropper o =>
    rcases hsend : m.sendCommandLocked m.config.lockCmd "关闭空投锁" o with ⟨ok, t⟩
    obtain ⟨hfailed, hsent⟩ := h.sendCommand rfl hsend
    simp only [step, Manager.closeDropper, hsend] at hs
    cases ok with
    | false =>
      cases hs
      exact hfailed
    | true =>
      cases hs
      exact hsent rfl .closed t.currentDutyCycle

/-- `Init` reports closed, and sends nothing. -/
theorem init_safe_iff {config : Json} {failure : Option String} :
    Safe (m.init dump config failure).2 ↔ Careful dump m (.init config failure) := by
  unfold Manager.init
  cases hparse : parseConfig dump config with
  | error what =>
    cases failure with
    | some error => exact iff_of_true (setError_safe m what) trivial
    | none =>
      refine iff_of_true (setError_safe m what) (careful_init.2 fun cfg hcfg => ?_)
      rw [hparse] at hcfg
      cases hcfg
  | ok cfg =>
    dsimp only
    split
    next henabled =>
      have henabled : cfg.enabled = false := by simpa using henabled
      have hsafe : Safe { m.configure config cfg with port := none, initialized := true } :=
        safe_of_state (by simp [Manager.configure, henabled])
      cases failure with
      | some error => exact iff_of_true hsafe trivial
      | none =>
        refine iff_of_true hsafe (careful_init.2 fun cfg' hcfg henabled' => ?_)
        rw [hparse] at hcfg
        cases hcfg
        rw [henabled] at henabled'
        cases henabled'
    next henabled =>
      have henabled : cfg.enabled = true := by simpa using henabled
      cases failure with
      | some error => exact iff_of_true (setError_safe _ _) trivial
      | none =>
        dsimp only
        rw [safe_iff, careful_init]
        constructor
        · rintro ⟨hclosed, -⟩ cfg' hcfg -
          rw [hparse] at hcfg
          cases hcfg
          exact hclosed rfl
        · intro h
          exact ⟨fun _ => h cfg hparse henabled, fun ho => by cases ho⟩

/-- Setting a duty cycle keeps the report right exactly when the call was careful. -/
theorem setDutyCycle_safe_iff (hinv : Inv m) (h : Safe m) {dutyCycle : String}
    (hs : step dump m (.setDutyCycle dutyCycle o) = some m') :
    Safe m' ↔ Careful dump m (.setDutyCycle dutyCycle o) := by
  simp only [step, Manager.setDutyCycle] at hs
  rw [careful_setDutyCycle]
  cases hnormal : normalizeDutyCycleCommand dutyCycle with
  | error what =>
    rw [hnormal] at hs
    cases hs
    exact iff_of_true h fun command hcommand => by cases hcommand
  | ok command =>
    rw [hnormal] at hs
    rcases sendCommandLocked_cases m command "设置占空比/频率" o rfl with
      ⟨m₀, error, hsend, -, hidle⟩ | ⟨port, -, -, hport, hok, hsend⟩
    · simp only [hsend] at hs
      cases hs
      refine iff_of_true (setError_safe m₀ error) fun command' hcommand hok => ?_
      cases hcommand
      obtain ⟨hclosed, hopened⟩ := hidle hok hinv
      exact ⟨fun hc => absurd hc hclosed, fun ho => absurd ho hopened⟩
    · simp only [hsend] at hs
      cases hs
      have hdevice := hinv.port port hport
      have hsent := Outcome.succeeds_sent hok
      have hlength := normalizeDutyCycleCommand_length hnormal
      rw [safe_iff] at h ⊢
      simp only [Since.concat]
      constructor
      · rintro ⟨hclosed, hopened⟩ command' hcommand -
        cases hcommand
        refine ⟨fun hc heq => hclosed hc (.inl ?_), fun ho heq => ?_⟩
        · exact ⟨hdevice, heq, Nat.lt_of_lt_of_le hlength hsent⟩
        · rcases hopened ho with hopens | ⟨-, hlocks⟩
          · exact hinv.distinct (hopens.2.1.symm.trans heq)
          · exact hlocks ⟨hdevice, heq, hsent⟩
      · intro hc
        obtain ⟨hclosed, hopened⟩ := hc command rfl hok
        refine ⟨fun hstate => ?_, fun hstate => .inr ⟨h.2 hstate, fun hlocks => ?_⟩⟩
        · rintro (hopens | ⟨hsince, -⟩)
          · exact hclosed hstate hopens.2.1
          · exact h.1 hstate hsince
        · exact hopened hstate hlocks.2.1

/-- Open is reported after a whole `open_cmd`. -/
theorem openDropper_safe (hinv : Inv m) : Safe (m.openDropper o).2 := by
  unfold Manager.openDropper
  rcases sendCommandLocked_cases m m.config.openCmd "打开空投锁" o rfl with
    ⟨m₀, error, hsend, -, -⟩ | ⟨port, -, -, hport, hok, hsend⟩
  · rw [hsend]
    exact setError_safe m₀ error
  · rw [hsend, safe_iff]
    refine ⟨fun hc => (by cases hc), fun _ => Since.concat.2 (.inl ?_)⟩
    exact ⟨hinv.port port hport, rfl, Outcome.succeeds_sent hok⟩

/-- Closed is reported after a whole `lock_cmd`. -/
theorem closeDropper_safe (hinv : Inv m) : Safe (m.closeDropper o).2 := by
  unfold Manager.closeDropper
  rcases sendCommandLocked_cases m m.config.lockCmd "关闭空投锁" o rfl with
    ⟨m₀, error, hsend, -, -⟩ | ⟨port, -, -, hport, hok, hsend⟩
  · rw [hsend]
    exact setError_safe m₀ error
  · rw [hsend, safe_iff]
    refine ⟨fun _ hsince => ?_, fun ho => (by cases ho)⟩
    rcases Since.concat.1 hsince with hopens | ⟨-, hlocks⟩
    · exact hinv.distinct hopens.2.1.symm
    · exact hlocks ⟨hinv.port port hport, rfl, Outcome.succeeds_sent hok⟩

/-- **A step keeps the report right** if and only if it is careful. -/
theorem step_safe_iff (hinv : Inv m) (h : Safe m) (hs : step dump m l = some m') :
    Safe m' ↔ Careful dump m l := by
  cases l with
  | init config failure =>
    cases hs
    exact init_safe_iff
  | start =>
    cases hs
    exact iff_of_true h trivial
  | stop =>
    cases hs
    exact iff_of_true (safe_of_state ⟨fun hc => (by cases hc), fun ho => by cases ho⟩) trivial
  | setDutyCycle dutyCycle o => exact setDutyCycle_safe_iff hinv h hs
  | openDropper o =>
    cases hs
    exact iff_of_true (openDropper_safe hinv) trivial
  | closeDropper o =>
    cases hs
    exact iff_of_true (closeDropper_safe hinv) trivial

/-- Every call of the interface is possible in every state. -/
theorem step_total (dump : UInt64 → String) (m : Manager) (l : Label) :
    ∃ m', step dump m l = some m' := by
  cases l with
  | setDutyCycle dutyCycle o =>
    simp only [step]
    split <;> exact ⟨_, rfl⟩
  | init | start | openDropper | closeDropper | stop => exact ⟨_, rfl⟩

/-- **The report is right in every state of a run if and only if** every step of it is careful. -/
theorem report_right_iff {ls : List Label} (hd : ∀ l ∈ ls, l.Distinct dump) :
    (∀ pre post m, ls = pre ++ post → run (step dump) {} pre = some m → Safe m) ↔
      Along (step dump) (Careful dump) {} ls := by
  have hinv : Inv {} :=
    ⟨by decide, fun _ hp => (by cases hp), fun hw => by rcases hw with hw | hw <;> cases hw⟩
  have hsafe : Safe {} := safe_of_state ⟨fun hc => (by cases hc), fun ho => by cases ho⟩
  have hstuck : ∀ m l, step dump m l = none → Careful dump m l := by
    intro m l hnone
    obtain ⟨m', hm'⟩ := step_total dump m l
    rw [hm'] at hnone
    cases hnone
  exact forall_prefix_iff_along hstuck
    (fun _ _ _ hl hi hs => step_inv hi hl hs) (fun _ _ _ _ hi hm hs => step_safe_iff hi hm hs)
    hinv hsafe hd

/-! ## Runs -/

/-- A renderer of integers that the runs below never reach, since their configurations hold none. -/
def noDump : UInt64 → String := fun _ => ""

/-- A configuration with the default commands, `D005` and `D010`. -/
def defaults : Json := .object [("enabled", .boolean true)]

/-- The default commands to open and to lock differ. -/
theorem distinct_defaults (failure : Option String) :
    (Label.init defaults failure).Distinct noDump := by
  intro cfg hcfg
  have hparse : parseConfig noDump defaults = .ok { enabled := true } := rfl
  rw [hparse] at hcfg
  cases hcfg
  decide

/-- The lock is opened and closed, the latter at the second attempt, and initialised once more. -/
def reinitialised : List Label :=
  [.init defaults none, .start, .setDutyCycle "50" (.returns 4), .openDropper (.returns 4),
    .closeDropper (.returns 3), .closeDropper (.returns 4), .init defaults none]

/-- A run that opens, locks and initialises again: its report is right after every prefix, and
closed at its end. -/
theorem report_right_iff_reinitialised :
    (∀ pre post m, reinitialised = pre ++ post → run (step noDump) {} pre = some m → Safe m) ∧
      ∃ m, run (step noDump) {} reinitialised = some m ∧ m.getStatus.state = "closed" ∧
        m.log.length = 4 := by
  have hd : ∀ l ∈ reinitialised, l.Distinct noDump := by
    simp only [reinitialised, List.forall_mem_cons]
    exact ⟨distinct_defaults none, trivial, trivial, trivial, trivial, trivial,
      distinct_defaults none, fun _ h => absurd h List.not_mem_nil⟩
  exact ⟨(report_right_iff hd).2 (by decide), _, rfl, rfl, rfl⟩

/-- The lock is opened and then initialised again: closed is reported, and nothing was sent. -/
theorem not_report_right :
    ¬ ∀ (dump : UInt64 → String) (ls : List Label) (m : Manager),
      (∀ l ∈ ls, l.Distinct dump) → run (step dump) {} ls = some m → Safe m := by
  intro h
  have hd : ∀ l ∈ [Label.init defaults none, .openDropper (.returns 4), .init defaults none],
      l.Distinct noDump := by
    simp only [List.forall_mem_cons]
    exact ⟨distinct_defaults none, trivial, distinct_defaults none,
      fun _ h => absurd h List.not_mem_nil⟩
  have hsafe := h noDump _ _ hd rfl
  exact hsafe.closed rfl (by decide)

end MyAirdropLock
