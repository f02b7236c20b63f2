import FastCppServer.FlyControl.RoundTrip
import FastCppServer.FlyControl.SendFrame

/-!
# From the senders to the parser

The two halves of the flight-control protocol put together: any number of clients call the `Send*`
methods at once, and what the port has taken is fed to a stream parser in chunks cut anywhere. Where
the port takes every frame whole, no call is lost, none arrives twice, and the calls of one client
arrive in the order in which it made them (`link_exact`).

A frame is on the wire once its last byte is, not only when `SendRawData` returns; `Sent` collects
the frames in that order. The bytes behind the last of them are the start of the frame under write
(`Inv.part`), which the parser keeps and waits on: it is too short for a frame, since a decision
does not change when more bytes arrive.
-/

namespace FlyControl

open Framing Transition

/-! ## What a client has asked for -/

/-- A frame of which the port has taken the last byte. -/
structure Sent (ι : Type) where
  owner : ι
  command : Command
  number : Nat

namespace Sent

/-- The bytes of a frame that has been sent. -/
def bytes {ι : Type} (w : Sent ι) : List Byte := numbered w.number w.command

/-- The frame that the parser makes of it. -/
def frame {ι : Type} (w : Sent ι) : ParsedFrame :=
  frameOf (UInt8.ofNat w.number) w.command.frameType w.command.payload

end Sent

/-- The command of a client's call that is not on the wire as a whole. -/
def Phase.unsent : Phase → List Command
  | .idle => []
  | .checked command | .counted command _ _ | .encoded command _ _ => [command]
  | .writing command rest _ => if rest = [] then [] else [command]

/-- Its number, where it has one. -/
def Phase.due : Phase → List Nat
  | .idle | .checked _ => []
  | .counted _ _ number | .encoded _ _ number => [number]
  | .writing _ rest number => if rest = [] then [] else [number]

section
variable {ι : Type} [DecidableEq ι]

/-- The commands of the calls of client `i` whose arguments pass the check. -/
def accepted (i : ι) (ls : List (Label ι)) : List Command :=
  ls.filterMap fun
    | .call j send => if j = i then send.command.toOption else none
    | _ => none

/-- Who called `NextCnt`, in order. -/
def counted {ι : Type} (ls : List (Label ι)) : List ι :=
  ls.filterMap fun
    | .nextCnt i => some i
    | _ => none

/-- The numbers that client `i` has taken. -/
def taken (i : ι) (by_ : List ι) : List Nat :=
  (List.range by_.length).filter fun n => by_[n]? = some i

/-- The frames of client `i`. -/
def sentBy (i : ι) (sent : List (Sent ι)) : List (Sent ι) := sent.filter fun w => w.owner = i

/-- `serial_.Write` returns only after the last byte. -/
def TakesWhole (s : State ι) : Label ι → Prop
  | .unlock i =>
    match s.phase i with
    | .writing _ rest _ => rest = []
    | _ => True
  | _ => True

instance (s : State ι) (l : Label ι) : Decidable (TakesWhole s l) :=
  match l with
  | .unlock i =>
    match h : s.phase i with
    | .writing _ rest _ => decidable_of_iff (rest = []) (by simp only [TakesWhole, h])
    | .idle | .checked _ | .counted _ _ _ | .encoded _ _ _ =>
      isTrue (by simp only [TakesWhole, h])
  | .call _ _ | .nextCnt _ | .encode _ | .lock _ | .write _ => isTrue trivial

/-- A structure that a caller has filled keeps the command byte of its function. -/
def OwnCalls (ls : List (Label ι)) : Prop := ∀ i send, .call i send ∈ ls → send.OwnType

/-- The calls that pass the check, over two parts of a run. -/
theorem accepted_append (i : ι) (ls ls' : List (Label ι)) :
    accepted i (ls ++ ls') = accepted i ls ++ accepted i ls' := List.filterMap_append

/-- The numbers that are counted, over two parts of a run. -/
theorem counted_append {ι : Type} (ls ls' : List (Label ι)) :
    counted (ls ++ ls') = counted ls ++ counted ls' := List.filterMap_append

/-- One more call of `NextCnt` takes the next number, and leaves the numbers taken before. -/
theorem taken_concat (i j : ι) (by_ : List ι) :
    taken i (by_ ++ [j]) = taken i by_ ++ if j = i then [by_.length] else [] := by
  have hold : ∀ n ∈ List.range by_.length,
      decide ((by_ ++ [j])[n]? = some i) = decide (by_[n]? = some i) := by
    intro n hn
    rw [List.getElem?_append_left (List.mem_range.1 hn)]
  rw [taken, List.length_append, List.length_singleton, List.range_succ, List.filter_append,
    List.filter_congr hold]
  congr 1
  by_cases hj : j = i <;> simp [hj]

/-! ## What every run keeps -/

/-- What is known of a client that stands there, behind the bytes `part` of the frame under write.
-/
def Phase.OnLine (sendMutex : Option ι) (part : List Byte) (i : ι) : Phase → Prop
  | .idle | .checked _ => True
  | .counted _ cnt number => cnt = UInt8.ofNat number
  | .encoded command frame number => frame = numbered number command
  | .writing command rest number => sendMutex = some i ∧
      (if rest = [] then part = [] else part ++ rest = numbered number command)

/-- The wire carries whole frames and the start of one, and every client finds its calls and its
numbers, in its order, among the frames and what it has not yet sent. -/
structure Line (ls : List (Label ι)) (s : State ι) (sent : List (Sent ι)) (part : List Byte) :
    Prop where
  cnt : s.cnt = UInt8.ofNat s.issued
  issued : s.issued = (counted ls).length
  wire : s.wire = (sent.map Sent.bytes).flatten ++ part
  started : part = [] ∨ ∃ i command rest number, s.phase i = .writing command rest number ∧
    rest ≠ []
  phase : ∀ i, (s.phase i).OnLine s.sendMutex part i
  calls : ∀ i, accepted i ls = (sentBy i sent).map Sent.command ++ (s.phase i).unsent
  numbers : ∀ i, taken i (counted ls) = (sentBy i sent).map Sent.number ++ (s.phase i).due

/-- A client that goes on from its phase to `p`, with the frames `f` completed, finds what it adds
in them and in `p`; nobody else is concerned. -/
theorem found_of_move {α : Type} {seen e : ι → List α} {sent f : List (Sent ι)}
    {item : Sent ι → α} {waiting : Phase → List α} {phase : ι → Phase}
    (h : ∀ j, seen j = (sentBy j sent).map item ++ waiting (phase j)) {i : ι} {p : Phase}
    (hnew : ∀ w ∈ f, w.owner = i) (hother : ∀ j, j ≠ i → e j = [])
    (hi : waiting (phase i) ++ e i = f.map item ++ waiting p) (j : ι) :
    seen j ++ e j =
      (sentBy j (sent ++ f)).map item ++ waiting (Function.update phase i p j) := by
  rw [sentBy, List.filter_append, ← sentBy, ← sentBy, List.map_append, h j]
  by_cases hj : j = i
  · subst hj
    have hall : sentBy j f = f := List.filter_eq_self.2 fun w hw => by simp [hnew w hw]
    rw [hall, Function.update_self, List.append_assoc, List.append_assoc, hi]
  · have hnone : sentBy j f = [] := List.filter_eq_nil_iff.2 fun w hw => by
      simp [hnew w hw, Ne.symm hj]
    rw [hnone, hother j hj, Function.update_of_ne hj]
    simp

/-- Who does not hold the lock is not writing, and knows nothing of the frame under write. -/
theorem Phase.OnLine.of_not_owner {ι : Type} {m m' : Option ι} {part part' : List Byte} {i : ι}
    {p : Phase}
    (h : p.OnLine m part i) (hi : m ≠ some i) : p.OnLine m' part' i := by
  cases p with
  | writing command rest number => exact absurd h.1 hi
  | _ => exact h

/-! ## Every step keeps it -/

/-- A step that calls nothing and takes no number. -/
theorem Line.found {ls : List (Label ι)} {s : State ι} {sent : List (Sent ι)} {part : List Byte}
    (hi : Line ls s sent part) {l : Label ι} {i : ι} {p : Phase} {f : List (Sent ι)}
    (hl : counted [l] = []) (hother : ∀ j, j ≠ i → accepted j [l] = [])
    (hnew : ∀ w ∈ f, w.owner = i)
    (hcalls : (s.phase i).unsent ++ accepted i [l] = f.map Sent.command ++ p.unsent)
    (hdue : (s.phase i).due = f.map Sent.number ++ p.due) :
    counted (ls ++ [l]) = counted ls ∧
    (∀ j, accepted j (ls ++ [l]) =
      (sentBy j (sent ++ f)).map Sent.command ++ ((s.setPhase i p).phase j).unsent) ∧
    ∀ j, taken j (counted (ls ++ [l])) =
      (sentBy j (sent ++ f)).map Sent.number ++ ((s.setPhase i p).phase j).due := by
  have hcounted : counted (ls ++ [l]) = counted ls := by
    rw [counted_append, hl, List.append_nil]
  refine ⟨hcounted, fun j => ?_, fun j => ?_⟩
  · rw [accepted_append]
    exact found_of_move hi.calls hnew hother hcalls j
  · rw [hcounted, ← List.append_nil (taken j (counted ls))]
    exact found_of_move (e := fun _ => []) hi.numbers hnew (fun _ _ => rfl)
      (by rw [List.append_nil]; exact hdue) j

/-- A client that is not writing has not started a frame. -/
theorem Line.started_setPhase {ls : List (Label ι)} {s : State ι} {sent : List (Sent ι)}
    {part : List Byte} (hi : Line ls s sent part) {i : ι}
    (hw : ∀ command rest number, s.phase i ≠ .writing command rest number) (p : Phase) :
    part = [] ∨ ∃ j command rest number,
      (s.setPhase i p).phase j = .writing command rest number ∧ rest ≠ [] := by
  rcases hi.started with hnil | ⟨j, command, rest, number, hj, hrest⟩
  · exact .inl hnil
  · have hji : j ≠ i := fun h => hw command rest number (h ▸ hj)
    exact .inr ⟨j, command, rest, number, by rw [setPhase_phase, if_neg hji, hj], hrest⟩

/-- While nobody holds the lock no frame is under write. -/
theorem Line.free {ls : List (Label ι)} {s : State ι} {sent : List (Sent ι)} {part : List Byte}
    (hi : Line ls s sent part) (hm : s.sendMutex = none) : part = [] := by
  rcases hi.started with hnil | ⟨j, command, rest, number, hj, -⟩
  · exact hnil
  · have hok := hi.phase j
    rw [hj] at hok
    cases hm.symm.trans hok.1

/-- A step inside a client. -/
theorem Line.inside {ls : List (Label ι)} {s : State ι} {sent : List (Sent ι)} {part : List Byte}
    (hi : Line ls s sent part) {l : Label ι} {i : ι} {p : Phase}
    (hw : ∀ command rest number, s.phase i ≠ .writing command rest number)
    (hp : p.OnLine s.sendMutex part i) (hl : counted [l] = [])
    (hother : ∀ j, j ≠ i → accepted j [l] = [])
    (hcalls : (s.phase i).unsent ++ accepted i [l] = p.unsent) (hdue : (s.phase i).due = p.due) :
    Line (ls ++ [l]) (s.setPhase i p) sent part := by
  have hfound := hi.found (f := []) (p := p) hl hother (by simp) (by simpa using hcalls)
    (by simpa using hdue)
  rw [List.append_nil] at hfound
  obtain ⟨hcounted, hcalls', hnumbers⟩ := hfound
  refine ⟨hi.cnt, by rw [hcounted]; exact hi.issued, hi.wire, hi.started_setPhase hw p,
    fun j => ?_, hcalls', hnumbers⟩
  rw [setPhase_phase]
  split
  · next hj => exact hj ▸ hp
  · exact hi.phase j

/-- A client takes its number: the line stays as it is. -/
theorem Line.nextCnt {ls : List (Label ι)} {s : State ι} {sent : List (Sent ι)} {part : List Byte}
    (hi : Line ls s sent part) {i : ι} {command : Command} (hp : s.phase i = .checked command) :
    Line (ls ++ [.nextCnt i]) { s.setPhase i (.counted command s.cnt s.issued) with
      cnt := s.cnt + 1, issued := s.issued + 1 } sent part where
  cnt := by
    show s.cnt + 1 = UInt8.ofNat (s.issued + 1)
    rw [hi.cnt, UInt8.ofNat_add]
    rfl
  issued := by
    show s.issued + 1 = _
    rw [hi.issued, counted_append, List.length_append]
    rfl
  wire := hi.wire
  started := hi.started_setPhase (by rw [hp]; nofun) _
  phase := by
    intro j
    show ((s.setPhase i _).phase j).OnLine s.sendMutex part j
    rw [setPhase_phase]
    split
    · exact hi.cnt
    · exact hi.phase j
  calls := by
    intro j
    have h := found_of_move (f := []) (p := .counted command s.cnt s.issued)
      (e := fun _ => []) hi.calls (by simp) (fun _ _ => rfl) (by rw [hp]; rfl) j
    rw [List.append_nil, List.append_nil] at h
    rw [accepted_append]
    exact (List.append_nil _).trans h
  numbers := by
    intro j
    have h := found_of_move (f := []) (p := .counted command s.cnt s.issued)
      (e := fun j => if i = j then [(counted ls).length] else []) hi.numbers (by simp)
      (fun j hj => if_neg (Ne.symm hj)) (by rw [hp, if_pos rfl, hi.issued]; rfl) j
    rw [List.append_nil] at h
    rw [counted_append]
    exact (taken_concat j i (counted ls)).trans h

/-- A client begins to write, and its frame has not been begun yet. -/
theorem Line.lock {ls : List (Label ι)} {s : State ι} {sent : List (Sent ι)} {part : List Byte}
    (hi : Line ls s sent part) {i : ι} {command : Command} {frame : List Byte} {number : Nat}
    (hp : s.phase i = .encoded command frame number) (hm : s.sendMutex = none) :
    Line (ls ++ [.lock i]) { s.setPhase i (.writing command frame number) with sendMutex := some i }
      sent part := by
  have hframe := hi.phase i
  rw [hp] at hframe
  obtain rfl : frame = numbered number command := hframe
  obtain rfl := hi.free hm
  -- a frame has bytes, so nothing of it is sent yet
  have hne : numbered number command ≠ [] := by simp [numbered, encode_eq, buildFrame]
  have hfound := hi.found (l := .lock i) (f := [])
    (p := .writing command (numbered number command) number) rfl (fun _ _ => rfl) (by simp)
    (by rw [hp]; simp [Phase.unsent, accepted, hne]) (by rw [hp]; simp [Phase.due, hne])
  rw [List.append_nil] at hfound
  obtain ⟨hcounted, hcalls, hnumbers⟩ := hfound
  refine ⟨hi.cnt, by rw [hcounted]; exact hi.issued, hi.wire, .inl rfl, fun j => ?_, hcalls,
    hnumbers⟩
  show ((s.setPhase i _).phase j).OnLine (some i) [] j
  rw [setPhase_phase]
  split
  · next hj => exact ⟨by rw [hj], by rw [if_neg hne]; rfl⟩
  · exact (hi.phase j).of_not_owner (by simp [hm])

/-- One more byte: the frame is completed by its last one. -/
theorem Line.write {ls : List (Label ι)} {s : State ι} {sent : List (Sent ι)} {part : List Byte}
    (hi : Line ls s sent part) {i : ι} {command : Command} {b : Byte} {rest : List Byte}
    {number : Nat} (hp : s.phase i = .writing command (b :: rest) number) :
    ∃ sent' part', Line (ls ++ [.write i])
      { s.setPhase i (.writing command rest number) with wire := s.wire ++ [b] } sent' part' := by
  have hok := hi.phase i
  rw [hp] at hok
  obtain ⟨hm, hpart⟩ := hok
  rw [if_neg (List.cons_ne_nil b rest)] at hpart
  have hother : ∀ j, j ≠ i → s.sendMutex ≠ some j := by
    intro j hj h
    exact hj (Option.some.inj (h.symm.trans hm))
  rcases eq_or_ne rest [] with rfl | hrest
  · have hfound := hi.found (l := .write i) (i := i) (f := [⟨i, command, number⟩])
      (p := .writing command [] number) rfl (fun _ _ => rfl) (by simp)
      (by rw [hp]; simp [Phase.unsent, accepted]) (by rw [hp]; simp [Phase.due])
    obtain ⟨hcounted, hcalls, hnumbers⟩ := hfound
    refine ⟨_, [], hi.cnt, by rw [hcounted]; exact hi.issued, ?_, .inl rfl, fun j => ?_, hcalls,
      hnumbers⟩
    · show s.wire ++ [b] = _
      rw [hi.wire, List.append_assoc, hpart]
      simp [Sent.bytes]
    · show ((s.setPhase i _).phase j).OnLine s.sendMutex [] j
      rw [setPhase_phase]
      split
      · next hj => exact ⟨by rw [hm, hj], by rw [if_pos rfl]⟩
      · next hj => exact (hi.phase j).of_not_owner (hother j hj)
  · have hfound := hi.found (l := .write i) (f := []) (p := .writing command rest number) rfl
      (fun _ _ => rfl) (by simp) (by rw [hp]; simp [Phase.unsent, accepted, hrest])
      (by rw [hp]; simp [Phase.due, hrest])
    rw [List.append_nil] at hfound
    obtain ⟨hcounted, hcalls, hnumbers⟩ := hfound
    refine ⟨sent, part ++ [b], hi.cnt, by rw [hcounted]; exact hi.issued, ?_,
      .inr ⟨i, command, rest, number, ?_, hrest⟩, fun j => ?_, hcalls, hnumbers⟩
    · show s.wire ++ [b] = _
      rw [hi.wire, List.append_assoc]
    · show (s.setPhase i _).phase i = _
      rw [setPhase_phase, if_pos rfl]
    · show ((s.setPhase i _).phase j).OnLine s.sendMutex (part ++ [b]) j
      rw [setPhase_phase]
      split
      · next hj => exact ⟨by rw [hm, hj], by rw [if_neg hrest, ← hpart]; simp⟩
      · next hj => exact (hi.phase j).of_not_owner (hother j hj)

/-- A client has written its whole frame, which is the last one on the line. -/
theorem Line.unlock {ls : List (Label ι)} {s : State ι} {sent : List (Sent ι)} {part : List Byte}
    (hi : Line ls s sent part) {i : ι} {command : Command} {number : Nat}
    (hp : s.phase i = .writing command [] number) :
    Line (ls ++ [.unlock i]) { s.setPhase i .idle with sendMutex := none } sent part := by
  have hok := hi.phase i
  rw [hp] at hok
  obtain ⟨hm, hpart⟩ := hok
  obtain rfl : part = [] := hpart
  have hfound := hi.found (l := .unlock i) (f := []) (p := .idle) rfl (fun _ _ => rfl) (by simp)
    (by rw [hp]; rfl) (by rw [hp]; rfl)
  rw [List.append_nil] at hfound
  obtain ⟨hcounted, hcalls, hnumbers⟩ := hfound
  refine ⟨hi.cnt, by rw [hcounted]; exact hi.issued, hi.wire, .inl rfl, fun j => ?_, hcalls,
    hnumbers⟩
  show ((s.setPhase i _).phase j).OnLine none [] j
  rw [setPhase_phase]
  split
  · trivial
  · next hj =>
    refine (hi.phase j).of_not_owner fun h => hj ?_
    exact Option.some.inj (h.symm.trans hm)

/-- **A step keeps it**, as long as the port takes the frames whole. -/
theorem Line.step {ls : List (Label ι)} {s t : State ι} {sent : List (Sent ι)} {part : List Byte}
    (hi : Line ls s sent part) {l : Label ι} (hport : TakesWhole s l)
    (h : FlyControl.step s l = some t) : ∃ sent' part', Line (ls ++ [l]) t sent' part' := by
  cases step_steps h with
  | @rejected i send e hp he =>
    have hnone : ∀ j, accepted j [.call i send] = [] := by simp [accepted, he, Except.toOption]
    have hfound := hi.found (l := .call i send) (f := []) (p := .idle) rfl (fun j _ => hnone j)
      (by simp) (by rw [hp, hnone]; rfl) (by rw [hp]; rfl)
    have hsame : s.setPhase i .idle = s := by
      rw [← hp, State.setPhase, Function.update_eq_self]
    rw [List.append_nil, hsame] at hfound
    obtain ⟨hcounted, hcalls, hnumbers⟩ := hfound
    exact ⟨sent, part, hi.cnt, by rw [hcounted]; exact hi.issued, hi.wire, hi.started, hi.phase,
      hcalls, hnumbers⟩
  | @accepted i send command hp hc =>
    refine ⟨sent, part, hi.inside (by rw [hp]; nofun) trivial rfl ?_ ?_ (by rw [hp]; rfl)⟩
    · intro j hj
      simp [accepted, Ne.symm hj]
    · rw [hp]
      simp [accepted, hc, Except.toOption, Phase.unsent]
  | nextCnt hp => exact ⟨sent, part, hi.nextCnt hp⟩
  | @encode i command cnt number hp =>
    have hok := hi.phase i
    rw [hp] at hok
    obtain rfl : cnt = UInt8.ofNat number := hok
    exact ⟨sent, part, hi.inside (by rw [hp]; nofun) rfl rfl (fun _ _ => rfl) (by rw [hp]; rfl)
      (by rw [hp]; rfl)⟩
  | lock hp hm => exact ⟨sent, part, hi.lock hp hm⟩
  | write hp => exact hi.write hp
  | unlock hp =>
    simp only [TakesWhole, hp] at hport
    subst hport
    exact ⟨sent, part, hi.unlock hp⟩

/-- A call with its own command byte fills a structure that is as it should be. -/
theorem Send.command_own {send : Send} {c : Command} (h : send.command = .ok c)
    (hown : send.OwnType) : c.Own := by
  have hr := Send.restore_own h
  have ht := (Send.ownType_iff h).1 hown
  have hc : c.restore = c := by
    cases c <;> simp only [Command.cmdType, Command.ownType] at ht <;> rw [Command.restore, ← ht]
  rwa [hc] at hr

/-- The calls that pass the check carry their own command byte, as those of the run do. -/
theorem own_of_mem_accepted {ls : List (Label ι)} (hown : OwnCalls ls) {i : ι} {c : Command}
    (h : c ∈ accepted i ls) : c.Own := by
  obtain ⟨l, hl, hc⟩ := List.mem_filterMap.1 h
  cases l with
  | call j send =>
    dsimp only at hc
    split at hc
    · cases hs : send.command with
      | error e => rw [hs] at hc; cases hc
      | ok command =>
        rw [hs] at hc
        cases hc
        exact Send.command_own hs (hown j send hl)
    · cases hc
  | _ => cases hc

/-- The parser waits on the start of an intact frame. -/
theorem Intact.wait_of_start {cnt frameType : Byte} {payload : List Byte}
    (h : Intact cnt frameType payload) {part rest : List Byte} (hrest : rest ≠ [])
    (hpart : part ++ rest = buildFrame cnt frameType payload) : candidate part = .wait := by
  have hemit := h.emits []
  rw [List.append_nil, ← hpart] at hemit
  exact flyFramer.wait_of_emit_whole hrest hemit

/-- The part of a frame that is on the wire and the part that is not are the frame. -/
theorem Line.part_append {ls : List (Label ι)} {s : State ι} {sent : List (Sent ι)}
    {part : List Byte} (hi : Line ls s sent part) {i : ι} {command : Command} {rest : List Byte}
    {number : Nat} (hp : s.phase i = .writing command rest number) (hrest : rest ≠ []) :
    part ++ rest = numbered number command := by
  have hok := hi.phase i
  rw [hp] at hok
  have hpart := hok.2
  rwa [if_neg hrest] at hpart

/-- What stands behind the last whole frame is no decision of the parser's. -/
theorem Line.waits {ls : List (Label ι)} {s : State ι} {sent : List (Sent ι)} {part : List Byte}
    (hi : Line ls s sent part) (hown : OwnCalls ls) : candidate part = .wait := by
  rcases hi.started with rfl | ⟨i, command, rest, number, hp, hrest⟩
  · rfl
  · have hc : command.Own := by
      refine own_of_mem_accepted hown (i := i) ?_
      rw [hi.calls i, hp]
      simp [Phase.unsent, hrest]
    have hpart := hi.part_append hp hrest
    rw [numbered, encode_eq] at hpart
    exact (hc.intact _).wait_of_start hrest hpart

end

end FlyControl
