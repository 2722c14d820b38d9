import NetworkMonitoring.Foundations.ErrorLoops
import NetworkMonitoring.Foundations.FairRuns
import NetworkMonitoring.Nsp.Packet
import Mathlib.Data.List.Forall2
import Mathlib.Logic.Relation

/-!
# NSP — the thread that sends packets to softflowd

The routers hand the packets they sample to `PreparePacketToBeSent`, which copies them to the list
`packetsBuffer`. `SoftflowdThreadProcess` sends a message about each packet of the list, and `end`
when it ends. Both change the list under `semListPackets`, which the thread keeps until the list is
empty; whether it is empty, the thread looks without the semaphore. At the end of
`StartSendingPackets` the interface gets the status `false`, and it is deleted when the thread has
told that it ends.

* `CallerStep` and `ThreadStep` are the steps of the two threads. A step is one access to something
  they share.
* An exception in `SoftflowdThreadProcess` ends the thread, which keeps the semaphore then.
* A message with a number that does not fit `tmp` is undefined behaviour, and has no step.

## Main results

* `interface_inOrder`: packets are sent in their order, and `end` is sent behind the last one;
* `interface_deleted_iff`: in a fair run the interface is deleted, with everything sent, exactly
  when it is stopped and no exception ends the thread.
-/

namespace Nsp

open CText FairRuns

/-- `AmIValid`. The time stamp is unsigned. -/
def Packet.AmIValid (p : Packet) : Prop :=
  (p.lLength ≥ 0 ∧ p.szIpSource.length > 0 ∧ p.szIpDest.length > 0 ∧ p.szSourcePort.length > 0 ∧
    p.szDestPort.length > 0 ∧ p.szProtocol.length > 0 ∧ p.iAsSourceNumber ≥ 0 ∧
    p.iAsDestNumber ≥ 0) ∨
  ((p.lLength ≥ 0 ∧ p.szIpSource.length > 0 ∧ p.szIpDest.length > 0 ∧ p.szProtocol.length > 0 ∧
    p.iAsSourceNumber ≥ 0 ∧ p.iAsDestNumber ≥ 0) ∧ p.szProtocol = ascii "ICMP")

instance (p : Packet) : Decidable p.AmIValid := inferInstanceAs (Decidable (_ ∨ _))

/-- `PreparePacketToBeSent` up to `AddPacketToTheBuffer`: the packet after it, and the copy, which
has all members as they were, when it is valid. -/
def preparePacketToBeSent (pkt : Packet) : Packet × Option Packet :=
  ({ pkt with forwardedToSoftflowd := true }, if pkt.AmIValid then some pkt else none)

/-- `dataRes` behind `GetPacketMessage`, which catches its exceptions. -/
def dataRes (p : Packet) : Except Halt Text :=
  match getPacketMessage p with
  | .error (.exception _) => .ok []
  | r => r

/-! ## The threads -/

/-- Where the thread that forwards the packets is. -/
inductive CallerAt where
  | outside
  /-- At `GetListOfPacketSem` of `AddPacketToTheBuffer`. -/
  | wait (pkt : Packet)
  /-- At `push_back`. -/
  | add (pkt : Packet)
  /-- At `ReleaseListOfPacketSem`. -/
  | post
  /-- In `WaitUntilPacketsForwrdingToSoftflowd`. -/
  | ending
  /-- At `delete ptrSoftflowdInterface`. -/
  | delete
  | deleted
  deriving DecidableEq, Repr

/-- Where `SoftflowdThreadProcess` is. -/
inductive ThreadAt where
  /-- At `GetInterfaceStatus` in the condition of the loop. -/
  | loop
  /-- At `empty` in the condition of the loop. -/
  | check
  /-- At `empty` in the loop. -/
  | body
  /-- At `GetListOfPacketSem`. -/
  | wait
  /-- At the first packet of the list. -/
  | drain
  /-- At `ReleaseListOfPacketSem`. -/
  | post
  /-- At the `sendto` of `end`. -/
  | finish
  /-- At `MainThreadExit`. -/
  | exit
  | done
  /-- Behind an exception. -/
  | crashed
  deriving DecidableEq, Repr

/-- `class SoftflowdInterface`, and where the threads are. `prepared` are the packets that have been
accepted, `datagrams` those that have been sent. -/
structure SoftflowdInterface where
  packetsBuffer : List Packet := []
  semListPackets : ℕ := 1
  boolInterfaceStatus : Bool := true
  mainThreadEnded : Bool := false
  caller : CallerAt := .outside
  thread : ThreadAt := .loop
  prepared : List Packet := []
  datagrams : List Text := []
  deriving DecidableEq, Repr

/-- The message at the end. -/
def endMessage : Text := ascii "end"

namespace SoftflowdInterface

/-- The steps of the thread that forwards the packets. -/
inductive CallerStep : SoftflowdInterface → SoftflowdInterface → Prop
  /-- A packet that is not valid is left alone. -/
  | prepare {s : SoftflowdInterface} {pkt tmp : Packet} : s.caller = .outside →
      (preparePacketToBeSent pkt).2 = some tmp →
      CallerStep s { s with caller := .wait tmp, prepared := s.prepared ++ [tmp] }
  | semWait {s : SoftflowdInterface} {tmp : Packet} {k : ℕ} : s.caller = .wait tmp →
      s.semListPackets = k + 1 → CallerStep s { s with semListPackets := k, caller := .add tmp }
  | pushBack {s : SoftflowdInterface} {tmp : Packet} : s.caller = .add tmp →
      CallerStep s { s with packetsBuffer := s.packetsBuffer ++ [tmp], caller := .post }
  | semPost {s : SoftflowdInterface} : s.caller = .post →
      CallerStep s { s with semListPackets := s.semListPackets + 1, caller := .outside }
  /-- `SetInterfaceStatus(false)`. -/
  | stop {s : SoftflowdInterface} : s.caller = .outside →
      CallerStep s { s with boolInterfaceStatus := false, caller := .ending }
  /-- `GetMainThreadStatus`. -/
  | ended {s : SoftflowdInterface} : s.caller = .ending → s.mainThreadEnded = true →
      CallerStep s { s with caller := .delete }
  /-- `~SoftflowdInterface`, which takes the semaphore to clear the list. -/
  | delete {s : SoftflowdInterface} {k : ℕ} : s.caller = .delete → s.semListPackets = k + 1 →
      CallerStep s { s with boolInterfaceStatus := false, packetsBuffer := [], caller := .deleted }

/-- The steps of `SoftflowdThreadProcess`. -/
inductive ThreadStep : SoftflowdInterface → SoftflowdInterface → Prop
  | loop {s : SoftflowdInterface} : s.thread = .loop →
      ThreadStep s { s with thread := if s.boolInterfaceStatus then .body else .check }
  | check {s : SoftflowdInterface} : s.thread = .check →
      ThreadStep s { s with thread := if s.packetsBuffer = [] then .finish else .body }
  | body {s : SoftflowdInterface} : s.thread = .body →
      ThreadStep s { s with thread := if s.packetsBuffer = [] then .loop else .wait }
  | semWait {s : SoftflowdInterface} {k : ℕ} : s.thread = .wait → s.semListPackets = k + 1 →
      ThreadStep s { s with semListPackets := k, thread := .drain }
  | send {s : SoftflowdInterface} {p : Packet} {rest : List Packet} {m : Text} :
      s.thread = .drain → s.packetsBuffer = p :: rest → dataRes p = .ok m → m ≠ [] →
      ThreadStep s { s with
        packetsBuffer := rest
        datagrams := s.datagrams ++ [m]
        thread := if rest = [] then .post else .drain }
  /-- `throw NspException("Invalid packet's returned data.",__FILE__,__LINE__)`. -/
  | noMessage {s : SoftflowdInterface} {p : Packet} {rest : List Packet} : s.thread = .drain →
      s.packetsBuffer = p :: rest → dataRes p = .ok [] → ThreadStep s { s with thread := .crashed }
  /-- `sendto` fails, and an exception is thrown. -/
  | sendFails {s : SoftflowdInterface} {p : Packet} {rest : List Packet} {m : Text} :
      s.thread = .drain → s.packetsBuffer = p :: rest → dataRes p = .ok m → m ≠ [] →
      ThreadStep s { s with thread := .crashed }
  | semPost {s : SoftflowdInterface} : s.thread = .post →
      ThreadStep s { s with semListPackets := s.semListPackets + 1, thread := .loop }
  /-- Whether the message at the end can be sent makes no difference. -/
  | finish {s : SoftflowdInterface} (sent : Bool) : s.thread = .finish →
      ThreadStep s { s with
        datagrams := if sent then s.datagrams ++ [endMessage] else s.datagrams
        thread := .exit }
  | exit {s : SoftflowdInterface} : s.thread = .exit →
      ThreadStep s { s with mainThreadEnded := true, thread := .done }

/-- A step of either thread. -/
def Step (s t : SoftflowdInterface) : Prop := CallerStep s t ∨ ThreadStep s t

/-- The caller sends nothing. -/
theorem CallerStep.datagrams_eq {s t : SoftflowdInterface} (h : CallerStep s t) :
    t.datagrams = s.datagrams := by
  cases h <;> rfl

/-- A step of the thread sends a datagram at most. -/
theorem ThreadStep.exists_datagrams {s t : SoftflowdInterface} (h : ThreadStep s t) :
    ∃ ds, t.datagrams = s.datagrams ++ ds := by
  cases h with
  | @send _ _ m => exact ⟨[m], rfl⟩
  | finish sent =>
    cases sent with
    | true => exact ⟨[endMessage], rfl⟩
    | false => exact ⟨[], (List.append_nil _).symm⟩
  | loop | check | body | semWait | noMessage | sendFails | semPost | exit =>
    exact ⟨[], (List.append_nil _).symm⟩

/-- The states of the runs in which the threads take turns in any order. -/
def Reachable (s : SoftflowdInterface) : Prop := Relation.ReflTransGen Step {} s

end SoftflowdInterface

/-! ## Messages -/

/-- The message about a packet. -/
def IsMessage (p : Packet) (m : Text) : Prop := getPacketMessage p = .ok m

/-- What is on the right has a partner on the left. -/
theorem forall₂_mem_right {α β : Type} {r : α → β → Prop} {as : List α} {bs : List β}
    (h : List.Forall₂ r as bs) {b : β} (hb : b ∈ bs) : ∃ a ∈ as, r a b := by
  induction h with
  | nil => cases hb
  | @cons a _ _ _ hab _ ih =>
    rcases List.mem_cons.mp hb with rfl | hb
    · exact ⟨a, List.mem_cons_self, hab⟩
    · obtain ⟨a', ha', hr⟩ := ih hb
      exact ⟨a', List.mem_cons_of_mem a ha', hr⟩

/-- The result, if there is one, has a separator. -/
def HasSeparator (x : Except Halt Text) : Prop := ∀ m, x = .ok m → 35 ∈ m

/-- The text that a computation gives in the end decides. -/
theorem HasSeparator.bind {α : Type} {x : Except Halt α} {f : α → Except Halt Text}
    (h : ∀ a, HasSeparator (f a)) : HasSeparator (x >>= f) := by
  intro m hm
  obtain ⟨a, -, ha⟩ := ErrorLoops.bind_eq_ok.mp hm
  exact h a m ha

/-- The mark at the end of a message stands behind a separator. -/
theorem hasSeparator_getPacketMessage (p : Packet) : HasSeparator (getPacketMessage p) := by
  unfold getPacketMessage
  repeat with_reducible refine .bind fun _ => ?_
  intro m hm
  obtain rfl := Except.ok.inj hm
  simp [ascii]

/-- A message is not empty. -/
theorem IsMessage.ne_nil {p : Packet} {m : Text} (h : IsMessage p m) : m ≠ [] :=
  List.ne_nil_of_mem (hasSeparator_getPacketMessage p m h)

/-- No message is taken for the one at the end. -/
theorem IsMessage.ne_endMessage {p : Packet} {m : Text} (h : IsMessage p m) : m ≠ endMessage := by
  rintro rfl
  exact absurd (hasSeparator_getPacketMessage p _ h) (by decide)

/-- What is sent about a packet is its message. -/
theorem isMessage_of_dataRes {p : Packet} {m : Text} (h : dataRes p = .ok m) (hm : m ≠ []) :
    IsMessage p m := by
  unfold dataRes at h
  split at h
  · exact absurd (Except.ok.inj h).symm hm
  · exact h

/-- A packet whose message fits has a message. -/
theorem exists_dataRes {p : Packet} (h : dataRes p ≠ .error .overflow) :
    ∃ m, dataRes p = .ok m := by
  unfold dataRes at h ⊢
  split
  · exact ⟨[], rfl⟩
  · rename_i hne
    cases hres : getPacketMessage p with
    | ok m => exact ⟨m, rfl⟩
    | error e =>
      cases e with
      | exception what => exact absurd hres (hne what)
      | overflow =>
        rw [hres] at h
        exact absurd rfl h

/-! ## The invariant -/

/-- The units of the semaphore that the forwarding thread holds. -/
def CallerAt.holds : CallerAt → ℕ
  | .add _ | .post => 1
  | _ => 0

/-- The units that `SoftflowdThreadProcess` holds, and keeps behind an exception. -/
def ThreadAt.holds : ThreadAt → ℕ
  | .drain | .post | .crashed => 1
  | _ => 0

/-- The packet that has been accepted and is not in the list yet. -/
def CallerAt.pending : CallerAt → List Packet
  | .wait pkt | .add pkt => [pkt]
  | _ => []

/-- `SetInterfaceStatus(false)` has been called. -/
def CallerAt.stopped : CallerAt → Bool
  | .ending | .delete | .deleted => true
  | _ => false

/-- The loop has been left. -/
def ThreadAt.left : ThreadAt → Bool
  | .finish | .exit | .done => true
  | _ => false

/-- The message at the end may have been sent. -/
def ThreadAt.ended : ThreadAt → Bool
  | .exit | .done => true
  | _ => false

/-- A thread that has ended has left its loop. -/
theorem ThreadAt.left_of_ended {th : ThreadAt} (h : th.ended = true) : th.left = true := by
  cases th with
  | exit | done => rfl
  | loop | check | body | wait | drain | post | finish | crashed => cases h

/-- A caller that has stopped has no packet to add. -/
theorem CallerAt.pending_of_stopped {at' : CallerAt} (h : at'.stopped = true) :
    at'.pending = [] := by
  cases at' with
  | ending | delete | deleted => rfl
  | outside | wait | add | post => cases h

namespace SoftflowdInterface

/-- The datagrams are the messages about the packets `ps`, with the one at the end at most behind
them. -/
def HasSent (s : SoftflowdInterface) (ps : List Packet) : Prop :=
  ∃ ms, List.Forall₂ IsMessage ps ms ∧
    (s.datagrams = ms ∨ s.thread.ended = true ∧ s.datagrams = ms ++ [endMessage])

/-- The packets of the datagrams are the ones that have been sent. -/
theorem HasSent.of_datagrams {s : SoftflowdInterface} {ps : List Packet}
    (h : List.Forall₂ IsMessage ps s.datagrams) : s.HasSent ps :=
  ⟨s.datagrams, h, .inl rfl⟩

/-- Before the end the datagrams are messages about packets. -/
theorem HasSent.datagrams {s : SoftflowdInterface} {ps : List Packet} (h : s.HasSent ps)
    (hended : s.thread.ended = false) : List.Forall₂ IsMessage ps s.datagrams := by
  obtain ⟨ms, hms, rfl | ⟨hset, -⟩⟩ := h
  · exact hms
  · rw [hended] at hset
    cases hset

/-- What holds of the threads, whatever their order is. -/
structure Inv (s : SoftflowdInterface) : Prop where
  units : s.semListPackets + s.caller.holds + s.thread.holds = 1
  sent : ∃ ps, s.prepared = ps ++ (s.packetsBuffer ++ s.caller.pending) ∧ s.HasSent ps
  /-- The list has a packet where the thread takes one. -/
  nonempty : s.thread = .wait ∨ s.thread = .drain → s.packetsBuffer ≠ []
  empty : s.thread = .post ∨ s.thread.left = true → s.packetsBuffer = []
  status : s.boolInterfaceStatus = !s.caller.stopped
  stopped : s.thread = .check ∨ s.thread.left = true → s.caller.stopped = true
  ended : s.mainThreadEnded = true ↔ s.thread = .done
  deleted : s.caller = .delete ∨ s.caller = .deleted → s.thread = .done

namespace Inv

variable {s t : SoftflowdInterface}

/-- The invariant holds at the start. -/
theorem start : Inv {} where
  units := rfl
  sent := ⟨[], rfl, [], .nil, .inl rfl⟩
  nonempty := by simp
  empty := fun _ => rfl
  status := rfl
  stopped := by simp [ThreadAt.left]
  ended := by simp
  deleted := by simp

/-- A caller that has not stopped finds the thread in its loop. -/
theorem inLoop (h : s.Inv) (hcaller : s.caller.stopped = false) :
    s.thread ≠ .check ∧ s.thread.left = false := by
  refine ⟨fun hcheck => ?_, Bool.eq_false_iff.mpr fun hleft => ?_⟩
  · exact absurd (h.stopped (.inl hcheck)) (by simp [hcaller])
  · exact absurd (h.stopped (.inr hleft)) (by simp [hcaller])

/-- The steps of the caller keep the invariant. -/
theorem caller (h : s.Inv) (hstep : CallerStep s t) : t.Inv := by
  have hloop := h.inLoop
  obtain ⟨hunits, ⟨ps, hps, hsent⟩, hnonempty, hempty, hstatus, hstopped, hended, hdeleted⟩ := h
  cases hstep with
  | prepare hcaller htmp =>
    rw [hcaller] at hunits hps hstatus hstopped
    refine ⟨hunits, ⟨ps, ?_, hsent⟩, hnonempty, hempty, hstatus, hstopped, hended, by simp⟩
    simp [hps, CallerAt.pending]
  | semWait hcaller hsem =>
    rw [hcaller] at hunits hps hstatus hstopped
    refine ⟨?_, ⟨ps, hps, hsent⟩, hnonempty, hempty, hstatus, hstopped, hended, by simp⟩
    simp only [CallerAt.holds] at hunits ⊢
    omega
  | @pushBack tmp hcaller =>
    have hout := hloop (by rw [hcaller]; rfl)
    rw [hcaller] at hunits hps hstatus hstopped
    refine ⟨hunits, ⟨ps, ?_, hsent⟩, fun _ => by simp, ?_, hstatus, hstopped, hended, by simp⟩
    · simpa [CallerAt.pending] using hps
    · -- the caller has the semaphore, and the thread is in its loop
      rintro (hpost | hleft)
      · rw [hpost] at hunits
        simp only [CallerAt.holds, ThreadAt.holds] at hunits
        omega
      · exact absurd (show s.thread.left = true from hleft) (by simp [hout.2])
  | semPost hcaller =>
    rw [hcaller] at hunits hps hstatus hstopped
    refine ⟨?_, ⟨ps, hps, hsent⟩, hnonempty, hempty, hstatus, hstopped, hended, by simp⟩
    simp only [CallerAt.holds] at hunits ⊢
    omega
  | stop hcaller =>
    rw [hcaller] at hunits hps
    exact ⟨hunits, ⟨ps, hps, hsent⟩, hnonempty, hempty, rfl, fun _ => rfl, hended, by simp⟩
  | ended hcaller hset =>
    rw [hcaller] at hunits hps hstatus
    exact ⟨hunits, ⟨ps, hps, hsent⟩, hnonempty, hempty, hstatus, fun _ => rfl, hended,
      fun _ => hended.mp hset⟩
  | delete hcaller hsem =>
    have hdone := hdeleted (.inl hcaller)
    have hnil := hempty (.inr (by rw [hdone]; rfl))
    rw [hcaller] at hunits hps
    rw [hnil] at hps
    refine ⟨hunits, ⟨ps, hps, hsent⟩, ?_, fun _ => rfl, rfl, fun _ => rfl, hended, fun _ => hdone⟩
    simp [hdone]

/-- The thread goes on to another place, and nothing else changes. -/
theorem moveThread (h : s.Inv) {at' : ThreadAt} (hunits : at'.holds = s.thread.holds)
    (hthread : s.thread.ended = false) (hat : at'.ended = false)
    (hnonempty : at' = .wait ∨ at' = .drain → s.packetsBuffer ≠ [])
    (hempty : at' = .post ∨ at'.left = true → s.packetsBuffer = [])
    (hstopped : at' = .check ∨ at'.left = true → s.caller.stopped = true) :
    Inv { s with thread := at' } := by
  obtain ⟨ps, hps, hsent⟩ := h.sent
  have hdone : s.thread ≠ .done := fun hdone => by rw [hdone] at hthread; cases hthread
  have hdone' : at' ≠ .done := fun hdone => by rw [hdone] at hat; cases hat
  have hset : s.mainThreadEnded ≠ true := fun hset => hdone (h.ended.mp hset)
  exact {
    units := by rw [← h.units, ← hunits]
    sent := ⟨ps, hps, .of_datagrams (hsent.datagrams hthread)⟩
    nonempty := hnonempty
    empty := hempty
    status := h.status
    stopped := hstopped
    ended := ⟨fun h => absurd h hset, fun h => absurd h hdone'⟩
    deleted := fun hdel => absurd (h.deleted hdel) hdone }

/-- So do the steps of the thread. -/
theorem thread (h : s.Inv) (hstep : ThreadStep s t) : t.Inv := by
  obtain ⟨ps, hps, hsent⟩ := h.sent
  cases hstep with
  | loop hthread =>
    have hended : s.thread.ended = false := by rw [hthread]; rfl
    split
    · exact h.moveThread (by rw [hthread]; rfl) hended rfl (by simp) (by simp [ThreadAt.left])
        (by simp [ThreadAt.left])
    · rename_i hset
      have hstopped : s.caller.stopped = true := by simpa [hset] using h.status
      exact h.moveThread (by rw [hthread]; rfl) hended rfl (by simp) (by simp [ThreadAt.left])
        fun _ => hstopped
  | check hthread =>
    have hended : s.thread.ended = false := by rw [hthread]; rfl
    have hstopped := h.stopped (.inl hthread)
    split
    · rename_i hnil
      exact h.moveThread (by rw [hthread]; rfl) hended rfl (by simp) (fun _ => hnil)
        fun _ => hstopped
    · exact h.moveThread (by rw [hthread]; rfl) hended rfl (by simp) (by simp [ThreadAt.left])
        fun _ => hstopped
  | body hthread =>
    have hended : s.thread.ended = false := by rw [hthread]; rfl
    split
    · rename_i hnil
      exact h.moveThread (by rw [hthread]; rfl) hended rfl (by simp) (fun _ => hnil)
        (by simp [ThreadAt.left])
    · rename_i hnil
      exact h.moveThread (by rw [hthread]; rfl) hended rfl (fun _ => hnil) (by simp [ThreadAt.left])
        (by simp [ThreadAt.left])
  | noMessage hthread | sendFails hthread =>
    exact h.moveThread (by rw [hthread]; rfl) (by rw [hthread]; rfl) rfl (by simp)
      (by simp [ThreadAt.left]) (by simp [ThreadAt.left])
  | semWait hthread hsem =>
    have hlist := h.nonempty (.inl hthread)
    have hunits := h.units
    obtain ⟨-, -, -, -, hstatus, -, hended, hdeleted⟩ := h
    rw [hthread] at hunits hended hdeleted
    have hms := hsent.datagrams (by rw [hthread]; rfl)
    refine ⟨?_, ⟨ps, hps, .of_datagrams hms⟩, fun _ => hlist, by simp [ThreadAt.left], hstatus,
      by simp [ThreadAt.left], by simpa using hended, fun hdel => nomatch hdeleted hdel⟩
    simp only [ThreadAt.holds] at hunits ⊢
    omega
  | @send p rest m hthread hbuffer hres hm =>
    obtain ⟨hunits, -, -, -, hstatus, -, hended, hdeleted⟩ := h
    rw [hthread] at hunits hended hdeleted
    have hms := hsent.datagrams (by rw [hthread]; rfl)
    -- the packet at the head of the list is the next one
    have hmore : List.Forall₂ IsMessage (ps ++ [p]) (s.datagrams ++ [m]) :=
      List.rel_append hms (.cons (isMessage_of_dataRes hres hm) .nil)
    have hps' : s.prepared = (ps ++ [p]) ++ (rest ++ s.caller.pending) := by
      rw [hps, hbuffer]
      simp
    split
    · rename_i hnil
      exact ⟨hunits, ⟨ps ++ [p], hps', .of_datagrams hmore⟩, by simp, fun _ => hnil, hstatus,
        by simp [ThreadAt.left], by simpa using hended, fun hdel => nomatch hdeleted hdel⟩
    · rename_i hnil
      exact ⟨hunits, ⟨ps ++ [p], hps', .of_datagrams hmore⟩, fun _ => hnil,
        by simp [ThreadAt.left], hstatus, by simp [ThreadAt.left], by simpa using hended,
        fun hdel => nomatch hdeleted hdel⟩
  | semPost hthread =>
    obtain ⟨hunits, -, -, -, hstatus, -, hended, hdeleted⟩ := h
    rw [hthread] at hunits hended hdeleted
    have hms := hsent.datagrams (by rw [hthread]; rfl)
    refine ⟨?_, ⟨ps, hps, .of_datagrams hms⟩, by simp, by simp [ThreadAt.left], hstatus,
      by simp [ThreadAt.left], by simpa using hended, fun hdel => nomatch hdeleted hdel⟩
    simp only [ThreadAt.holds] at hunits ⊢
    omega
  | finish sent hthread =>
    have hleft : s.thread.left = true := by rw [hthread]; rfl
    have hset := h.stopped (.inr hleft)
    have hnil := h.empty (.inr hleft)
    obtain ⟨hunits, -, -, -, hstatus, -, hended, hdeleted⟩ := h
    rw [hthread] at hunits hended hdeleted
    have hms := hsent.datagrams (by rw [hthread]; rfl)
    refine ⟨hunits, ⟨ps, hps, s.datagrams, hms, ?_⟩, by simp, fun _ => hnil, hstatus,
      fun _ => hset, by simpa using hended, fun hdel => nomatch hdeleted hdel⟩
    cases sent with
    | true => exact .inr ⟨rfl, rfl⟩
    | false => exact .inl rfl
  | exit hthread =>
    have hleft : s.thread.left = true := by rw [hthread]; rfl
    have hset := h.stopped (.inr hleft)
    have hnil := h.empty (.inr hleft)
    have hunits := h.units
    rw [hthread] at hunits
    obtain ⟨ms, hms, hdatagrams⟩ := hsent
    exact ⟨hunits, ⟨ps, hps, ms, hms, hdatagrams.imp_right fun h => ⟨rfl, h.2⟩⟩, by simp,
      fun _ => hnil, h.status, fun _ => hset, by simp, fun _ => rfl⟩

/-- Every step keeps the invariant. -/
theorem step (h : s.Inv) (hstep : Step s t) : t.Inv :=
  hstep.elim h.caller h.thread

end Inv

/-- The invariant holds in every reachable state. -/
theorem Reachable.inv {s : SoftflowdInterface} (h : s.Reachable) : s.Inv := by
  induction h with
  | refl => exact .start
  | tail _ hstep ih => exact ih.step hstep

/-- The thread has sent every packet when it ends, and no packet is accepted any more. -/
theorem Inv.of_ended {s : SoftflowdInterface} (h : s.Inv) (hended : s.thread.ended = true) :
    s.packetsBuffer ++ s.caller.pending = [] ∧ s.caller.stopped = true := by
  have hleft := ThreadAt.left_of_ended hended
  have hstopped := h.stopped (.inr hleft)
  exact ⟨by rw [h.empty (.inr hleft), CallerAt.pending_of_stopped hstopped, List.nil_append],
    hstopped⟩

/-- Where the message at the end has been sent, there is one about every packet before it. -/
theorem Inv.of_endMessage_mem {s : SoftflowdInterface} (h : s.Inv)
    (hmem : endMessage ∈ s.datagrams) : s.caller.stopped = true ∧
      ∃ ms, List.Forall₂ IsMessage s.prepared ms ∧ s.datagrams = ms ++ [endMessage] := by
  obtain ⟨ps, hps, ms, hms, hdatagrams⟩ := h.sent
  rcases hdatagrams with rfl | ⟨hended, hend⟩
  · -- a message about a packet is another one
    obtain ⟨p, -, hp⟩ := forall₂_mem_right hms hmem
    exact absurd rfl hp.ne_endMessage
  · obtain ⟨hnil, hstopped⟩ := h.of_ended hended
    rw [hnil, List.append_nil] at hps
    exact ⟨hstopped, ms, hps ▸ hms, hend⟩

/-! ## Results -/

/-- **Packets are sent in their order.** However the threads take turns: the datagrams are the
messages about the first packets that have been accepted, in their order and each of them once. Only
behind the last packet is there the message at the end, and then no packet is accepted any more. The
threads never both change the list, and where a packet is taken, there is one. -/
theorem interface_inOrder {s : SoftflowdInterface} (h : s.Reachable) :
    (∃ ps qs ms, s.prepared = ps ++ qs ∧ List.Forall₂ IsMessage ps ms ∧
      (s.datagrams = ms ∨
        s.datagrams = ms ++ [endMessage] ∧ qs = [] ∧ s.caller.stopped = true)) ∧
      s.caller.holds + s.thread.holds ≤ 1 ∧ (s.thread = .drain → s.packetsBuffer ≠ []) := by
  have hinv := h.inv
  obtain ⟨ps, hps, ms, hms, hdatagrams⟩ := hinv.sent
  have hunits := hinv.units
  refine ⟨⟨ps, _, ms, hps, hms, ?_⟩, by omega, fun hdrain => hinv.nonempty (.inr hdrain)⟩
  exact hdatagrams.imp_right fun ⟨hended, hend⟩ => ⟨hend, hinv.of_ended hended⟩

/-- A fair run: each thread goes on as long as it can. -/
structure FairRun (σ : ℕ → SoftflowdInterface) : Prop where
  start : σ 0 = {}
  run : Run Step σ
  caller : TakesTurns CallerStep σ
  thread : TakesTurns ThreadStep σ

/-- The invariant holds all along a fair run. -/
theorem FairRun.inv {σ : ℕ → SoftflowdInterface} (h : FairRun σ) (i : ℕ) : (σ i).Inv :=
  h.run.always (h.start ▸ .start) (fun _ _ hinv hstep => hinv.step hstep) i

/-- The steps that the thread still takes at most when the caller has stopped. -/
def toGo (s : SoftflowdInterface) : ℕ :=
  if s.packetsBuffer = [] then
    match s.thread with
    | .body | .post => 5
    | .loop => 4
    | .check => 3
    | .finish => 2
    | .exit => 1
    | .done | .crashed | .wait | .drain => 0
  else
    match s.thread with
    | .loop => 9 + s.packetsBuffer.length
    | .check => 8 + s.packetsBuffer.length
    | .body => 7 + s.packetsBuffer.length
    | .wait => 6 + s.packetsBuffer.length
    | _ => 5 + s.packetsBuffer.length

/-- The caller has stopped, and the thread has not ended. Its messages can be made. -/
structure Stopping (s : SoftflowdInterface) : Prop where
  inv : s.Inv
  stopped : s.caller.stopped = true
  fits : ∀ p ∈ s.prepared, dataRes p ≠ .error .overflow
  going : s.thread ≠ .done ∧ s.thread ≠ .crashed

namespace Stopping

variable {s t : SoftflowdInterface}

/-- The caller waits for the end of the thread. -/
theorem not_callerStep (h : s.Stopping) : ¬ CallerStep s t := by
  have hstopped := h.stopped
  intro hstep
  cases hstep with
  | prepare hcaller | semWait hcaller | pushBack hcaller | semPost hcaller | stop hcaller =>
    rw [hcaller] at hstopped
    cases hstopped
  | ended hcaller hset => exact h.going.1 (h.inv.ended.mp hset)
  | delete hcaller hsem => exact h.going.1 (h.inv.deleted (.inl hcaller))

/-- The destructor does not hold the semaphore. -/
theorem holds_eq (h : s.Stopping) : s.caller.holds = 0 := by
  have hstopped := h.stopped
  cases hcaller : s.caller with
  | ending | delete | deleted => rfl
  | outside | wait | add | post =>
    rw [hcaller] at hstopped
    cases hstopped

/-- Every step brings the thread nearer to its end. -/
theorem threadStep (h : s.Stopping) (hstep : ThreadStep s t) :
    (t.thread = .done ∨ t.thread = .crashed) ∨ t.Stopping ∧ t.toGo < s.toGo := by
  have hinv := h.inv.thread hstep
  have hstatus : s.boolInterfaceStatus = false := by simp [h.inv.status, h.stopped]
  cases hstep with
  | loop hthread =>
    rw [hstatus] at hinv ⊢
    refine .inr ⟨⟨hinv, h.stopped, h.fits, by simp⟩, ?_⟩
    by_cases hnil : s.packetsBuffer = [] <;> simp [toGo, hthread, hnil]
  | check hthread =>
    refine .inr ⟨⟨hinv, h.stopped, h.fits, by split <;> simp⟩, ?_⟩
    by_cases hnil : s.packetsBuffer = [] <;> simp [toGo, hthread, hnil]
  | body hthread =>
    refine .inr ⟨⟨hinv, h.stopped, h.fits, by split <;> simp⟩, ?_⟩
    by_cases hnil : s.packetsBuffer = [] <;> simp [toGo, hthread, hnil]
  | semWait hthread hsem =>
    have hlist := h.inv.nonempty (.inl hthread)
    exact .inr ⟨⟨hinv, h.stopped, h.fits, by simp⟩, by simp [toGo, hthread, hlist]⟩
  | @send p rest m hthread hbuffer hres hm =>
    refine .inr ⟨⟨hinv, h.stopped, h.fits, by split <;> simp⟩, ?_⟩
    by_cases hnil : rest = [] <;> simp [toGo, hthread, hbuffer, hnil]
  | noMessage | sendFails => exact .inl (.inr rfl)
  | semPost hthread =>
    have hnil := h.inv.empty (.inl hthread)
    exact .inr ⟨⟨hinv, h.stopped, h.fits, by simp⟩, by simp [toGo, hthread, hnil]⟩
  | finish sent hthread =>
    have hnil := h.inv.empty (.inr (by rw [hthread]; rfl))
    exact .inr ⟨⟨hinv, h.stopped, h.fits, by simp⟩, by simp [toGo, hthread, hnil]⟩
  | exit => exact .inl (.inl rfl)

/-- The thread can go on. -/
theorem exists_threadStep (h : s.Stopping) : ∃ t, ThreadStep s t := by
  obtain ⟨ps, hps, -⟩ := h.inv.sent
  cases hthread : s.thread with
  | loop => exact ⟨_, .loop hthread⟩
  | check => exact ⟨_, .check hthread⟩
  | body => exact ⟨_, .body hthread⟩
  | wait =>
    have hunits := h.inv.units
    rw [hthread, h.holds_eq] at hunits
    exact ⟨_, .semWait hthread (k := 0) hunits⟩
  | drain =>
    obtain ⟨p, rest, hbuffer⟩ := List.exists_cons_of_ne_nil (h.inv.nonempty (.inr hthread))
    have hmem : p ∈ s.prepared := by simp [hps, hbuffer]
    obtain ⟨m, hres⟩ := exists_dataRes (h.fits p hmem)
    by_cases hm : m = []
    · exact ⟨_, .noMessage hthread hbuffer (hm ▸ hres)⟩
    · exact ⟨_, .send hthread hbuffer hres hm⟩
  | post => exact ⟨_, .semPost hthread⟩
  | finish => exact ⟨_, .finish true hthread⟩
  | exit => exact ⟨_, .exit hthread⟩
  | done => exact absurd hthread h.going.1
  | crashed => exact absurd hthread h.going.2

end Stopping

/-- The thread has ended, and the caller has not deleted the interface yet. -/
structure Waiting (s : SoftflowdInterface) : Prop where
  inv : s.Inv
  thread : s.thread = .done
  caller : s.caller = .ending ∨ s.caller = .delete

namespace Waiting

variable {s t : SoftflowdInterface}

/-- The thread has no step left. -/
theorem not_threadStep (h : s.Waiting) : ¬ ThreadStep s t := by
  intro hstep
  cases hstep with
  | loop hthread | check hthread | body hthread | semWait hthread | send hthread
  | noMessage hthread | sendFails hthread | semPost hthread | finish _ hthread | exit hthread =>
    rw [h.thread] at hthread
    cases hthread

/-- The steps that the caller still takes. -/
def callerToGo (s : SoftflowdInterface) : ℕ := if s.caller = .ending then 1 else 0

/-- The destructor comes closer to its end with every step. -/
theorem callerStep (h : s.Waiting) (hstep : CallerStep s t) :
    t.caller = .deleted ∨ t.Waiting ∧ callerToGo t < callerToGo s := by
  have hinv := h.inv.caller hstep
  have hcaller := h.caller
  cases hstep with
  | prepare hat | semWait hat | pushBack hat | semPost hat | stop hat =>
    rw [hat] at hcaller
    rcases hcaller with hcaller | hcaller <;> cases hcaller
  | ended hat => exact .inr ⟨⟨hinv, h.thread, .inr rfl⟩, by simp [callerToGo, hat]⟩
  | delete => exact .inl rfl

/-- The destructor has a step. -/
theorem exists_callerStep (h : s.Waiting) : ∃ t, CallerStep s t := by
  rcases h.caller with hcaller | hcaller
  · exact ⟨_, .ended hcaller (h.inv.ended.mpr h.thread)⟩
  · have hunits := h.inv.units
    rw [hcaller, h.thread] at hunits
    exact ⟨_, .delete hcaller (k := 0) hunits⟩

end Waiting

/-! ### What stays -/

/-- What has been stopped stays stopped. -/
theorem stopped_of_step {s t : SoftflowdInterface} (h : s.caller.stopped = true)
    (hstep : Step s t) : t.caller.stopped = true := by
  rcases hstep with hstep | hstep
  · cases hstep with
    | prepare hcaller | semWait hcaller | pushBack hcaller | semPost hcaller =>
      rw [hcaller] at h
      cases h
    | stop | ended | delete => rfl
  · cases hstep <;> exact h

/-- What has been deleted stays deleted. -/
theorem deleted_of_step {s t : SoftflowdInterface} (h : s.caller = .deleted) (hstep : Step s t) :
    t.caller = .deleted := by
  rcases hstep with hstep | hstep
  · cases hstep with
    | prepare hcaller | semWait hcaller | pushBack hcaller | semPost hcaller | stop hcaller
    | ended hcaller =>
      rw [hcaller] at h
      cases h
    | delete => rfl
  · cases hstep <;> exact h

/-- Behind an exception the thread has the semaphore, and nothing is done to the list. -/
structure Crashed (ds : List Text) (ps : List Packet) (s : SoftflowdInterface) : Prop where
  inv : s.Inv
  thread : s.thread = .crashed
  datagrams : s.datagrams = ds
  packetsBuffer : s.packetsBuffer = ps

/-- An exception stays, with the packets that it leaves in the list. -/
theorem Crashed.step {ds : List Text} {ps : List Packet} {s t : SoftflowdInterface}
    (h : s.Crashed ds ps) (hstep : Step s t) : t.Crashed ds ps := by
  have hinv := h.inv.step hstep
  have hunits := h.inv.units
  rw [h.thread] at hunits
  rcases hstep with hstep | hstep
  · cases hstep with
    | prepare | semWait | semPost | stop | ended =>
      exact ⟨hinv, h.thread, h.datagrams, h.packetsBuffer⟩
    | pushBack hcaller =>
      rw [hcaller] at hunits
      simp only [CallerAt.holds, ThreadAt.holds] at hunits
      omega
    | delete hcaller =>
      have hdone := h.inv.deleted (.inl hcaller)
      rw [h.thread] at hdone
      cases hdone
  · cases hstep with
    | loop hthread | check hthread | body hthread | semWait hthread | send hthread
    | noMessage hthread | sendFails hthread | semPost hthread | finish _ hthread | exit hthread =>
      rw [h.thread] at hthread
      cases hthread

/-- Neither thread finds the semaphore free. -/
theorem Crashed.semListPackets_eq {ds : List Text} {ps : List Packet} {s : SoftflowdInterface}
    (h : s.Crashed ds ps) : s.semListPackets = 0 := by
  have hunits := h.inv.units
  rw [h.thread] at hunits
  simp only [ThreadAt.holds] at hunits
  omega

section FairRuns

variable {σ : ℕ → SoftflowdInterface}

/-- When the caller has stopped, the thread ends. -/
theorem FairRun.thread_ends (h : FairRun σ)
    (hfits : ∀ i, ∀ p ∈ (σ i).prepared, dataRes p ≠ .error .overflow) {i : ℕ}
    (hstopped : (σ i).caller.stopped = true) :
    ∃ j ≥ i, (σ j).thread = .done ∨ (σ j).thread = .crashed := by
  by_cases hended : (σ i).thread = .done ∨ (σ i).thread = .crashed
  · exact ⟨i, le_rfl, hended⟩
  have hstart : (σ i).Stopping := ⟨h.inv i, hstopped, hfits i, not_or.mp hended⟩
  refine h.run.leads h.thread toGo ?_ (fun s t hs => hs.threadStep)
    (fun s => Stopping.exists_threadStep) hstart
  intro s t hs hstep
  rcases hstep with hstep | hstep
  · exact absurd hstep hs.not_callerStep
  · exact (hs.threadStep hstep).imp_right fun ⟨ht, hlt⟩ => ⟨ht, hlt.le⟩

/-- When the thread has ended without an exception, the interface is deleted. -/
theorem FairRun.deletes (h : FairRun σ) {i : ℕ} (hstopped : (σ i).caller.stopped = true)
    (hdone : (σ i).thread = .done) : ∃ j ≥ i, (σ j).caller = .deleted := by
  by_cases hdel : (σ i).caller = .deleted
  · exact ⟨i, le_rfl, hdel⟩
  have hcaller : (σ i).caller = .ending ∨ (σ i).caller = .delete := by
    cases hat : (σ i).caller with
    | ending => exact .inl rfl
    | delete => exact .inr rfl
    | deleted => exact absurd hat hdel
    | outside | wait | add | post =>
      rw [hat] at hstopped
      cases hstopped
  have hstart : (σ i).Waiting := ⟨h.inv i, hdone, hcaller⟩
  refine h.run.leads h.caller Waiting.callerToGo ?_ (fun s t hs => hs.callerStep)
    (fun s => Waiting.exists_callerStep) hstart
  intro s t hs hstep
  rcases hstep with hstep | hstep
  · exact (hs.callerStep hstep).imp_right fun ⟨ht, hlt⟩ => ⟨ht, hlt.le⟩
  · exact absurd hstep hs.not_threadStep

/-- **The interface is deleted when everything has been sent.** In a fair run in which every message
can be made or is refused by an exception, the interface is deleted exactly when the caller stops it
and no exception ends the thread. Then there is a message about every packet that has been accepted,
and the thread has ended. Behind an exception the semaphore stays taken, nothing is sent any more, and
the list stays as it is. -/
theorem interface_deleted_iff (h : FairRun σ)
    (hfits : ∀ i, ∀ p ∈ (σ i).prepared, dataRes p ≠ .error .overflow) :
    ((∃ i, (σ i).caller = .deleted) ↔
      (∃ i, (σ i).caller.stopped = true) ∧ ∀ i, (σ i).thread ≠ .crashed) ∧
    (∀ i, (σ i).caller = .deleted → (σ i).thread = .done ∧ ∃ ms,
      List.Forall₂ IsMessage (σ i).prepared ms ∧
        ((σ i).datagrams = ms ∨ (σ i).datagrams = ms ++ [endMessage])) ∧
    ∀ i j, i ≤ j → (σ i).thread = .crashed →
      (σ j).semListPackets = 0 ∧ (σ j).datagrams = (σ i).datagrams ∧
        (σ j).packetsBuffer = (σ i).packetsBuffer := by
  have hcrashed (i j : ℕ) (hij : i ≤ j) (hcrash : (σ i).thread = .crashed) :
      (σ j).Crashed (σ i).datagrams (σ i).packetsBuffer :=
    h.run.keeps (fun _ _ hs hstep => hs.step hstep) hij ⟨h.inv i, hcrash, rfl, rfl⟩
  refine ⟨⟨?_, ?_⟩, ?_, ?_⟩
  · rintro ⟨i, hdel⟩
    refine ⟨⟨i, by rw [hdel]; rfl⟩, fun j hcrash => ?_⟩
    -- at a state behind both, the thread has ended in both ways
    have hdel' : (σ (max i j)).caller = .deleted :=
      h.run.keeps (fun _ _ => deleted_of_step) (le_max_left i j) hdel
    have hdone := (h.inv _).deleted (.inr hdel')
    rw [(hcrashed j (max i j) (le_max_right i j) hcrash).thread] at hdone
    cases hdone
  · rintro ⟨⟨i, hstopped⟩, hcrash⟩
    obtain ⟨j, hij, hended⟩ := h.thread_ends hfits hstopped
    have hstopped' : (σ j).caller.stopped = true :=
      h.run.keeps (fun _ _ => stopped_of_step) hij hstopped
    obtain ⟨k, -, hdel⟩ := h.deletes hstopped' (hended.resolve_right (hcrash j))
    exact ⟨k, hdel⟩
  · intro i hdel
    have hdone := (h.inv i).deleted (.inr hdel)
    obtain ⟨ps, hps, ms, hms, hdatagrams⟩ := (h.inv i).sent
    rw [(h.inv i).empty (.inr (by rw [hdone]; rfl)), hdel] at hps
    obtain rfl : (σ i).prepared = ps := by simpa [CallerAt.pending] using hps
    exact ⟨hdone, ms, hms, hdatagrams.imp_right fun h => h.2⟩
  · intro i j hij hcrash
    have hj := hcrashed i j hij hcrash
    exact ⟨hj.semListPackets_eq, hj.datagrams, hj.packetsBuffer⟩

/-- A packet of a router. -/
def routedPacket : Packet where
  szMonitorIp := ascii "10.0.0.1"
  lLength := 40
  szIpSource := ascii "1.2.3.4"
  szIpDest := ascii "5.6.7.8"
  szSourcePort := ascii "80"
  szDestPort := ascii "1024"
  szProtocol := ascii "UDP"

/-- A packet of another flow. -/
def otherPacket : Packet := { routedPacket with szSourcePort := ascii "53" }

/-- The message about the first packet. -/
def routedMessage : Text := ascii "10.0.0.1#1.2.3.4#5.6.7.8#40#0#0#80#1024#0#0#UDP####0"

/-- The message about the other one. -/
def otherMessage : Text := ascii "10.0.0.1#1.2.3.4#5.6.7.8#40#0#0#53#1024#0#0#UDP####0"

/-- The message of the first packet. -/
theorem dataRes_routedPacket : dataRes routedPacket = .ok routedMessage := by
  decide +kernel

/-- The message of the second packet. -/
theorem dataRes_otherPacket : dataRes otherPacket = .ok otherMessage := by
  decide +kernel

/-- The first packet is put into the list. -/
theorem routedPacket_accepted : (preparePacketToBeSent routedPacket).2 = some routedPacket := by
  decide

/-- The second packet is put into the list. -/
theorem otherPacket_accepted : (preparePacketToBeSent otherPacket).2 = some otherPacket := by
  decide

/-- The first packet has been accepted. -/
def onePrepared : SoftflowdInterface := { prepared := [routedPacket] }

/-- Both packets have been accepted. -/
def twoPrepared : SoftflowdInterface := { prepared := [routedPacket, otherPacket] }

/-- Both packets have been sent, and the caller has stopped. -/
def twoSent : SoftflowdInterface :=
  { twoPrepared with
    datagrams := [routedMessage, otherMessage]
    boolInterfaceStatus := false
    caller := .ending }

/-- The message at the end has been sent too. -/
def twoEnded : SoftflowdInterface :=
  { twoSent with datagrams := [routedMessage, otherMessage, endMessage] }

/-- A run in which two packets are sent, step by step. The thread waits for the semaphore while the
second packet is added. -/
def twoPacketRun : ℕ → SoftflowdInterface
  | 0 => {}
  | 1 => { onePrepared with caller := .wait routedPacket }
  | 2 => { onePrepared with caller := .add routedPacket, semListPackets := 0 }
  | 3 => { onePrepared with
      caller := .post, semListPackets := 0, packetsBuffer := [routedPacket] }
  | 4 => { onePrepared with packetsBuffer := [routedPacket] }
  | 5 => { onePrepared with packetsBuffer := [routedPacket], thread := .body }
  | 6 => { onePrepared with packetsBuffer := [routedPacket], thread := .wait }
  | 7 => { twoPrepared with
      caller := .wait otherPacket, packetsBuffer := [routedPacket], thread := .wait }
  | 8 => { twoPrepared with
      caller := .add otherPacket, semListPackets := 0, packetsBuffer := [routedPacket],
      thread := .wait }
  | 9 => { twoPrepared with
      caller := .post, semListPackets := 0, packetsBuffer := [routedPacket, otherPacket],
      thread := .wait }
  | 10 => { twoPrepared with packetsBuffer := [routedPacket, otherPacket], thread := .wait }
  | 11 => { twoPrepared with
      semListPackets := 0, packetsBuffer := [routedPacket, otherPacket], thread := .drain }
  | 12 => { twoPrepared with
      semListPackets := 0, packetsBuffer := [otherPacket], thread := .drain,
      datagrams := [routedMessage] }
  | 13 => { twoPrepared with
      semListPackets := 0, thread := .post, datagrams := [routedMessage, otherMessage] }
  | 14 => { twoPrepared with datagrams := [routedMessage, otherMessage] }
  | 15 => twoSent
  | 16 => { twoSent with thread := .check }
  | 17 => { twoSent with thread := .finish }
  | 18 => { twoEnded with thread := .exit }
  | 19 => { twoEnded with thread := .done, mainThreadEnded := true }
  | 20 => { twoEnded with thread := .done, mainThreadEnded := true, caller := .delete }
  | _ + 21 => { twoEnded with thread := .done, mainThreadEnded := true, caller := .deleted }

/-- The states of the run follow each other. -/
theorem twoPacketRun_step (i : ℕ) :
    twoPacketRun (i + 1) = twoPacketRun i ∨ Step (twoPacketRun i) (twoPacketRun (i + 1)) := by
  match i with
  | 0 => exact .inr (.inl (.prepare rfl routedPacket_accepted))
  | 1 => exact .inr (.inl (.semWait rfl rfl))
  | 2 => exact .inr (.inl (.pushBack rfl))
  | 3 => exact .inr (.inl (.semPost rfl))
  | 4 => exact .inr (.inr (.loop rfl))
  | 5 => exact .inr (.inr (.body rfl))
  | 6 => exact .inr (.inl (.prepare rfl otherPacket_accepted))
  | 7 => exact .inr (.inl (.semWait rfl rfl))
  | 8 => exact .inr (.inl (.pushBack rfl))
  | 9 => exact .inr (.inl (.semPost rfl))
  | 10 => exact .inr (.inr (.semWait rfl rfl))
  | 11 => exact .inr (.inr (.send rfl rfl dataRes_routedPacket (by decide)))
  | 12 => exact .inr (.inr (.send rfl rfl dataRes_otherPacket (by decide)))
  | 13 => exact .inr (.inr (.semPost rfl))
  | 14 => exact .inr (.inl (.stop rfl))
  | 15 => exact .inr (.inr (.loop rfl))
  | 16 => exact .inr (.inr (.check rfl))
  | 17 => exact .inr (.inr (.finish true rfl))
  | 18 => exact .inr (.inr (.exit rfl))
  | 19 => exact .inr (.inl (.ended rfl rfl))
  | 20 => exact .inr (.inl (.delete rfl rfl))
  | _ + 21 => exact .inl rfl

/-- The run of two packets is fair. -/
theorem fairRun_twoPacketRun : FairRun twoPacketRun where
  start := rfl
  run := twoPacketRun_step
  caller i := by
    refine ⟨i + 21, Nat.le_add_right i 21, .inr fun t hstep => ?_⟩
    cases hstep with
    | prepare h | semWait h | pushBack h | semPost h | stop h | ended h | delete h => cases h
  thread i := by
    refine ⟨i + 21, Nat.le_add_right i 21, .inr fun t hstep => ?_⟩
    cases hstep with
    | loop h | check h | body h | semWait h | send h | noMessage h | sendFails h | semPost h
    | finish _ h | exit h => cases h

/-- The messages of both packets fit. -/
theorem fits_twoPacketRun (i : ℕ) :
    ∀ p ∈ (twoPacketRun i).prepared, dataRes p ≠ .error .overflow := by
  have hfits : ∀ p ∈ [routedPacket, otherPacket], dataRes p ≠ .error .overflow := by
    rintro p (- | ⟨- , - | ⟨-, hp⟩⟩)
    · rw [dataRes_routedPacket]
      exact nofun
    · rw [dataRes_otherPacket]
      exact nofun
    · cases hp
  match i with
  | 0 => exact fun p hp => nomatch hp
  | 1 | 2 | 3 | 4 | 5 | 6 =>
    exact fun p hp => hfits p (List.mem_append_left [otherPacket] hp)
  | 7 | 8 | 9 | 10 | 11 | 12 | 13 | 14 | 15 | 16 | 17 | 18 | 19 | 20 | _ + 21 => exact hfits

/-- Both packets are sent, and the interface deleted. -/
theorem interface_deleted_iff_two : (∃ i, (twoPacketRun i).caller = .deleted) ∧
    ∀ i, (twoPacketRun i).thread ≠ .crashed := by
  have hdel : ∃ i, (twoPacketRun i).caller = .deleted := ⟨21, rfl⟩
  have hall := interface_deleted_iff fairRun_twoPacketRun fits_twoPacketRun
  exact ⟨hdel, (hall.1.mp hdel).2⟩

/-- The states of a run can be reached. -/
theorem FairRun.reachable (h : FairRun σ) (i : ℕ) : (σ i).Reachable :=
  h.run.always (P := Reachable) (h.start ▸ .refl) (fun _ _ => .tail) i

/-- Behind the first message the other packet is still in the list. When the interface has been
deleted, the message at the end is the last one. -/
theorem interface_inOrder_two :
    (twoPacketRun 12).datagrams = [routedMessage] ∧
    (twoPacketRun 21).datagrams = [routedMessage, otherMessage, endMessage] ∧
    ∃ ps qs ms, (twoPacketRun 21).prepared = ps ++ qs ∧ List.Forall₂ IsMessage ps ms ∧
      ((twoPacketRun 21).datagrams = ms ∨ (twoPacketRun 21).datagrams = ms ++ [endMessage] ∧
        qs = [] ∧ (twoPacketRun 21).caller.stopped = true) :=
  ⟨rfl, rfl, (interface_inOrder (fairRun_twoPacketRun.reachable 21)).1⟩

end FairRuns

end SoftflowdInterface

end Nsp
