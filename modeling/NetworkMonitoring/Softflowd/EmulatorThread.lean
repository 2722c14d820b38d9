import NetworkMonitoring.Foundations.FairRuns
import NetworkMonitoring.Softflowd.ExpiryLoop

/-!
# softflowd — the thread that listens to the emulator

In emulator mode two threads work on the flow table: `EmulatorThreadProcess` receives messages, and
the loop of `main` expires flows. Both do so between `sem_wait` and `sem_post` of
`flow_expiry_sem`. The message `end` makes the receiving thread set `StopsEmulatorThread` and
leave; `main` then expires everything and leaves too.

* `MainStep` and `ThreadStep` are the steps of the two threads. A step is one access to something
  the threads share: the semaphore, `StopsEmulatorThread`, or the table.
* `main` decides outside of the semaphore whether there is something to expire: it reads `num_flows`
  and the tree, maybe while the receiving thread writes there. What it reads may be anything, so
  both outcomes are steps.
* No allocation fails. The calls of `check_expired` have any clock.
* No signal arrives: the handlers set `StopsEmulatorThread` wherever the receiving thread is.

## Main results

* `emulation_exclusive`: while `main` is in its expiry section, the receiving thread is not in
  `accept_emulator`, and once the receiving thread has left, `main` does not wait;
* `emulation_complete`: when `main` leaves, every flow has been handed to the exporter once;
* `emulation_drains`: once `StopsEmulatorThread` is set, every run of `main` comes to its end.
-/

namespace Softflowd

open CText ErrorLoops Function OrderedSet

/-! ## Receiving a message -/

/-- What the environment decides about a call of `accept_emulator`. -/
structure Reception where
  /-- The text in `buf`; `none` when `recvfrom` fails. -/
  buf : Option Text
  received : Timeval := {}
  uninit : Uninit := {}
  /-- Whether `RandomPeriodicNodeSampling` takes a packet of the monitor. -/
  sampled : Text → Bool := fun _ => true

/-- The length of the packet. The result of `get_emulator_packet_part` is not looked at, so a
missing part is the text of the zeroed array. -/
def messageLength (buf : Text) : Except Fault ℤ :=
  match copyPart 16 buf 3 with
  | .error (.fault f) => .error f
  | .error .fail => .ok (atoi [])
  | .ok tmp => .ok (atoi tmp)

/-- The call of `process_emulator_packet` for the message `buf`. -/
def Reception.call (c : Reception) (buf : Text) (len : ℤ) : EmulatorCall where
  pkt := buf
  len := UInt32.ofInt len
  received := c.received
  uninit := c.uninit

/-- `accept_emulator`. -/
def acceptEmulator (s : Tracker) (c : Reception) : Except Fault (ℤ × Tracker) :=
  match c.buf with
  | none => .ok (-1, s)
  | some buf =>
    -- The end of transmission
    if buf = ascii "end" then .ok (1, s)
    else do
      let len ← messageLength buf
      match copyPart 16 buf 0 with
      | .error (.fault f) => .error f
      | .error .fail => return (-1, s)
      | .ok tmp =>
        if c.sampled tmp then
          return (0, (← processEmulatorPacket s (c.call buf len)).2)
        else return (0, s)

/-- A reception leaves the tracker alone, or processes the message. -/
theorem acceptEmulator_cases {s s' : Tracker} {c : Reception} {ret : ℤ}
    (h : acceptEmulator s c = .ok (ret, s')) :
    s' = s ∨ ∃ buf len r, processEmulatorPacket s (c.call buf len) = .ok (r, s') := by
  unfold acceptEmulator at h
  split at h
  · exact .inl (Prod.mk.inj (Except.ok.inj h)).2.symm
  · rename_i buf _
    split at h
    · exact .inl (Prod.mk.inj (Except.ok.inj h)).2.symm
    · obtain ⟨len, -, h⟩ := bind_eq_ok.mp h
      split at h
      · cases h
      · exact .inl (Prod.mk.inj (Except.ok.inj h)).2.symm
      · split at h
        · obtain ⟨⟨r, t⟩, hcall, h⟩ := bind_eq_ok.mp h
          obtain ⟨-, rfl⟩ := Prod.mk.inj (Except.ok.inj h)
          exact .inr ⟨buf, len, r, hcall⟩
        · exact .inl (Prod.mk.inj (Except.ok.inj h)).2.symm

/-! ## The threads -/

/-- Where `main` is. Inside of the expiry section, `held` tells whether it has come there through
`sem_wait`. -/
inductive MainAt where
  /-- At the condition `flowtrack.num_flows > max_flows || next_expire(&flowtrack) == 0 || …`. -/
  | loop
  /-- Behind the condition. -/
  | enter
  /-- At `sem_wait`. -/
  | wait
  /-- At `check_expired`. -/
  | expiry (held : Bool)
  /-- Behind `check_expired`. -/
  | decide (held : Bool)
  /-- At the end of the section. -/
  | leave (held : Bool)
  /-- Behind the loop. -/
  | done
  deriving DecidableEq, Repr

/-- Where `EmulatorThreadProcess` is. -/
inductive ThreadAt where
  | loop
  /-- At `sem_wait`. -/
  | wait
  /-- At `accept_emulator`. -/
  | accept
  /-- At `sem_post`, with the result of `accept_emulator`. -/
  | post (ret : ℤ)
  /-- At `SetStopsEmulatorThread`. -/
  | ended
  | done
  deriving DecidableEq, Repr

/-- What the threads share. `handed` are the flows that have been handed to the exporter. -/
structure Emulation where
  daemon : Daemon := {}
  flowExpirySem : ℕ := 1
  stopsEmulatorThread : Bool := false
  main : MainAt := .loop
  thread : ThreadAt := .loop
  handed : List Flow := []

/-- The flow table. -/
def Emulation.ft (s : Emulation) : FlowTrack := s.daemon.tracker.ft

/-- What a pass of `main` through the expiry section reads. -/
def emulationEnv (maxFlows : UInt32) (target : Option NetflowSendFunc) (now : Timeval)
    (stops : Bool) : ExpiryEnv where
  usingEmulator := true
  stopsEmulatorThread := stops
  maxFlows := maxFlows
  target := target
  now := now

/-- The state behind `check_expired`, as the expiry loop sees it. -/
def Emulation.pass (s : Emulation) : ExpiryLoop := { daemon := s.daemon, handed := s.handed }

/-- The steps of `main`. -/
inductive MainStep (maxFlows : UInt32) (target : Option NetflowSendFunc) :
    Emulation → Emulation → Prop where
  /-- The condition holds, whatever it has read. -/
  | check {s : Emulation} : s.main = .loop → MainStep maxFlows target s { s with main := .enter }
  | enterStopped {s : Emulation} : s.main = .enter → s.stopsEmulatorThread = true →
      MainStep maxFlows target s { s with main := .expiry false }
  | enterWait {s : Emulation} : s.main = .enter → s.stopsEmulatorThread = false →
      MainStep maxFlows target s { s with main := .wait }
  | semWait {s : Emulation} {k : ℕ} : s.main = .wait → s.flowExpirySem = k + 1 →
      MainStep maxFlows target s { s with flowExpirySem := k, main := .expiry true }
  | checkExpired {s : Emulation} {held : Bool} {r : ℤ} {d : Daemon} (now : Timeval) :
      s.main = .expiry held →
      checkExpired ((emulationEnv maxFlows target now false).call 0) s.daemon = .ok (r, d) →
      MainStep maxFlows target s { s with
        daemon := d
        handed := s.handed ++ ((emulationEnv maxFlows target now false).call 0).handsOn s.daemon
        main := .decide held }
  /-- `force_expire`, and back to `expiry_check`. -/
  | force {s : Emulation} {held : Bool} {st : ExpiryLoop} : s.main = .decide held →
      s.pass.proceed (emulationEnv maxFlows target {} s.stopsEmulatorThread) = .inr st →
      MainStep maxFlows target s { s with daemon := st.daemon, main := .expiry held }
  /-- `exit_request = 1; break;`. -/
  | exit {s : Emulation} {held : Bool} {st : ExpiryLoop} : s.main = .decide held →
      s.pass.proceed (emulationEnv maxFlows target {} s.stopsEmulatorThread) = .inl st →
      st.exitRequest = true → MainStep maxFlows target s { s with main := .done }
  | settle {s : Emulation} {held : Bool} {st : ExpiryLoop} : s.main = .decide held →
      s.pass.proceed (emulationEnv maxFlows target {} s.stopsEmulatorThread) = .inl st →
      st.exitRequest = false → MainStep maxFlows target s { s with main := .leave held }
  | leaveStopped {s : Emulation} {held : Bool} : s.main = .leave held →
      s.stopsEmulatorThread = true → MainStep maxFlows target s { s with main := .loop }
  | semPost {s : Emulation} {held : Bool} : s.main = .leave held →
      s.stopsEmulatorThread = false →
      MainStep maxFlows target s { s with flowExpirySem := s.flowExpirySem + 1, main := .loop }

/-- The steps of `EmulatorThreadProcess`. -/
inductive ThreadStep : Emulation → Emulation → Prop where
  | stop {s : Emulation} : s.thread = .loop → s.stopsEmulatorThread = true →
      ThreadStep s { s with thread := .done }
  | goOn {s : Emulation} : s.thread = .loop → s.stopsEmulatorThread = false →
      ThreadStep s { s with thread := .wait }
  | semWait {s : Emulation} {k : ℕ} : s.thread = .wait → s.flowExpirySem = k + 1 →
      ThreadStep s { s with flowExpirySem := k, thread := .accept }
  | accept {s : Emulation} {ret : ℤ} {t : Tracker} (c : Reception) : s.thread = .accept →
      acceptEmulator s.daemon.tracker c = .ok (ret, t) →
      ThreadStep s { s with daemon := { s.daemon with tracker := t }, thread := .post ret }
  | semPost {s : Emulation} {ret : ℤ} : s.thread = .post ret →
      ThreadStep s { s with
        flowExpirySem := s.flowExpirySem + 1
        thread := if ret = 1 then .ended else .loop }
  | setStops {s : Emulation} : s.thread = .ended →
      ThreadStep s { s with stopsEmulatorThread := true, thread := .done }

/-- The start of the two threads. -/
structure Emulation.Initial (s : Emulation) : Prop where
  daemon : s.daemon.Initial
  flowExpirySem_eq : s.flowExpirySem = 1
  stopsEmulatorThread_eq : s.stopsEmulatorThread = false
  main_eq : s.main = .loop
  thread_eq : s.thread = .loop
  handed_eq : s.handed = []

/-- The states of the runs in which the threads take turns in any order; `n` flows have been
created. -/
inductive Emulated (maxFlows : UInt32) (target : Option NetflowSendFunc) :
    ℕ → Emulation → Prop where
  | init {s : Emulation} : s.Initial → Emulated maxFlows target 0 s
  | main {n : ℕ} {s s' : Emulation} : Emulated maxFlows target n s → MainStep maxFlows target s s' →
      Emulated maxFlows target n s'
  | thread {n : ℕ} {s s' : Emulation} : Emulated maxFlows target n s → ThreadStep s s' →
      Emulated maxFlows target (created n s.ft s'.ft) s'

/-! ## The semaphore -/

/-- The units of the semaphore that `main` holds. -/
def MainAt.holds : MainAt → ℕ
  | .expiry true | .decide true | .leave true => 1
  | _ => 0

/-- Whether `main` is in the expiry section, from `check_expired` to the decision behind it. -/
def MainAt.inSection : MainAt → Bool
  | .expiry _ | .decide _ => true
  | _ => false

/-- Whether `main` is in the expiry section without holding the semaphore. -/
def MainAt.unheld : MainAt → Bool
  | .expiry false | .decide false | .leave false => true
  | _ => false

/-- The units of the semaphore that the receiving thread holds. -/
def ThreadAt.holds : ThreadAt → ℕ
  | .accept | .post _ => 1
  | _ => 0

/-- What holds of the semaphore. When the receiving thread has left, `main` may keep the unit. -/
structure Emulation.Locked (s : Emulation) : Prop where
  stops_iff : s.stopsEmulatorThread = true ↔ s.thread = .done
  unheld : s.main.unheld = true → s.stopsEmulatorThread = true
  units : s.flowExpirySem + s.main.holds + s.thread.holds = 1 ∨
    s.stopsEmulatorThread = true ∧ s.main ≠ .wait

namespace Emulation.Locked

variable {maxFlows : UInt32} {target : Option NetflowSendFunc} {s s' : Emulation}

theorem start (h : s.Initial) : s.Locked where
  stops_iff := by simp [h.stopsEmulatorThread_eq, h.thread_eq]
  unheld := by simp [h.main_eq, MainAt.unheld]
  units := .inl (by simp [h.flowExpirySem_eq, h.main_eq, h.thread_eq, MainAt.holds, ThreadAt.holds])

/-- `main` leaves the loop when the receiving thread has left and no flow is counted. -/
theorem exit_spec {stops : Bool} {st : ExpiryLoop}
    (hgo : s.pass.proceed (emulationEnv maxFlows target {} stops) = .inl st)
    (hexit : st.exitRequest = true) : stops = true ∧ s.ft.numFlows = 0 := by
  unfold ExpiryLoop.proceed at hgo
  split at hgo
  · cases hgo
  · split at hgo
    · rename_i hstops
      split at hgo
      · cases hgo
      · rename_i hnum
        exact ⟨hstops, UInt32.le_zero_iff.mp (UInt32.not_lt.mp hnum)⟩
    · obtain rfl := Sum.inl.inj hgo
      cases hexit

/-- The steps of `main` keep the units: it waits for one only while the other thread may give it
back. -/
theorem main (h : s.Locked) (hstep : MainStep maxFlows target s s') : s'.Locked := by
  obtain ⟨hstops, hunheld, hunits⟩ := h
  cases hstep with
  | check hmain =>
    rw [hmain] at hunits
    exact ⟨hstops, nofun, hunits.imp_right fun h => ⟨h.1, nofun⟩⟩
  | enterStopped hmain hset =>
    exact ⟨hstops, fun _ => hset, .inr ⟨hset, nofun⟩⟩
  | enterWait hmain hset =>
    rw [hmain] at hunits
    refine ⟨hstops, nofun, .inl (hunits.resolve_right fun h => ?_)⟩
    exact absurd h.1 (by simp [hset])
  | @semWait k hmain hsem =>
    rw [hmain, hsem] at hunits
    refine ⟨hstops, nofun, .inl ?_⟩
    have hone := hunits.resolve_right fun h => h.2 rfl
    simp only [MainAt.holds] at hone ⊢
    omega
  | @checkExpired held _ _ now hmain hcall =>
    rw [hmain] at hunheld hunits
    cases held with
    | true => exact ⟨hstops, nofun, hunits.imp_right fun h => ⟨h.1, nofun⟩⟩
    | false => exact ⟨hstops, hunheld, .inr ⟨hunheld rfl, nofun⟩⟩
  | @force held _ hmain hgo =>
    rw [hmain] at hunheld hunits
    cases held with
    | true => exact ⟨hstops, nofun, hunits.imp_right fun h => ⟨h.1, nofun⟩⟩
    | false => exact ⟨hstops, hunheld, .inr ⟨hunheld rfl, nofun⟩⟩
  | exit hmain hgo hexit =>
    exact ⟨hstops, nofun, .inr ⟨(exit_spec hgo hexit).1, nofun⟩⟩
  | @settle held _ hmain hgo hexit =>
    rw [hmain] at hunheld hunits
    cases held with
    | true => exact ⟨hstops, nofun, hunits.imp_right fun h => ⟨h.1, nofun⟩⟩
    | false => exact ⟨hstops, hunheld, .inr ⟨hunheld rfl, nofun⟩⟩
  | leaveStopped hmain hset =>
    exact ⟨hstops, nofun, .inr ⟨hset, nofun⟩⟩
  | @semPost held hmain hset =>
    rw [hmain] at hunheld hunits
    cases held with
    | true =>
      have hone := hunits.resolve_right fun h => absurd h.1 (by simp [hset])
      exact ⟨hstops, nofun, .inl hone⟩
    | false => exact absurd (hunheld rfl) (by simp [hset])

/-- So do the steps of the receiving thread. -/
theorem thread (h : s.Locked) (hstep : ThreadStep s s') : s'.Locked := by
  obtain ⟨hstops, hunheld, hunits⟩ := h
  cases hstep with
  | stop hthread hset =>
    rw [hthread] at hstops
    cases hstops.mp hset
  | goOn hthread hset =>
    rw [hthread] at hunits
    exact ⟨by simp [hset], hunheld, hunits⟩
  | @semWait k hthread hsem =>
    rw [hthread] at hstops hunits
    rw [hsem] at hunits
    have hset : s.stopsEmulatorThread ≠ true := fun hset => nomatch hstops.mp hset
    have hone := hunits.resolve_right fun h => hset h.1
    refine ⟨by simp [hset], hunheld, .inl ?_⟩
    simp only [ThreadAt.holds] at hone ⊢
    omega
  | accept c hthread hcall =>
    rw [hthread] at hstops hunits
    have hset : s.stopsEmulatorThread ≠ true := fun hset => nomatch hstops.mp hset
    exact ⟨by simp [hset], hunheld, hunits⟩
  | @semPost ret hthread =>
    rw [hthread] at hstops hunits
    have hset : s.stopsEmulatorThread ≠ true := fun hset => nomatch hstops.mp hset
    have hone := hunits.resolve_right fun h => hset h.1
    refine ⟨?_, hunheld, .inl ?_⟩
    · refine ⟨fun h => absurd h hset, fun h => ?_⟩
      split at h <;> cases h
    · simp only [ThreadAt.holds] at hone
      have hnone : (if ret = 1 then ThreadAt.ended else ThreadAt.loop).holds = 0 := by
        split <;> rfl
      simp only [hnone]
      omega
  | setStops hthread =>
    rw [hthread] at hunits
    exact ⟨by simp, fun _ => rfl, hunits.imp id fun h => ⟨rfl, h.2⟩⟩

/-- In the expiry section, `main` is alone. -/
theorem thread_holds (h : s.Locked) (hsection : s.main.inSection = true) : s.thread.holds = 0 := by
  by_cases hset : s.stopsEmulatorThread = true
  · rw [h.stops_iff.mp hset]
    rfl
  · have hone := h.units.resolve_right fun h => hset h.1
    have hunheld := h.unheld
    -- in the section, `main` holds the unit
    have hholds : s.main.holds = 1 := by
      cases hmain : s.main with
      | expiry held | decide held =>
        rw [hmain] at hunheld
        cases held with
        | true => rfl
        | false => exact absurd (hunheld rfl) hset
      | loop | enter | wait | leave | done =>
        rw [hmain] at hsection
        cases hsection
    omega

/-- When the receiving thread has left, it has given its unit back. -/
theorem sem_eq (h : s.Locked) (hthread : s.thread = .done) (hmain : s.main = .wait) :
    s.flowExpirySem = 1 := by
  have hone := h.units.resolve_right fun h => h.2 hmain
  rw [hthread, hmain] at hone
  simpa [MainAt.holds, ThreadAt.holds] using hone

end Emulation.Locked

/-! ## The flows -/

/-- The sequence numbers of the first `n` flows. -/
def firstSeqs (n : ℕ) : List UInt64 := (List.range n).map fun i => UInt64.ofNat (1 + i)

theorem firstSeqs_succ (n : ℕ) : firstSeqs (n + 1) = firstSeqs n ++ [UInt64.ofNat (1 + n)] := by
  simp [firstSeqs, List.range_succ]

/-- A call creates a flow, or leaves the flows there are. -/
inductive SeqsMoved (n : ℕ) (ft ft' : FlowTrack) : Prop where
  | same : created n ft ft' = n → ft'.flows.map Flow.flowSeq = ft.flows.map Flow.flowSeq →
      SeqsMoved n ft ft'
  | succ : created n ft ft' = n + 1 →
      (ft'.flows.map Flow.flowSeq).Perm (UInt64.ofNat (1 + n) :: ft.flows.map Flow.flowSeq) →
      SeqsMoved n ft ft'

section Messages

variable {n : ℕ} {ft ft' : FlowTrack}

/-- Writing to a flow without a change of its identity. -/
theorem seqs_modifyFlow {p : ℕ} {g : Flow → Flow} (hg : ∀ f, (g f).flowSeq = f.flowSeq) :
    (ft.modifyFlow p g).flows.map Flow.flowSeq = ft.flows.map Flow.flowSeq := by
  rw [FlowTrack.modifyFlow, List.map_map]
  refine List.map_congr_left fun f _ => ?_
  by_cases hp : f.ptr = p
  · simp [hp, hg]
  · simp [hp]

/-- Replacing a flow of the table by one with the same identity. -/
theorem TableInv.seqs_replaceFlow (h : TableInv n ft) {f f' : Flow} (hf : f ∈ ft.flows)
    (hid : f'.ident = f.ident) :
    (ft.modifyFlow f.ptr fun _ => f').flows.map Flow.flowSeq = ft.flows.map Flow.flowSeq := by
  rw [FlowTrack.modifyFlow, List.map_map]
  refine List.map_congr_left fun g hg => ?_
  by_cases hp : g.ptr = f.ptr
  · obtain rfl : g = f := List.inj_on_of_nodup_map h.nodup_ptr hg hf hp
    have hseq : f'.flowSeq = g.flowSeq := congrArg (fun x => x.2.2.1) hid
    simpa using hseq
  · simp [hp]

/-- The accounts of a call. -/
theorem SeqsMoved.accounted (h : SeqsMoved n ft ft') {handed : List Flow}
    (hseqs : ((handed ++ ft.flows).map Flow.flowSeq).Perm (firstSeqs n)) :
    ((handed ++ ft'.flows).map Flow.flowSeq).Perm (firstSeqs (created n ft ft')) := by
  rw [List.map_append] at hseqs ⊢
  cases h with
  | same hcount hflows => rwa [hcount, hflows]
  | succ hcount hflows =>
    rw [hcount, firstSeqs_succ]
    have hnew := (hflows.append_left (handed.map Flow.flowSeq)).trans List.perm_middle
    exact (hnew.trans (hseqs.cons _)).trans (List.perm_append_singleton _ _).symm

/-- A message that creates a flow. -/
theorem SeqsMoved.of_createFlow {n : ℕ} {ft ft₁ ft' : FlowTrack} {tmp : Flow} (h : TableInv n ft)
    (hinv : TableInv (n + 1) ft') (hperm : ft₁.flows.Perm (ft.createdFlow tmp :: ft.flows))
    (hseqs : ft'.flows.map Flow.flowSeq = ft₁.flows.map Flow.flowSeq) : SeqsMoved n ft ft' := by
  refine .succ (h.created_eq_succ hinv) ?_
  rw [hseqs, ← h.nextFlowSeq_eq]
  exact hperm.map Flow.flowSeq

/-- What a message does to the flows. -/
theorem EmulatorStep.seqsMoved {s s' : Tracker} {c : EmulatorCall} {r : PpResult} {n : ℕ}
    (hstep : EmulatorStep s c r s') (h : TableInv n s.ft) (hn : n < 2 ^ 64)
    (hr : r ≠ .mallocFail) : SeqsMoved n s.ft s'.ft := by
  have hflows (frag : ℤ) : (s.ft.counted frag).flows = s.ft.flows :=
    congrArg Prod.fst (s.ft.table_counted frag)
  have hsame (frag : ℤ) : Softflowd.created n s.ft (s.ft.counted frag) = n :=
    TableInv.created_eq_self (s.ft.nextFlowSeq_counted frag)
  -- counting a packet changes no flow
  have hmoved {frag : ℤ} {ft' : FlowTrack} (h' : SeqsMoved n (s.ft.counted frag) ft') :
      SeqsMoved n s.ft ft' := by
    cases h' with
    | same hcount hseqs =>
      rw [Softflowd.created, s.ft.nextFlowSeq_counted] at hcount
      exact .same hcount (hflows frag ▸ hseqs)
    | succ hcount hseqs =>
      rw [Softflowd.created, s.ft.nextFlowSeq_counted] at hcount
      exact .succ hcount (hflows frag ▸ hseqs)
  cases hstep with
  | badRecord => exact .same (TableInv.created_eq_self rfl) rfl
  | noMemory => exact absurd rfl hr
  | @createdBad tmp frag ndx ft p _ hfind hcreate =>
    obtain ⟨-, hinv, hperm, -⟩ := (h.counted frag).createFlow_inv hn hfind hcreate
    exact hmoved (.of_createFlow (h.counted frag) hinv hperm rfl)
  | @created tmp frag ndx ft p em a ms _ hfind hcreate =>
    obtain ⟨-, hinv, hperm, -⟩ := (h.counted frag).createFlow_inv hn hfind hcreate
    have hseqs : (ft.modifyFlow p (firstMonitor ndx a)).flows.map Flow.flowSeq =
        ft.flows.map Flow.flowSeq := seqs_modifyFlow fun _ => rfl
    exact hmoved (.of_createFlow (h.counted frag) (hinv.modifyFlow fun _ _ _ => rfl) hperm hseqs)
  | ignored => exact .same (hsame _) (by rw [hflows])
  | updatedBad => exact .same (hsame _) (by rw [hflows])
  | updatedBadMonitor => exact .same (hsame _) (by rw [hflows])
  | @updatedBadMark _ frag _ _ _ _ _ _ _ hfind _ _ _ hcount =>
    obtain ⟨hflow, -⟩ := find_eq_some hfind
    refine .same (hsame frag) ?_
    rw [(h.counted frag).seqs_replaceFlow hflow (ident_of_countMonitor hcount), hflows]
  | @updated tmp frag ndx flow _ _ _ _ flow' last ft _ hfind _ _ _ _ _ hcount _ _ hupd =>
    obtain ⟨hflow, -⟩ := find_eq_some hfind
    have hid := (c.ident_settle last ((s.ft.counted frag).maskRecord tmp) ndx flow').trans
      (ident_of_countMonitor hcount)
    obtain ⟨e, he, -, rfl⟩ := (h.counted frag).replaceFlow_updateExpiry hflow hid hupd
    refine .same (hsame frag) ?_
    exact ((h.counted frag).seqs_replaceFlow hflow hid).trans (by rw [hflows])

end Messages

/-- A message that finds memory does not fail for lack of it. -/
theorem EmulatorStep.ne_mallocFail {s s' : Tracker} {c : EmulatorCall} {r : PpResult}
    (hstep : EmulatorStep s c r s') (halloc : c.alloc = {}) : r ≠ .mallocFail := by
  rintro rfl
  cases hstep with
  | noMemory _ _ hcreate =>
    rw [halloc] at hcreate
    simp [FlowTrack.createFlow] at hcreate

/-- The table is consistent, and each of the `n` flows that have been created is in the table or has
been handed to the exporter, once. -/
structure Emulation.Accounted (n : ℕ) (s : Emulation) : Prop where
  table : TableInv n s.ft
  seqs : ((s.handed ++ s.ft.flows).map Flow.flowSeq).Perm (firstSeqs n)

namespace Emulation.Accounted

variable {maxFlows : UInt32} {target : Option NetflowSendFunc} {n : ℕ} {s s' : Emulation}

theorem start (h : s.Initial) : s.Accounted 0 where
  table := .empty h.daemon.flows_eq h.daemon.expiries_eq h.daemon.nextFlowSeq_eq
    h.daemon.numFlows_eq
  seqs := by
    have hflows : s.ft.flows = [] := h.daemon.flows_eq
    simp [hflows, h.handed_eq, firstSeqs]

/-- `check_expired` hands on the flows it takes out. -/
theorem expire (h : s.Accounted n) {now : Timeval} {r : ℤ} {d : Daemon}
    (hcall : checkExpired ((emulationEnv maxFlows target now false).call 0) s.daemon =
      .ok (r, d)) :
    TableInv n d.tracker.ft ∧
      d.tracker.ft.expiries = s.ft.expiries.filter (fun e => !e.isDue now .normal) ∧
      ((s.handed ++ ((emulationEnv maxFlows target now false).call 0).handsOn s.daemon ++
        d.tracker.ft.flows).map Flow.flowSeq).Perm (firstSeqs n) := by
  set c := (emulationEnv maxFlows target now false).call 0 with hc
  obtain ⟨ft, expired, hscan, htable⟩ := checkExpired_table hcall
  obtain ⟨ft', gone, hscan', hinv, -, hperm, hexp⟩ := h.table.scanExpired c.now c.ex
  obtain ⟨rfl, rfl⟩ := Prod.mk.inj (Except.ok.inj (hscan.symm.trans hscan'))
  have hhands : c.handsOn s.daemon = gone.map Flow.retire := by
    unfold ExpiryCall.handsOn
    rw [hscan]
  have hflows : d.tracker.ft.flows = ft.flows := congrArg Prod.fst htable
  have hexpiries : d.tracker.ft.expiries = ft.expiries := congrArg (fun t => t.2.1) htable
  refine ⟨hinv.of_table htable, hexpiries.trans hexp, ?_⟩
  rw [hhands, hflows, List.append_assoc]
  refine List.Perm.trans ?_ h.seqs
  rw [List.map_append, List.map_append, List.map_append]
  refine List.Perm.append_left _ ?_
  -- an expired flow keeps its sequence number
  have hretire : (gone.map Flow.retire).map Flow.flowSeq = gone.map Flow.flowSeq := by
    rw [List.map_map]
    rfl
  rw [hretire, ← List.map_append]
  exact (hperm.map Flow.flowSeq).symm

/-- The steps of `main` lose no flow. -/
theorem main (h : s.Accounted n) (hstep : MainStep maxFlows target s s') : s'.Accounted n := by
  cases hstep with
  | checkExpired now _ hcall =>
    obtain ⟨hinv, -, hseqs⟩ := h.expire hcall
    exact ⟨hinv, hseqs⟩
  | force _ hgo =>
    obtain ⟨num, rfl⟩ := ExpiryLoop.proceed_eq_inr hgo
    refine ⟨(h.table.forceExpire num).1, ?_⟩
    have hflows := FlowTrack.flows_forceExpire s.ft true num
    exact (List.Perm.of_eq (by rw [← hflows]; rfl)).trans h.seqs
  | check | enterStopped | enterWait | semWait | exit | settle | leaveStopped | semPost =>
    exact ⟨h.table, h.seqs⟩

/-- Neither do the steps of the receiving thread. -/
theorem thread (h : s.Accounted n) (hn : n < 2 ^ 64) (hstep : ThreadStep s s') :
    s'.Accounted (created n s.ft s'.ft) := by
  have hsame {t : Emulation} (hd : t.daemon = s.daemon) (hh : t.handed = s.handed) :
      t.Accounted (created n s.ft t.ft) := by
    have hft : t.ft = s.ft := congrArg (fun d => d.tracker.ft) hd
    rw [TableInv.created_eq_self (by rw [hft])]
    exact ⟨hft ▸ h.table, by rw [hh, hft]; exact h.seqs⟩
  cases hstep with
  | @accept ret t c _ hcall =>
    rcases acceptEmulator_cases hcall with rfl | ⟨buf, len, r, hprocess⟩
    · exact hsame rfl rfl
    · have hmessage := processEmulatorPacket_step hprocess
      have hr := hmessage.ne_mallocFail rfl
      exact ⟨hmessage.tableInv h.table hn hr, (hmessage.seqsMoved h.table hn hr).accounted h.seqs⟩
  | stop | goOn | semWait | semPost | setStops => exact hsame rfl rfl

end Emulation.Accounted

/-! ## Results -/

section Results

variable {maxFlows : UInt32} {target : Option NetflowSendFunc} {n : ℕ} {s : Emulation}

theorem Emulated.locked (h : Emulated maxFlows target n s) : s.Locked := by
  induction h with
  | init h => exact .start h
  | main _ hstep ih => exact ih.main hstep
  | thread _ hstep ih => exact ih.thread hstep

theorem Emulated.accounted (h : Emulated maxFlows target n s) (hn : n < 2 ^ 64) :
    s.Accounted n := by
  induction h with
  | init h => exact .start h
  | main _ hstep ih => exact (ih hn).main hstep
  | thread _ hstep ih =>
    have hlt := Nat.lt_of_le_of_lt (le_created _ _ _) hn
    exact (ih hlt).thread hlt hstep

/-- A turn of the receiving thread. -/
theorem Emulated.receive (h : Emulated maxFlows target n s) (hthread : s.thread = .loop)
    (hset : s.stopsEmulatorThread = false) (hsem : s.flowExpirySem = 1) (c : Reception) {ret : ℤ}
    {t : Tracker} (hcall : acceptEmulator s.daemon.tracker c = .ok (ret, t)) :
    Emulated maxFlows target (created n s.ft t.ft)
      { s with
        daemon := { s.daemon with tracker := t }
        flowExpirySem := 1
        thread := if ret = 1 then .ended else .loop } := by
  have hsame (n : ℕ) (ft : FlowTrack) : created n ft ft = n := TableInv.created_eq_self rfl
  have hwait := h.thread (.goOn hthread hset)
  have hentered := hwait.thread (.semWait rfl hsem)
  have haccepted := hentered.thread (.accept c rfl hcall)
  have hposted := haccepted.thread (.semPost rfl)
  simpa only [Emulation.ft, hsame] using hposted

/-- The packet of `sampleCall`, received from the emulator. -/
def sampleReception : Reception where
  buf := some sampleCall.pkt
  received := sampleCall.received

/-- After the packet, a flow is in the table. -/
theorem exists_received : ∃ t, acceptEmulator {} sampleReception = .ok (0, t) ∧
    created 0 ({} : Tracker).ft t.ft = 1 ∧ TablesFit t.monitors t.ft.flows := by
  have hcheck : (match acceptEmulator {} sampleReception with
      | .ok (ret, t) => decide (ret = 0 ∧ created 0 ({} : Tracker).ft t.ft = 1 ∧
          t.monitors.nbrMonitors.toNat ≤ 50 ∧
          ∀ f ∈ t.ft.flows, ∀ d, (f.numberOfMonitors d).toNat ≤ 50)
      | .error _ => false) = true := by
    decide +kernel
  cases hcall : acceptEmulator {} sampleReception with
  | error f =>
    rw [hcall] at hcheck
    cases hcheck
  | ok r =>
    obtain ⟨ret, t⟩ := r
    rw [hcall] at hcheck
    obtain ⟨rfl, hcount, hmonitors, hnumber⟩ := of_decide_eq_true hcheck
    exact ⟨t, rfl, hcount, hmonitors, hnumber⟩

/-- A run in which one packet has been received. -/
theorem exists_packet (target : Option NetflowSendFunc) : ∃ t : Tracker,
    Emulated 1 target 1 { daemon := { tracker := t } } ∧ TablesFit t.monitors t.ft.flows := by
  obtain ⟨t, hcall, hcount, htables⟩ := exists_received
  have hinit : Emulated 1 target 0 {} := .init ⟨⟨rfl, rfl, rfl, rfl⟩, rfl, rfl, rfl, rfl, rfl⟩
  have hpacket := hinit.receive rfl rfl rfl sampleReception hcall
  exact ⟨t, hcount ▸ hpacket, htables⟩

/-- **Mutual exclusion.** However the threads take turns, `main` is not in its expiry section while
the receiving thread is in `accept_emulator`. Once the receiving thread has left, the semaphore is
free when `main` comes to wait for it. -/
theorem emulation_exclusive (h : Emulated maxFlows target n s) :
    (s.main.inSection = true → s.thread.holds = 0) ∧
      (s.thread = .done → s.main = .wait → s.flowExpirySem = 1) :=
  ⟨h.locked.thread_holds, h.locked.sem_eq⟩

/-- The receiving thread comes to `sem_wait` while `main` is in its expiry section. -/
theorem emulation_exclusive_one : ∃ s, Emulated 1 none 1 s ∧ s.main = .expiry true ∧
    s.thread = .wait ∧ s.thread.holds = 0 := by
  obtain ⟨t, hpacket, -⟩ := exists_packet none
  have hwait := (hpacket.main (.check rfl)).main (.enterWait rfl rfl)
  have hsection := (hwait.main (.semWait rfl rfl)).thread (.goOn rfl rfl)
  have hsame (n : ℕ) (ft : FlowTrack) : created n ft ft = n := TableInv.created_eq_self rfl
  simp only [Emulation.ft, hsame] at hsection
  exact ⟨_, hsection, rfl, rfl, (emulation_exclusive hsection).1 rfl⟩

/-- The condition in front of the section is not covered: `main` may read the table there while the
receiving thread is in `accept_emulator`. -/
theorem exists_unlockedRead : ∃ s, Emulated 1 none 1 s ∧ s.main = .loop ∧ s.thread = .accept := by
  obtain ⟨t, hpacket, -⟩ := exists_packet none
  have haccept := (hpacket.thread (.goOn rfl rfl)).thread (.semWait rfl rfl)
  have hsame (n : ℕ) (ft : FlowTrack) : created n ft ft = n := TableInv.created_eq_self rfl
  simp only [Emulation.ft, hsame] at haccept
  exact ⟨_, haccept, rfl, rfl⟩

/-- When `main` has left, the receiving thread has left before, and no flow is counted. -/
theorem Emulated.done (h : Emulated maxFlows target n s) (hdone : s.main = .done) :
    s.stopsEmulatorThread = true ∧ s.ft.numFlows = 0 := by
  induction h with
  | init h => exact absurd (h.main_eq.symm.trans hdone) nofun
  | main hprev hstep ih =>
    cases hstep with
    | exit _ hgo hexit => exact Emulation.Locked.exit_spec hgo hexit
    | check | enterStopped | enterWait | semWait | checkExpired | force | settle | leaveStopped
    | semPost => cases hdone
  | @thread n s s' hprev hstep ih =>
    -- the receiving thread has no steps left
    have hmain : s.main = .done := by cases hstep <;> exact hdone
    have hthread := hprev.locked.stops_iff.mp (ih hmain).1
    cases hstep with
    | stop h | goOn h | semWait h | accept _ h | semPost h | setStops h =>
      rw [hthread] at h
      cases h

/-- The table is empty then. -/
theorem Emulated.flows_eq_nil (h : Emulated maxFlows target n s) (hn : n < 2 ^ 32)
    (hdone : s.main = .done) : s.ft.flows = [] := by
  obtain ⟨hinv, hseqs⟩ := h.accounted (by omega)
  have hlen : s.handed.length + s.ft.flows.length = n := by
    simpa [firstSeqs] using hseqs.length_eq
  have hzero := congrArg UInt32.toNat (hinv.numFlows_eq.symm.trans (h.done hdone).2)
  rw [UInt32.toNat_ofNat', Nat.mod_eq_of_lt (by omega)] at hzero
  exact List.length_eq_zero_iff.mp hzero

/-! ### The end of the emulation -/

/-- By its own steps, `main` comes from `s` to `t`. -/
def MainRuns (maxFlows : UInt32) (target : Option NetflowSendFunc) : Emulation → Emulation → Prop :=
  Relation.ReflTransGen (MainStep maxFlows target)

/-- What the steps of `main` reach is a state of the two threads. -/
theorem Emulated.mainRuns {t : Emulation} (h : Emulated maxFlows target n s)
    (hruns : MainRuns maxFlows target s t) : Emulated maxFlows target n t := by
  induction hruns with
  | refl => exact h
  | tail _ hstep ih => exact ih.main hstep

/-- The events that have not been forced. -/
def FlowTrack.unforced (ft : FlowTrack) : ℕ := ft.expiries.countP fun e => e.expiresAt != 0

/-- Of the events, `check_expired` leaves at most those that have not been forced. -/
theorem FlowTrack.length_filter_le_unforced (ft : FlowTrack) (now : Timeval) (ex : ExpireMode) :
    (ft.expiries.filter fun e => !e.isDue now ex).length ≤ ft.unforced := by
  rw [← List.countP_eq_length_filter, unforced]
  refine List.countP_mono_left fun e _ hdue => ?_
  rw [bne_iff_ne]
  rintro hzero
  rw [Expiry.isDue_of_forced hzero] at hdue
  cases hdue

/-- `force_expire` leaves what it does not force. -/
theorem TableInv.unforced_forceExpire {ft : FlowTrack} (h : TableInv n ft) (num : UInt32) :
    (ft.forceExpire true num).unforced ≤ ft.flows.length - num.toNat := by
  have hforced : ((ft.expiries.take num.toNat).map Expiry.force).countP
      (fun e => e.expiresAt != 0) = 0 := by
    rw [List.countP_eq_zero]
    intro e he
    obtain ⟨x, -, rfl⟩ := List.mem_map.mp he
    simp [Expiry.force]
  rw [FlowTrack.unforced, (h.forceExpire_perm num).countP_eq, List.countP_append, hforced,
    Nat.zero_add, ← h.length_expiries, ← List.length_drop]
  exact List.countP_le_length

/-- The passes that follow one that leaves `k` flows: the first forces the flows that are too many,
the other one all flows. -/
def passesLeft (maxFlows : UInt32) (k : ℕ) : ℕ :=
  if k = 0 then 0 else if k ≤ maxFlows.toNat then 1 else 2

theorem passesLeft_mono {j k : ℕ} (h : j ≤ k) : passesLeft maxFlows j ≤ passesLeft maxFlows k := by
  unfold passesLeft
  split_ifs <;> omega

/-- The number of steps that `main` has left at most, when `StopsEmulatorThread` is set. -/
def Emulation.rank (maxFlows : UInt32) (s : Emulation) : ℕ :=
  match s.main with
  | .done => 0
  | .decide _ => 1 + 2 * passesLeft maxFlows s.ft.flows.length
  | .expiry _ => 2 + 2 * passesLeft maxFlows s.ft.unforced
  | .enter | .wait => 7
  | .loop => 8
  | .leave _ => 9

theorem Emulation.rank_le (maxFlows : UInt32) (s : Emulation) : s.rank maxFlows ≤ 9 := by
  have hpasses (k : ℕ) : passesLeft maxFlows k ≤ 2 := by
    unfold passesLeft
    split_ifs <;> omega
  unfold rank
  split
  · omega
  · have hle := hpasses s.ft.flows.length
    omega
  · have hle := hpasses s.ft.unforced
    omega
  all_goals omega

/-- The receiving thread has left, and the target can be given the flows that are left. -/
structure Emulation.Ending (target : Option NetflowSendFunc) (n : ℕ) (s : Emulation) : Prop where
  accounted : s.Accounted n
  locked : s.Locked
  stops : s.stopsEmulatorThread = true
  sends : Sends true target s.daemon

namespace Emulation.Ending

variable {s' : Emulation}

/-- The call of `check_expired` returns, at every clock. -/
theorem checked (h : s.Ending target n) (maxFlows : UInt32) (now : Timeval) :
    ∃ r d, checkExpired ((emulationEnv maxFlows target now false).call 0) s.daemon = .ok (r, d) ∧
      Sends true target d :=
  Sends.checked (c := (emulationEnv maxFlows target now false).call 0) h.sends
    h.accounted.table.rekeyed

/-- `main` stays there. -/
theorem step (h : s.Ending target n) (hstep : MainStep maxFlows target s s') :
    s'.Ending target n where
  accounted := h.accounted.main hstep
  locked := h.locked.main hstep
  stops := by
    cases hstep with
    | check | enterStopped | enterWait | semWait | checkExpired | force | exit | settle
    | leaveStopped | semPost => exact h.stops
  sends := by
    cases hstep with
    | checkExpired now _ hcall =>
      obtain ⟨r, d, hcall', hsends⟩ := h.checked maxFlows now
      obtain ⟨-, rfl⟩ := Prod.mk.inj (Except.ok.inj (hcall.symm.trans hcall'))
      exact hsends
    | force _ hgo =>
      obtain ⟨num, rfl⟩ := ExpiryLoop.proceed_eq_inr hgo
      have hpass : Sends true target s.pass.daemon := h.sends
      exact hpass.force num
    | check | enterStopped | enterWait | semWait | exit | settle | leaveStopped | semPost =>
      exact h.sends

theorem toNat_numFlows (h : s.Ending target n) (hn : n < 2 ^ 32) :
    s.ft.numFlows.toNat = s.ft.flows.length := by
  have hlen : s.handed.length + s.ft.flows.length = n := by
    simpa [firstSeqs] using h.accounted.seqs.length_eq
  rw [h.accounted.table.numFlows_eq, UInt32.toNat_ofNat', Nat.mod_eq_of_lt (by omega)]

/-- Behind `check_expired`, `main` leaves, or forces so many flows that fewer passes are left. -/
theorem proceed_cases (h : s.Ending target n) (hn : n < 2 ^ 32) (maxFlows : UInt32) :
    let env := emulationEnv maxFlows target {} s.stopsEmulatorThread
    s.pass.proceed env = .inl { s.pass with exitRequest := true } ∨
      ∃ num, s.pass.proceed env = .inr (s.pass.force env num) ∧
        passesLeft maxFlows (s.ft.flows.length - num.toNat) <
          passesLeft maxFlows s.ft.flows.length := by
  have hcount := h.toNat_numFlows hn
  intro env
  have hstopped : env.stopped = true := h.stops
  unfold ExpiryLoop.proceed
  by_cases hlt : maxFlows < s.ft.numFlows
  · refine .inr ⟨s.ft.numFlows - maxFlows, if_pos hlt, ?_⟩
    have hlt' := UInt32.lt_iff_toNat_lt.mp hlt
    rw [UInt32.toNat_sub_of_le _ _ (UInt32.le_of_lt hlt), hcount]
    unfold passesLeft
    split_ifs <;> omega
  · have hle := UInt32.le_iff_toNat_le.mp (UInt32.not_lt.mp hlt)
    by_cases hpos : 0 < s.ft.numFlows
    · refine .inr ⟨s.ft.numFlows, ?_, ?_⟩
      · exact (if_neg hlt).trans ((if_pos hstopped).trans (if_pos hpos))
      · have hpos' := UInt32.lt_iff_toNat_lt.mp hpos
        rw [UInt32.toNat_zero] at hpos'
        unfold passesLeft
        split_ifs <;> omega
    · exact .inl ((if_neg hlt).trans ((if_pos hstopped).trans (if_neg hpos)))

/-- Every step of `main` brings its end nearer. -/
theorem rank_lt (h : s.Ending target n) (hn : n < 2 ^ 32)
    (hstep : MainStep maxFlows target s s') : s'.rank maxFlows < s.rank maxFlows := by
  have hsection (k : ℕ) : 2 + 2 * passesLeft maxFlows k < 7 := by
    unfold passesLeft
    split_ifs <;> omega
  have hstops := h.stops
  cases hstep with
  | check hmain | leaveStopped hmain => simp [rank, hmain]
  | enterStopped hmain | semWait hmain =>
    simp only [rank, hmain]
    exact hsection _
  | enterWait _ hset | semPost _ hset =>
    rw [hstops] at hset
    cases hset
  | @checkExpired held r d now hmain hcall =>
    -- the events that are left have not been forced
    obtain ⟨hinv, hexpiries, -⟩ := h.accounted.expire hcall
    have hle : d.tracker.ft.flows.length ≤ s.ft.unforced := by
      rw [← hinv.length_expiries, hexpiries]
      exact s.ft.length_filter_le_unforced now .normal
    have hpasses : passesLeft maxFlows _ ≤ passesLeft maxFlows _ := passesLeft_mono hle
    simp only [rank, hmain]
    change 1 + 2 * passesLeft maxFlows d.tracker.ft.flows.length < _
    omega
  | @force held st hmain hgo =>
    obtain hleave | ⟨num, hforce, hpasses⟩ := h.proceed_cases hn maxFlows
    · rw [hgo] at hleave
      cases hleave
    · obtain rfl := Sum.inr.inj (hgo.symm.trans hforce)
      have hle : passesLeft maxFlows _ ≤ passesLeft maxFlows _ :=
        passesLeft_mono (h.accounted.table.unforced_forceExpire num)
      simp only [rank, hmain]
      change 2 + 2 * passesLeft maxFlows (s.ft.forceExpire true num).unforced < _
      omega
  | exit hmain => simp [rank, hmain]
  | @settle held st _ hgo hexit =>
    obtain hleave | ⟨num, hforce, -⟩ := h.proceed_cases hn maxFlows
    · obtain rfl := Sum.inl.inj (hgo.symm.trans hleave)
      cases hexit
    · rw [hgo] at hforce
      cases hforce

/-- `main` has left, or can go on. -/
theorem exists_step (h : s.Ending target n) (hn : n < 2 ^ 32) (maxFlows : UInt32) :
    s.main = .done ∨ ∃ s', MainStep maxFlows target s s' := by
  cases hmain : s.main with
  | loop => exact .inr ⟨_, .check hmain⟩
  | enter => exact .inr ⟨_, .enterStopped hmain h.stops⟩
  | wait =>
    -- the receiving thread has given the unit back
    have hsem := h.locked.sem_eq (h.locked.stops_iff.mp h.stops) hmain
    exact .inr ⟨_, .semWait hmain hsem⟩
  | expiry held =>
    obtain ⟨r, d, hcall, -⟩ := h.checked maxFlows {}
    exact .inr ⟨_, .checkExpired {} hmain hcall⟩
  | decide held =>
    obtain hleave | ⟨num, hforce, -⟩ := h.proceed_cases hn maxFlows
    · exact .inr ⟨_, .exit hmain hleave rfl⟩
    · exact .inr ⟨_, .force hmain hforce⟩
  | leave held => exact .inr ⟨_, .leaveStopped hmain h.stops⟩
  | done => exact .inl rfl

/-- Some run of `main` comes to its end. -/
theorem exists_done (h : s.Ending target n) (hn : n < 2 ^ 32) (maxFlows : UInt32) :
    ∃ t, MainRuns maxFlows target s t ∧ t.main = .done :=
  FairRuns.exists_goal (Emulation.rank maxFlows)
    (fun _ _ hs hstep => ⟨Ending.step hs hstep, Ending.rank_lt hs hn hstep⟩)
    (fun _ hs => Ending.exists_step hs hn maxFlows) h

end Emulation.Ending

/-- When `StopsEmulatorThread` is set, `main` goes on alone. -/
theorem Emulated.ending (h : Emulated maxFlows target n s) (hn : n < 2 ^ 64)
    (hset : s.stopsEmulatorThread = true) (hexports : Exports true target s.daemon) :
    s.Ending target n :=
  ⟨h.accounted hn, h.locked, hset, hexports.sends⟩

/-- One packet, and the end of the emulation. -/
theorem exists_ended (target : Option NetflowSendFunc) : ∃ s, Emulated 1 target 1 s ∧
    s.main = .loop ∧ s.stopsEmulatorThread = true ∧
    TablesFit s.daemon.tracker.monitors s.ft.flows := by
  obtain ⟨t, hpacket, htables⟩ := exists_packet target
  have hcall : acceptEmulator t { buf := some (ascii "end") } = .ok (1, t) := by
    simp [acceptEmulator]
  have hend := hpacket.receive rfl rfl rfl { buf := some (ascii "end") } hcall
  have hset := hend.thread (.setStops rfl)
  have hsame (n : ℕ) (ft : FlowTrack) : created n ft ft = n := TableInv.created_eq_self rfl
  simp only [Emulation.ft, hsame] at hset
  exact ⟨_, hset, rfl, rfl, htables⟩

/-- **Nothing is lost.** However the threads take turns, when `main` leaves after the end of the
emulation, the table is empty, and each of the `n` flows that have been created has been handed to
the exporter exactly once. -/
theorem emulation_complete (h : Emulated maxFlows target n s) (hn : n < 2 ^ 32)
    (hdone : s.main = .done) :
    s.thread = .done ∧ s.ft.flows = [] ∧ (s.handed.map Flow.flowSeq).Perm (firstSeqs n) := by
  have hempty := h.flows_eq_nil hn hdone
  have hseqs := (h.accounted (by omega)).seqs
  rw [hempty, List.append_nil] at hseqs
  exact ⟨h.locked.stops_iff.mp (h.done hdone).1, hempty, hseqs⟩

/-- The flow of one packet is handed on. -/
theorem emulation_complete_one : ∃ s, Emulated 1 none 1 s ∧ s.main = .done ∧ s.ft.flows = [] ∧
    s.handed.length = 1 := by
  obtain ⟨s, h, -, hset, -⟩ := exists_ended none
  obtain ⟨t, hruns, hdone⟩ :=
    (h.ending (by norm_num) hset (.noTarget rfl)).exists_done (by norm_num) 1
  obtain ⟨-, hempty, hseqs⟩ := emulation_complete (h.mainRuns hruns) (by norm_num) hdone
  exact ⟨t, h.mainRuns hruns, hdone, hempty, by simpa [firstSeqs] using hseqs.length_eq⟩

/-- **The end.** Once `StopsEmulatorThread` is set, wherever `main` is, whatever clock its calls of
`check_expired` find, and for each of the exporters, every run of its steps has at most nine of
them, and comes to a state without a further step only where `main` has left with an empty table. -/
theorem emulation_drains (h : Emulated maxFlows target n s) (hn : n < 2 ^ 32)
    (hset : s.stopsEmulatorThread = true) (hexports : Exports true target s.daemon) :
    (∀ ts, (s :: ts).IsChain (MainStep maxFlows target) → ts.length ≤ 9) ∧
      ∀ t, MainRuns maxFlows target s t →
        t.main = .done ∧ t.ft.flows = [] ∨ ∃ t', MainStep maxFlows target t t' := by
  have hend := h.ending (by omega) hset hexports
  constructor
  · intro ts hchain
    refine (FairRuns.length_le_rank (Emulation.rank maxFlows) (fun _ _ hs hstep => ?_) hend
      hchain).trans (s.rank_le maxFlows)
    exact ⟨Emulation.Ending.step hs hstep, Emulation.Ending.rank_lt hs hn hstep⟩
  · intro t hruns
    have htending : t.Ending target n := by
      induction hruns with
      | refl => exact hend
      | tail _ hstep ih => exact ih.step hstep
    obtain hdone | hstep := htending.exists_step hn maxFlows
    · exact .inl ⟨hdone, (h.mainRuns hruns).flows_eq_nil hn hdone⟩
    · exact .inr hstep

/-- The target of a version 5 collector. -/
def netflow5Target : Option NetflowSendFunc := some (sendNetflowV5 true {})

/-- After one packet and the end, `main` is not done, but its runs end, with the flow exported. -/
theorem emulation_drains_one : ∃ s, Emulated 1 netflow5Target 1 s ∧ s.main = .loop ∧
    (∀ ts, (s :: ts).IsChain (MainStep 1 netflow5Target) → ts.length ≤ 9) ∧
      ∃ t, MainRuns 1 netflow5Target s t ∧ t.main = .done ∧ t.ft.flows = [] := by
  obtain ⟨s, h, hmain, hset, htables⟩ := exists_ended netflow5Target
  have hexports : Exports true netflow5Target s.daemon := .v5 rfl fun _ => htables
  obtain ⟨hbound, hlast⟩ := emulation_drains h (by norm_num) hset hexports
  obtain ⟨t, hruns, hdone⟩ := (h.ending (by norm_num) hset hexports).exists_done (by norm_num) 1
  refine ⟨s, h, hmain, hbound, t, hruns, hdone, ?_⟩
  obtain ⟨-, hempty⟩ | ⟨t', hstep⟩ := hlast t hruns
  · exact hempty
  · -- behind the loop `main` has no step
    cases hstep with
    | check h | enterStopped h | enterWait h | semWait h | checkExpired _ h | force h | exit h
    | settle h | leaveStopped h | semPost h => cases hdone.symm.trans h

end Results

end Softflowd
