import NetworkMonitoring.Nsp.InterfaceThread
import NetworkMonitoring.Softflowd.EmulatorThread

/-!
# A whole emulation

NSP and softflowd at work: the two threads of NSP that hand packets on and send them, the network
between the programs, and the two threads of softflowd. All of them take turns in any order.

* `Session` is their state, and `Session.Step` are their steps. The datagrams come from NSP alone;
  the network may lose some of them, but they do not overtake each other.
* `Session.Run` are the runs.

## Main results

* `session_received`: what softflowd receives is what NSP has sent, and it stops listening behind
  the last packet only;
* `session_complete`: when softflowd has left and nothing has been lost, it has received the message
  about every packet, and every flow has been handed to the exporter once.
-/

namespace Pipeline

open CText Softflowd ErrorLoops
open Nsp (SoftflowdInterface IsMessage endMessage)

/-- NSP, softflowd and the datagrams on their way. `received` are those that softflowd has received,
and `lost` is the number of those that have been lost. -/
structure Session where
  nsp : SoftflowdInterface := {}
  network : List Text := []
  softflowd : Emulation := {}
  received : List Text := []
  lost : ℕ := 0

namespace Session

/-- The steps of NSP, of the network and of the receiving thread of softflowd. -/
inductive Step : Session → Session → Prop
  | caller {s : Session} {nsp : SoftflowdInterface} : s.nsp.CallerStep nsp →
      Step s { s with nsp := nsp }
  | thread {s : Session} {nsp : SoftflowdInterface} {ds : List Text} : s.nsp.ThreadStep nsp →
      nsp.datagrams = s.nsp.datagrams ++ ds →
      Step s { s with nsp := nsp, network := s.network ++ ds }
  | lose {s : Session} {before after : List Text} {d : Text} : s.network = before ++ d :: after →
      Step s { s with network := before ++ after, lost := s.lost + 1 }
  | receive {s : Session} {c : Reception} {d : Text} {rest : List Text} {ret : ℤ} {t : Tracker} :
      s.softflowd.thread = .accept → s.network = d :: rest → c.buf = some d →
      acceptEmulator s.softflowd.daemon.tracker c = .ok (ret, t) →
      Step s { s with
        network := rest
        received := s.received ++ [d]
        softflowd := { s.softflowd with
          daemon := { s.softflowd.daemon with tracker := t }
          thread := .post ret } }
  /-- `recvfrom` fails. -/
  | receiveFails {s : Session} {c : Reception} {ret : ℤ} {t : Tracker} :
      s.softflowd.thread = .accept → c.buf = none →
      acceptEmulator s.softflowd.daemon.tracker c = .ok (ret, t) →
      Step s { s with
        softflowd := { s.softflowd with
          daemon := { s.softflowd.daemon with tracker := t }
          thread := .post ret } }
  /-- A step of the receiving thread outside of `accept_emulator`. -/
  | listener {s : Session} {e : Emulation} : ThreadStep s.softflowd e →
      s.softflowd.thread ≠ .accept → Step s { s with softflowd := e }

/-- The flow table of softflowd. -/
def ft (s : Session) : FlowTrack := s.softflowd.ft

/-- The runs. `n` flows have been created. -/
inductive Run (maxFlows : UInt32) (target : Option NetflowSendFunc) : ℕ → Session → Prop
  | init {e : Emulation} : e.Initial → Run maxFlows target 0 { softflowd := e }
  | main {n : ℕ} {s : Session} {e : Emulation} : Run maxFlows target n s →
      MainStep maxFlows target s.softflowd e → Run maxFlows target n { s with softflowd := e }
  | step {n : ℕ} {s t : Session} : Run maxFlows target n s → Step s t →
      Run maxFlows target (created n s.ft t.ft) t

variable {maxFlows : UInt32} {target : Option NetflowSendFunc} {n : ℕ} {s t : Session}

/-! ## The programs in a run -/

/-- A step is a step of NSP, or changes nothing in it. -/
theorem Step.nsp (h : Step s t) : t.nsp = s.nsp ∨ s.nsp.Step t.nsp := by
  cases h with
  | caller hstep => exact .inr (.inl hstep)
  | thread hstep => exact .inr (.inr hstep)
  | lose | receive | receiveFails | listener => exact .inl rfl

theorem Run.nsp (h : Run maxFlows target n s) : s.nsp.Reachable := by
  induction h with
  | init => exact .refl
  | main _ _ ih => exact ih
  | step _ hstep ih =>
    rcases hstep.nsp with heq | hgo
    · exact heq ▸ ih
    · exact ih.tail hgo

theorem created_self (n : ℕ) (ft : FlowTrack) : created n ft ft = n :=
  TableInv.created_eq_self rfl

theorem Run.softflowd (h : Run maxFlows target n s) : Emulated maxFlows target n s.softflowd := by
  induction h with
  | init hinit => exact .init hinit
  | main _ hmain ih => exact ih.main hmain
  | @step n s t _ hstep ih =>
    cases hstep with
    | caller | thread | lose => exact (created_self n s.ft).symm ▸ ih
    | receive hat _ _ hcall | receiveFails hat _ hcall => exact ih.thread (.accept _ hat hcall)
    | listener hthread => exact ih.thread hthread

/-! ## The datagrams -/

/-- The message at the end, and no other one, makes the receiving thread end. -/
theorem buf_eq_of_acceptEmulator {s t : Tracker} {c : Reception}
    (h : acceptEmulator s c = .ok (1, t)) : c.buf = some endMessage := by
  unfold acceptEmulator at h
  split at h
  · cases (Prod.mk.inj (Except.ok.inj h)).1
  · rename_i buf hbuf
    split at h
    · rename_i hend
      rw [hbuf, hend]
      rfl
    · obtain ⟨len, -, h⟩ := bind_eq_ok.mp h
      split at h
      · cases h
      · cases (Prod.mk.inj (Except.ok.inj h)).1
      · split at h
        · obtain ⟨r, -, h⟩ := bind_eq_ok.mp h
          cases (Prod.mk.inj (Except.ok.inj h)).1
        · cases (Prod.mk.inj (Except.ok.inj h)).1

/-- The steps of `main` leave the receiving thread where it is. -/
theorem thread_of_mainStep {e e' : Emulation} (h : MainStep maxFlows target e e') :
    e'.thread = e.thread := by
  cases h <;> rfl

/-- Whether the receiving thread has received the message at the end. -/
def hasEnded : ThreadAt → Bool
  | .post ret => ret = 1
  | .ended | .done => true
  | _ => false

/-- A step outside of `accept_emulator` does not end the thread, when it has not been told to. -/
theorem hasEnded_of_threadStep {e e' : Emulation} (h : ThreadStep e e') (hlocked : e.Locked)
    (hat : e.thread ≠ .accept) (hended : hasEnded e'.thread = true) : hasEnded e.thread = true := by
  cases h with
  | stop hthread hset => rw [hlocked.stops_iff.mp hset]; rfl
  | goOn | semWait => cases hended
  | accept _ hthread => exact absurd hthread hat
  | semPost hthread =>
    rw [hthread]
    split at hended
    · rename_i hret
      simp [hasEnded, hret]
    · cases hended
  | setStops hthread => rw [hthread]; rfl

/-- What holds of the datagrams. -/
structure Datagrams (s : Session) : Prop where
  sublist : (s.received ++ s.network).Sublist s.nsp.datagrams
  lossless : s.lost = 0 → s.received ++ s.network = s.nsp.datagrams
  ended : hasEnded s.softflowd.thread = true → ∃ ds, s.received = ds ++ [endMessage]

theorem Datagrams.step (h : s.Datagrams) (hlocked : s.softflowd.Locked) (hstep : Step s t) :
    t.Datagrams := by
  cases hstep with
  | caller hcaller =>
    have hds := hcaller.datagrams_eq
    exact ⟨hds.symm ▸ h.sublist, fun hlost => (h.lossless hlost).trans hds.symm, h.ended⟩
  | @thread nsp ds hthread hds =>
    refine ⟨?_, fun hlost => ?_, h.ended⟩
    · rw [hds, ← List.append_assoc]
      exact h.sublist.append_right ds
    · rw [hds, ← h.lossless hlost, List.append_assoc]
  | @lose before after d hnetwork =>
    refine ⟨?_, fun hlost => absurd hlost (Nat.succ_ne_zero _), h.ended⟩
    refine List.Sublist.trans ?_ h.sublist
    rw [hnetwork]
    exact ((List.sublist_cons_self d after).append_left before).append_left s.received
  | @receive c d rest ret _ hat hnetwork hbuf hcall =>
    have hmove : (s.received ++ [d]) ++ rest = s.received ++ s.network := by
      rw [hnetwork, List.append_assoc]
      rfl
    refine ⟨hmove ▸ h.sublist, fun hlost => hmove ▸ h.lossless hlost, fun hended => ?_⟩
    obtain rfl : ret = 1 := of_decide_eq_true hended
    obtain rfl := Option.some.inj (hbuf.symm.trans (buf_eq_of_acceptEmulator hcall))
    exact ⟨s.received, rfl⟩
  | @receiveFails c ret _ hat hbuf hcall =>
    refine ⟨h.sublist, h.lossless, fun hended => ?_⟩
    obtain rfl : ret = 1 := of_decide_eq_true hended
    cases hbuf.symm.trans (buf_eq_of_acceptEmulator hcall)
  | listener hthread hat =>
    exact ⟨h.sublist, h.lossless,
      fun hended => h.ended (hasEnded_of_threadStep hthread hlocked hat hended)⟩

theorem Run.datagrams (h : Run maxFlows target n s) : s.Datagrams := by
  induction h with
  | @init e hinit =>
    refine ⟨.slnil, fun _ => rfl, fun hended => ?_⟩
    rw [show e.thread = .loop from hinit.thread_eq] at hended
    cases hended
  | main _ hmain ih =>
    refine ⟨ih.sublist, ih.lossless, fun hended => ih.ended ?_⟩
    rwa [← thread_of_mainStep hmain]
  | step hrun hstep ih => exact ih.step hrun.softflowd.locked hstep

/-! ## Results -/

/-- When softflowd has received the message at the end, NSP has sent everything. -/
theorem Run.stopped (h : Run maxFlows target n s)
    (hset : s.softflowd.stopsEmulatorThread = true) :
    s.nsp.caller.stopped = true ∧ ∃ ms ds, List.Forall₂ IsMessage s.nsp.prepared ms ∧
      s.received = ds ++ [endMessage] ∧ ds.Sublist ms ∧ (s.lost = 0 → ds = ms) := by
  have hds := h.datagrams
  obtain ⟨ds, hreceived⟩ := hds.ended (by rw [h.softflowd.locked.stops_iff.mp hset]; rfl)
  have hsub : s.received.Sublist s.nsp.datagrams :=
    (List.sublist_append_left s.received s.network).trans hds.sublist
  have hmem : endMessage ∈ s.nsp.datagrams := hsub.subset (by simp [hreceived])
  obtain ⟨hstopped, ms, hms, hend⟩ := h.nsp.inv.of_endMessage_mem hmem
  refine ⟨hstopped, ms, ds, hms, hreceived, ?_, fun hlost => ?_⟩
  · rw [hreceived, hend] at hsub
    exact (List.append_sublist_append_right _).mp hsub
  · have hall := hds.lossless hlost
    rw [hreceived, hend, List.append_assoc] at hall
    -- the message at the end is found once
    have hnot : endMessage ∉ ms := fun hmem => by
      obtain ⟨p, -, hp⟩ := Nsp.forall₂_mem_right hms hmem
      exact hp.ne_endMessage rfl
    exact ((List.append_cons_inj_of_notMem hnot List.not_mem_nil).mp hall.symm).1.symm

/-- **What softflowd receives.** However the threads and the network take turns: softflowd has
received some of the datagrams that NSP has sent, in their order, and when none has been lost, all
but those on their way. It stops listening only when NSP has sent the messages about all of its
packets. -/
theorem session_received (h : Run maxFlows target n s) :
    s.received.Sublist s.nsp.datagrams ∧
      (s.lost = 0 → s.received ++ s.network = s.nsp.datagrams) ∧
      (s.softflowd.stopsEmulatorThread = true → s.nsp.caller.stopped = true ∧
        ∃ ms ds, List.Forall₂ IsMessage s.nsp.prepared ms ∧ s.received = ds ++ [endMessage] ∧
          ds.Sublist ms ∧ (s.lost = 0 → ds = ms)) :=
  ⟨(List.sublist_append_left s.received s.network).trans h.datagrams.sublist,
    h.datagrams.lossless, h.stopped⟩

/-- **A whole emulation.** When `main` of softflowd has left and no datagram has been lost,
softflowd has received the message about every packet that NSP has accepted, in their order, and the
one at the end behind them. The flow table is empty, and each of the `n` flows that have been
created has been handed to the exporter exactly once. -/
theorem session_complete (h : Run maxFlows target n s) (hn : n < 2 ^ 32)
    (hdone : s.softflowd.main = .done) (hlost : s.lost = 0) :
    (∃ ms, List.Forall₂ IsMessage s.nsp.prepared ms ∧ s.received = ms ++ [endMessage]) ∧
      s.ft.flows = [] ∧ (s.softflowd.handed.map Flow.flowSeq).Perm (firstSeqs n) := by
  have hemulated := h.softflowd
  obtain ⟨-, ms, ds, hms, hreceived, -, hds⟩ := h.stopped (hemulated.done hdone).1
  have hempty := hemulated.flows_eq_nil hn hdone
  have hseqs := (hemulated.accounted (by omega)).seqs
  rw [hempty, List.append_nil] at hseqs
  exact ⟨⟨ms, hms, hds hlost ▸ hreceived⟩, hempty, hseqs⟩

/-! ### Two packets -/

theorem Run.cast {m : ℕ} (h : Run maxFlows target m s) (hm : m = n) : Run maxFlows target n s :=
  hm ▸ h

/-- A turn of the receiving thread. -/
theorem Run.receive (h : Run maxFlows target n s) {d : Text} {rest : List Text} {c : Reception}
    {ret : ℤ} {t : Tracker} (hthread : s.softflowd.thread = .loop)
    (hset : s.softflowd.stopsEmulatorThread = false) (hsem : s.softflowd.flowExpirySem = 1)
    (hnetwork : s.network = d :: rest) (hbuf : c.buf = some d)
    (hcall : acceptEmulator s.softflowd.daemon.tracker c = .ok (ret, t)) :
    Run maxFlows target (created n s.ft t.ft) { s with
      network := rest
      received := s.received ++ [d]
      softflowd := { s.softflowd with
        daemon := { s.softflowd.daemon with tracker := t }
        flowExpirySem := 1
        thread := if ret = 1 then .ended else .loop } } := by
  have hwait := h.step (.listener (.goOn hthread hset) (by simp [hthread]))
  have hentered := hwait.step (.listener (.semWait rfl hsem) (by simp))
  have hreceived := hentered.step (.receive rfl hnetwork hbuf hcall)
  have hposted := hreceived.step (.listener (.semPost rfl) (by simp))
  simpa only [Session.ft, Emulation.ft, created_self] using hposted

/-- NSP can go on alone, with its datagrams in the network. -/
theorem run_of_nsp {nsp : SoftflowdInterface} (h : nsp.Reachable) :
    Run 1 none 0 { nsp := nsp, network := nsp.datagrams } := by
  induction h with
  | refl => exact .init ⟨⟨rfl, rfl, rfl, rfl⟩, rfl, rfl, rfl, rfl, rfl⟩
  | tail _ hstep ih =>
    rcases hstep with hcaller | hthread
    · rw [hcaller.datagrams_eq]
      exact (ih.step (.caller hcaller)).cast (created_self 0 {})
    · obtain ⟨ds, hds⟩ := hthread.exists_datagrams
      rw [hds]
      exact (ih.step (.thread hthread hds)).cast (created_self 0 {})

/-- `main` can go on alone. -/
theorem Run.mainRuns (h : Run maxFlows target n s) {e : Emulation}
    (hruns : MainRuns maxFlows target s.softflowd e) :
    Run maxFlows target n { s with softflowd := e } := by
  induction hruns with
  | refl => exact h
  | tail _ hstep ih => exact ih.main hstep

/-- After the packets of `twoPacketRun`, two flows are in the table. -/
theorem exists_routed : ∃ t₁ t₂,
    acceptEmulator {} { buf := some Nsp.SoftflowdInterface.routedMessage } = .ok (0, t₁) ∧
      acceptEmulator t₁ { buf := some Nsp.SoftflowdInterface.otherMessage } = .ok (0, t₂) ∧
      created 0 ({} : Tracker).ft t₁.ft = 1 ∧ created 1 t₁.ft t₂.ft = 2 := by
  have hcheck : (match acceptEmulator {} { buf := some Nsp.SoftflowdInterface.routedMessage } with
      | .ok (ret, t₁) =>
        match acceptEmulator t₁ { buf := some Nsp.SoftflowdInterface.otherMessage } with
        | .ok (ret', t₂) => decide (ret = 0 ∧ ret' = 0 ∧ created 0 ({} : Tracker).ft t₁.ft = 1 ∧
            created 1 t₁.ft t₂.ft = 2)
        | .error _ => false
      | .error _ => false) = true := by
    decide +kernel
  split at hcheck
  · rename_i ret t₁ hcall
    split at hcheck
    · rename_i ret' t₂ hcall'
      obtain ⟨rfl, rfl, hcount, hcount'⟩ := of_decide_eq_true hcheck
      exact ⟨t₁, t₂, hcall, hcall', hcount, hcount'⟩
    · cases hcheck
  · cases hcheck

/-- A run in which NSP has ended after two packets, and softflowd has been told so. -/
theorem exists_told : ∃ s, Run 1 none 2 s ∧ s.softflowd.stopsEmulatorThread = true ∧ s.lost = 0 ∧
    s.nsp.prepared =
      [Nsp.SoftflowdInterface.routedPacket, Nsp.SoftflowdInterface.otherPacket] := by
  obtain ⟨t₁, t₂, hcall₁, hcall₂, hcount₁, hcount₂⟩ := exists_routed
  set nsp := Nsp.SoftflowdInterface.twoPacketRun 21 with hnsp
  have hsent : Run 1 none 0 { nsp := nsp, network := nsp.datagrams } :=
    run_of_nsp (Nsp.SoftflowdInterface.fairRun_twoPacketRun.reachable 21)
  have hfirst : Run 1 none 1
      { nsp := nsp
        network := [Nsp.SoftflowdInterface.otherMessage, endMessage]
        received := [Nsp.SoftflowdInterface.routedMessage]
        softflowd := { daemon := { tracker := t₁ } } } :=
    (hsent.receive rfl rfl rfl rfl rfl hcall₁).cast hcount₁
  have hother : Run 1 none 2
      { nsp := nsp
        network := [endMessage]
        received := [Nsp.SoftflowdInterface.routedMessage, Nsp.SoftflowdInterface.otherMessage]
        softflowd := { daemon := { tracker := t₂ } } } :=
    (hfirst.receive rfl rfl rfl rfl rfl hcall₂).cast hcount₂
  have hcall₃ : acceptEmulator t₂ { buf := some endMessage } = .ok (1, t₂) := by
    simp [acceptEmulator, endMessage]
  have hend : Run 1 none 2
      { nsp := nsp
        received := [Nsp.SoftflowdInterface.routedMessage, Nsp.SoftflowdInterface.otherMessage,
          endMessage]
        softflowd := { daemon := { tracker := t₂ }, thread := .ended } } :=
    (hother.receive rfl rfl rfl rfl rfl hcall₃).cast (created_self 2 t₂.ft)
  -- the thread tells `main` when it has read the end
  have hset := hend.step (.listener (.setStops rfl) (by simp))
  exact ⟨_, hset.cast (created_self 2 t₂.ft), rfl, rfl, rfl⟩

/-- Then softflowd can leave. There may be one flow, so it leaves in several passes. -/
theorem exists_left : ∃ s, Run 1 none 2 s ∧ s.softflowd.main = .done ∧ s.lost = 0 ∧
    s.nsp.prepared =
      [Nsp.SoftflowdInterface.routedPacket, Nsp.SoftflowdInterface.otherPacket] := by
  obtain ⟨s, h, hset, hlost, hprepared⟩ := exists_told
  obtain ⟨e, hruns, hdone⟩ :=
    (h.softflowd.ending (by norm_num) hset (.noTarget rfl)).exists_done (by norm_num) 1
  exact ⟨_, h.mainRuns hruns, hdone, hlost, hprepared⟩

/-- Both packets are received in their order, and their flows handed on. -/
theorem session_complete_two : ∃ s ms, Run 1 none 2 s ∧
    List.Forall₂ IsMessage
      [Nsp.SoftflowdInterface.routedPacket, Nsp.SoftflowdInterface.otherPacket] ms ∧
    s.received = ms ++ [endMessage] ∧ s.softflowd.handed.length = 2 := by
  obtain ⟨s, h, hdone, hlost, hprepared⟩ := exists_left
  obtain ⟨⟨ms, hms, hreceived⟩, -, hseqs⟩ := session_complete h (by norm_num) hdone hlost
  exact ⟨s, ms, h, hprepared ▸ hms, hreceived, by simpa [firstSeqs] using hseqs.length_eq⟩

/-- NSP has stopped when softflowd is told so, and softflowd has received both messages. -/
theorem session_received_two : ∃ s, Run 1 none 2 s ∧
    s.softflowd.stopsEmulatorThread = true ∧ s.nsp.caller.stopped = true ∧
    ∃ ms ds, List.Forall₂ IsMessage
      [Nsp.SoftflowdInterface.routedPacket, Nsp.SoftflowdInterface.otherPacket] ms ∧
      s.received = ds ++ [endMessage] ∧ ds = ms := by
  obtain ⟨s, h, hset, hlost, hprepared⟩ := exists_told
  obtain ⟨hstopped, ms, ds, hms, hreceived, -, hall⟩ := (session_received h).2.2 hset
  exact ⟨s, h, hset, hstopped, ms, ds, hprepared ▸ hms, hreceived, hall hlost⟩

end Session

end Pipeline
