import NetworkMonitoring.Softflowd.Conservation
import NetworkMonitoring.Softflowd.MonitorTables

/-!
# softflowd — packets that several monitors report

The emulator marks the report of a packet that it has forwarded before, so that the packet is added
to the totals of its flow once. `process_emulator_packet` looks at the mark when it updates a flow.
It does not when the flow is new, nor when the flow waits for its expiry; and it reads the mark from
an array that has no room for the NUL.

## Main results

* `EmulatorRun.balanced`: while each message meets `EmulatorCall.Regular`, the flows have counted
  the first reports, and the next message keeps it so if and only if it is regular;
* `not_balanced_lateReport`: a second report of a packet whose flow has been flushed.
-/

namespace Softflowd

open Bytes CText Counters ErrorLoops Function InetText OrderedSet

/-! ## The mark -/

/-- The mark of a message is `0`: its packet has not been reported before. -/
def EmulatorCall.firstReport (c : EmulatorCall) : Bool :=
  match getEmulatorPacketPart c.pkt maxEmulatorMessageParts with
  | .ok last => atoi last = 0
  | .error _ => false

/-- What `atoi` makes of the mark, with the memory behind `alreadyReceived`. -/
def EmulatorCall.readsFirst (c : EmulatorCall) : Bool :=
  match getEmulatorPacketPart c.pkt maxEmulatorMessageParts with
  | .ok last => atoi (last ++ c.uninit.alreadyReceived.drop last.length) = 0
  | .error _ => false

/-- The flow that a message is about. -/
def EmulatorCall.flow (c : EmulatorCall) (ft : FlowTrack) : Option Flow :=
  match c.record with
  | .ok (tmp, _, _) => ft.flowFind (ft.maskRecord tmp)
  | .error _ => none

/-- A flow waits for its expiry. -/
def FlowTrack.due (ft : FlowTrack) (f : Flow) : Bool :=
  (ft.expiryOf f).any fun e => e.expiresAt = 0

/-- The mark decides whether the packet is counted: a flow is not started by a repeated report, a
flow that waits for its expiry gets no first report, and otherwise the mark is read as it is. -/
def EmulatorCall.Regular (c : EmulatorCall) (ft : FlowTrack) : Prop :=
  match c.flow ft with
  | none => c.firstReport = true
  | some f => if ft.due f then c.firstReport = false else c.readsFirst = c.firstReport

instance (c : EmulatorCall) (ft : FlowTrack) : Decidable (c.Regular ft) := by
  unfold EmulatorCall.Regular
  split <;> infer_instance

/-- The number of packets that a message adds to the totals of its flow. -/
def EmulatorCall.adds (c : EmulatorCall) (ft : FlowTrack) : ℕ :=
  match c.flow ft with
  | none => 1
  | some f => if ft.due f then 0 else c.readsFirst.toNat

theorem EmulatorCall.adds_eq_iff (c : EmulatorCall) (ft : FlowTrack) :
    c.adds ft = c.firstReport.toNat ↔ c.Regular ft := by
  unfold EmulatorCall.adds EmulatorCall.Regular
  cases c.flow ft with
  | none => cases c.firstReport <;> simp
  | some f =>
    dsimp only
    split
    · cases c.firstReport <;> simp
    · cases c.firstReport <;> cases c.readsFirst <;> simp

/-! ## What a message adds -/

/-- No counter wraps. -/
structure EmulatorCall.CountsExactly (c : EmulatorCall) (ft : FlowTrack) : Prop where
  totalPackets : ft.totalPackets.toNat + 1 < 2 ^ 64
  flow : ∀ tmp frag ndx f, c.record = .ok (tmp, frag, ndx) →
    ft.flowFind (ft.maskRecord tmp) = some f → (ft.maskRecord tmp).AddsExactly f

@[simp]
theorem FlowTrack.flowFind_counted (ft : FlowTrack) (frag : ℤ) (tmp : Flow) :
    (ft.counted frag).flowFind tmp = ft.flowFind tmp := by
  rw [FlowTrack.flowFind, FlowTrack.flowFind, FlowTrack.flows_counted]

@[simp]
theorem FlowTrack.expiryOf_counted (ft : FlowTrack) (frag : ℤ) (f : Flow) :
    (ft.counted frag).expiryOf f = ft.expiryOf f := by
  unfold FlowTrack.counted FlowTrack.countFragment
  split <;> rfl

@[simp]
theorem FlowTrack.maskRecord_counted (ft : FlowTrack) (frag : ℤ) (tmp : Flow) :
    (ft.counted frag).maskRecord tmp = ft.maskRecord tmp := by
  unfold FlowTrack.counted FlowTrack.countFragment
  split <;> rfl

theorem bill_countMonitor {ndx : Dir} {a : InAddr} {tmp f f' : Flow}
    (h : countMonitor ndx a tmp f = .ok f') : f'.bill = f.bill := by
  obtain ⟨_, _, _, rfl⟩ := exists_of_countMonitor h
  rfl

/-- The traffic of a flow after an update. -/
theorem EmulatorCall.traffic_settle {c : EmulatorCall} {last : Text} {tmp flow flow' : Flow}
    {ndx : Dir} (hlast : getEmulatorPacketPart c.pkt maxEmulatorMessageParts = .ok last)
    (hbill : flow'.bill = flow.bill) (htmp : tmp.traffic.1 = 1) (hexact : tmp.AddsExactly flow) :
    (c.settle last tmp ndx flow').traffic.1 = flow.traffic.1 + c.readsFirst.toNat := by
  have hflow' : flow'.traffic = flow.traffic := Flow.traffic_congr hbill
  have hreads : c.readsFirst =
      decide (atoi (last ++ c.uninit.alreadyReceived.drop last.length) = 0) := by
    unfold EmulatorCall.readsFirst
    rw [hlast]
  unfold EmulatorCall.settle
  -- a first report adds the packet of the record, a later one adds nothing
  split
  · rename_i hzero
    rw [hreads, decide_eq_true hzero]
    obtain ⟨-, hrest⟩ := Prod.mk.inj hbill
    obtain ⟨hpackets, hoctets⟩ := Prod.mk.inj hrest
    have hexact' : tmp.AddsExactly flow' := by
      intro d
      rw [hpackets, hoctets]
      exact hexact d
    show (FlowTrack.addRecord tmp flow').traffic.1 = _
    rw [hexact'.traffic, Prod.fst_add, hflow', htmp]
    rfl
  · rename_i hzero
    rw [hreads, decide_eq_false hzero, hflow']
    rfl

/-- A successful message adds to the live flows what `adds` says. -/
theorem EmulatorStep.adds {s s' : Tracker} {c : EmulatorCall} {n : ℕ}
    (hstep : EmulatorStep s c .ok s') (h : TableInv n s.ft) (hn : n < 2 ^ 64)
    (hexact : c.CountsExactly s.ft) :
    (traffic s'.ft.flows).1 = (traffic s.ft.flows).1 + c.adds s.ft := by
  have hone : ∀ tmp frag ndx, c.record = .ok (tmp, frag, ndx) →
      (s.ft.maskRecord tmp).traffic.1 = 1 := by
    intro tmp frag ndx hrec
    have hrecord := (EmulatorCall.isRecord hrec).mask s.ft
    exact congrArg Prod.fst
      (Flow.IsPacket.traffic ⟨ndx, hrecord.packets_eq, hrecord.octets_eq⟩)
  have hflow : ∀ tmp frag ndx, c.record = .ok (tmp, frag, ndx) →
      c.flow s.ft = s.ft.flowFind (s.ft.maskRecord tmp) := by
    intro tmp frag ndx hrec
    rw [EmulatorCall.flow, hrec]
  -- a successful message creates its flow, is ignored, or updates the flow
  cases hstep with
  | @created tmp frag ndx ft p em a ms hrec hfind hcreate =>
    obtain ⟨-, -, hperm, -⟩ := (h.counted frag).createFlow_inv hn hfind hcreate
    rw [FlowTrack.flowFind_counted, FlowTrack.maskRecord_counted] at hfind
    have hbill : (ft.modifyFlow p (firstMonitor ndx a)).flows.map Flow.bill =
        ft.flows.map Flow.bill := ft.bill_modifyFlow p fun _ => rfl
    rw [traffic_congr (List.Perm.of_eq hbill), traffic_perm hperm, traffic_cons, Prod.fst_add,
      FlowTrack.flows_counted, FlowTrack.maskRecord_counted, EmulatorCall.adds,
      hflow tmp frag ndx hrec, hfind, Nat.add_comm]
    exact congrArg _ (hone tmp frag ndx hrec)
  | @ignored tmp frag ndx flow e hrec hfind hexp hdue =>
    rw [FlowTrack.flowFind_counted, FlowTrack.maskRecord_counted] at hfind
    rw [FlowTrack.expiryOf_counted] at hexp
    have hwaits : s.ft.due flow = true := by
      rw [FlowTrack.due, hexp]
      simpa using hdue
    rw [FlowTrack.flows_counted, EmulatorCall.adds, hflow tmp frag ndx hrec, hfind]
    dsimp only
    rw [if_pos hwaits]
    rfl
  | @updated tmp frag ndx flow e em a ms flow' last ft hrec hfind hexp hdue _ _ _ hcount hlast _ hupd =>
    have hmem := (find_eq_some hfind).1
    rw [FlowTrack.flowFind_counted, FlowTrack.maskRecord_counted] at hfind
    rw [FlowTrack.expiryOf_counted] at hexp
    have hwaits : ¬ s.ft.due flow = true := by
      rw [FlowTrack.due, hexp]
      simpa using hdue
    have htraffic := (h.counted frag).traffic_modifyFlow hmem fun _ =>
      c.settle last ((s.ft.counted frag).maskRecord tmp) ndx flow'
    have hsettle := @EmulatorCall.traffic_settle c last _ flow flow' ndx hlast
      (bill_countMonitor hcount) (hone tmp frag ndx hrec)
      (hexact.flow tmp frag ndx flow hrec hfind)
    have hpackets := congrArg Prod.fst htraffic
    rw [Prod.fst_add, Prod.fst_add, FlowTrack.flows_counted, FlowTrack.maskRecord_counted,
      hsettle] at hpackets
    rw [FlowTrack.flows_flowUpdateExpiry hupd, FlowTrack.maskRecord_counted, EmulatorCall.adds,
      hflow tmp frag ndx hrec, hfind]
    dsimp only
    rw [if_neg hwaits]
    omega

/-! ## Runs -/

/-- What has happened in a run. -/
structure ReportLog where
  /-- The messages with the mark `0`. -/
  firstReports : ℕ := 0
  /-- The flows that have expired. -/
  expired : List Flow := []

/-- The runs of successful messages and expiry scans in which no allocation fails and no counter
wraps; every message satisfies `P`. -/
inductive EmulatorRun (P : EmulatorCall → FlowTrack → Prop) : ReportLog → Daemon → Prop where
  | init {s : Daemon} : s.Initial → EmulatorRun P {} s
  | message {l : ReportLog} {s : Daemon} {t : Tracker} (c : EmulatorCall) : EmulatorRun P l s →
      processEmulatorPacket s.tracker c = .ok (.ok, t) → c.CountsExactly s.tracker.ft →
      P c s.tracker.ft →
      EmulatorRun P { l with firstReports := l.firstReports + c.firstReport.toNat }
        { s with tracker := t }
  | checkExpired {l : ReportLog} {s s' : Daemon} {r : ℤ} {ft : FlowTrack} {expired : List Flow}
      (c : ExpiryCall) : EmulatorRun P l s → c.reallocOk = (fun _ => true) →
      checkExpired c s = .ok (r, s') →
      scanExpired c.now c.ex c.reallocOk s.tracker.ft = .ok (ft, expired) →
      EmulatorRun P { l with expired := l.expired ++ expired } s'

/-- The packets of the live flows and of the expired ones are the first reports. -/
def ReportLog.Balanced (l : ReportLog) (s : Daemon) : Prop :=
  (traffic s.tracker.ft.flows).1 + (traffic l.expired).1 = l.firstReports

/-- Flows are created by packets. -/
theorem EmulatorRun.tableInv {P : EmulatorCall → FlowTrack → Prop} {l : ReportLog} {s : Daemon}
    (h : EmulatorRun P l s) :
    ∃ n ≤ s.tracker.ft.totalPackets.toNat, TableInv n s.tracker.ft := by
  induction h with
  | init hinit =>
    exact ⟨0, Nat.zero_le _,
      .empty hinit.flows_eq hinit.expiries_eq hinit.nextFlowSeq_eq hinit.numFlows_eq⟩
  | @message l s t c _ hcall hexact _ ih =>
    obtain ⟨n, hn, hinv⟩ := ih
    have hlt := hexact.totalPackets
    have hstep := processEmulatorPacket_step hcall
    refine ⟨created n s.tracker.ft t.ft, ?_, hstep.tableInv hinv (by omega) (by decide)⟩
    have htotal : t.ft.totalPackets = s.tracker.ft.totalPackets + 1 :=
      congrArg Prod.fst hstep.counters_of_ok
    show _ ≤ t.ft.totalPackets.toNat
    rw [htotal, toNat_add_of_lt hexact.totalPackets, UInt64.toNat_one]
    unfold created
    split <;> omega
  | @checkExpired l s s' r ft expired c _ halloc hcall _ ih =>
    obtain ⟨n, hn, hinv⟩ := ih
    obtain ⟨ft, gone, -, hinv', -, -, -, hcounters, -⟩ := hinv.checkExpired_cases halloc hcall
    have htotal : s'.tracker.ft.totalPackets = s.tracker.ft.totalPackets :=
      congrArg Prod.fst hcounters
    exact ⟨n, htotal ▸ hn, hinv'⟩

/-- A message keeps the balance exactly when it is regular. -/
theorem EmulatorRun.message_balanced_iff {P : EmulatorCall → FlowTrack → Prop} {l : ReportLog}
    {s : Daemon} {t : Tracker} {c : EmulatorCall} (h : EmulatorRun P l s) (hl : l.Balanced s)
    (hcall : processEmulatorPacket s.tracker c = .ok (.ok, t))
    (hexact : c.CountsExactly s.tracker.ft) :
    ReportLog.Balanced { l with firstReports := l.firstReports + c.firstReport.toNat }
      { s with tracker := t } ↔ c.Regular s.tracker.ft := by
  obtain ⟨n, hn, hinv⟩ := h.tableInv
  have hlt := hexact.totalPackets
  have hadds := (processEmulatorPacket_step hcall).adds hinv (by omega) hexact
  rw [← c.adds_eq_iff]
  unfold ReportLog.Balanced at hl ⊢
  dsimp only
  omega

/-- Expiry moves packets from the live flows to the expired ones. -/
theorem EmulatorRun.checkExpired_balanced {P : EmulatorCall → FlowTrack → Prop} {l : ReportLog}
    {s s' : Daemon} {r : ℤ} {ft : FlowTrack} {expired : List Flow} {c : ExpiryCall}
    (h : EmulatorRun P l s) (hl : l.Balanced s) (halloc : c.reallocOk = fun _ => true)
    (hcall : Softflowd.checkExpired c s = .ok (r, s'))
    (hscan : scanExpired c.now c.ex c.reallocOk s.tracker.ft = .ok (ft, expired)) :
    ReportLog.Balanced { l with expired := l.expired ++ expired } s' := by
  obtain ⟨n, -, hinv⟩ := h.tableInv
  obtain ⟨ft₁, gone, hscan₁, -, -, hperm, -⟩ := hinv.checkExpired_cases halloc hcall
  obtain ⟨rfl, rfl⟩ := Prod.mk.inj (Except.ok.inj (hscan.symm.trans hscan₁))
  have hretire : traffic (gone.map Flow.retire) = traffic gone :=
    traffic_congr (List.Perm.of_eq (bill_map_retire gone))
  have hlive := congrArg Prod.fst (traffic_perm hperm)
  rw [traffic_append, Prod.fst_add] at hlive
  unfold ReportLog.Balanced at hl ⊢
  dsimp only
  rw [traffic_append, Prod.fst_add, hretire]
  omega

/-- **When a packet seen by several monitors is counted once.** In every state of a run of regular
messages the packets of live and expired flows are the first reports, and the next message keeps
this exactly when it is regular. -/
theorem EmulatorRun.balanced {l : ReportLog} {s : Daemon}
    (h : EmulatorRun EmulatorCall.Regular l s) :
    l.Balanced s ∧ ∀ c t, processEmulatorPacket s.tracker c = .ok (.ok, t) →
      c.CountsExactly s.tracker.ft →
      (ReportLog.Balanced { l with firstReports := l.firstReports + c.firstReport.toNat }
        { s with tracker := t } ↔ c.Regular s.tracker.ft) := by
  have hbalanced : l.Balanced s := by
    induction h with
    | init hinit =>
      unfold ReportLog.Balanced
      rw [hinit.flows_eq]
      rfl
    | message c h hcall hexact hregular ih =>
      exact (h.message_balanced_iff ih hcall hexact).mpr hregular
    | checkExpired c h halloc hcall hscan ih => exact h.checkExpired_balanced ih halloc hcall hscan
  exact ⟨hbalanced, fun c t hcall hexact => h.message_balanced_iff hbalanced hcall hexact⟩

/-- One packet of length `len` cannot wrap a counter, whatever its flow is. -/
def FlowTrack.Small (ft : FlowTrack) (len : UInt32) : Prop :=
  ft.totalPackets.toNat + 1 < 2 ^ 64 ∧
    ∀ f ∈ ft.flows, ∀ d, (f.packets d).toNat + 1 < 2 ^ 32 ∧
      (f.octets d).toNat + len.toNat < 2 ^ 32

instance (ft : FlowTrack) (len : UInt32) : Decidable (ft.Small len) :=
  inferInstanceAs (Decidable (_ ∧ _))

theorem EmulatorCall.CountsExactly.of_small {c : EmulatorCall} {ft : FlowTrack}
    (h : ft.Small c.len) : c.CountsExactly ft := by
  refine ⟨h.1, fun tmp frag ndx f hrec hfind d => ?_⟩
  obtain ⟨hpackets, hoctets⟩ := h.2 f (find_eq_some hfind).1 d
  have hrecord := (EmulatorCall.isRecord hrec).mask ft
  have hone : ((ft.maskRecord tmp).packets d).toNat ≤ 1 := by
    rw [hrecord.packets_eq]
    by_cases hd : d = ndx
    · rw [hd, update_self]
      decide
    · rw [update_of_ne hd]
      decide
  have hlen : ((ft.maskRecord tmp).octets d).toNat ≤ c.len.toNat := by
    rw [hrecord.octets_eq]
    by_cases hd : d = ndx
    · rw [hd, update_self]
    · rw [update_of_ne hd]
      exact Nat.zero_le _
  omega

/-- The report of another monitor about a packet that has been reported before. -/
def lateCall : EmulatorCall where
  pkt := CText.ascii "10.0.0.2#1.2.3.4#5.6.7.8#100#1#2#80#443#1#2#TCP#0##A#1"
  len := 100
  received := ⟨1000, 0⟩

/-- Two packets of one flow, a flush, and then the second report of the second packet: it starts a
flow of its own. -/
theorem not_balanced_lateReport :
    ∃ l s, EmulatorRun (fun _ _ => True) l s ∧ l.firstReports = 2 ∧ ¬ l.Balanced s := by
  have hcheck : (okStep {} sampleCall).any (fun t₁ => t₁.ft.Small 100 ∧
      (okStep t₁ sampleCall).any (fun t₂ => decide ((traffic t₂.ft.flows).1 = 2) &&
        match checkExpired { ex := .all } { tracker := t₂ } with
        | .ok (_, s) => s.tracker.ft.Small 100 ∧ (traffic s.tracker.ft.flows).1 = 0 ∧
            (okStep s.tracker lateCall).any fun t₃ => (traffic t₃.ft.flows).1 = 1
        | .error _ => false)) = true := by
    decide +kernel
  obtain ⟨t₁, ht₁, hcheck⟩ := (Option.any_eq_true _ _).mp hcheck
  obtain ⟨hsmall₁, hcheck⟩ := of_decide_eq_true hcheck
  obtain ⟨t₂, ht₂, hcheck⟩ := (Option.any_eq_true _ _).mp hcheck
  obtain ⟨hlive₂, hcheck⟩ := (Bool.and_eq_true _ _).mp hcheck
  split at hcheck
  · rename_i r s hcall
    obtain ⟨hsmall, hlive, hcheck⟩ := of_decide_eq_true hcheck
    obtain ⟨t₃, ht₃, hcheck⟩ := (Option.any_eq_true _ _).mp hcheck
    have hlive₃ := of_decide_eq_true hcheck
    have hinit : EmulatorRun (fun _ _ => True) {} {} := .init ⟨rfl, rfl, rfl, rfl⟩
    have hfirst := hinit.message sampleCall (okStep_eq_some.mp ht₁) (.of_small (by decide)) trivial
    have hsecond := hfirst.message sampleCall (okStep_eq_some.mp ht₂) (.of_small hsmall₁) trivial
    obtain ⟨n, -, hinv⟩ := hsecond.tableInv
    obtain ⟨ft, gone, hscan, -, -, hperm, -⟩ := hinv.checkExpired_cases rfl hcall
    have hflush := hsecond.checkExpired { ex := .all } rfl hcall hscan
    have hlate := hflush.message lateCall (okStep_eq_some.mp ht₃) (.of_small hsmall) trivial
    have hmarks : sampleCall.firstReport = true ∧ lateCall.firstReport = false := by
      decide +kernel
    refine ⟨_, _, hlate, ?_, ?_⟩
    · rw [hmarks.1, hmarks.2]
      rfl
    · -- two packets have expired, and the flow of the last message counts one
      have hexpired := congrArg Prod.fst (traffic_perm hperm)
      rw [traffic_append, Prod.fst_add, of_decide_eq_true hlive₂, hlive, Nat.add_zero] at hexpired
      have hretire : traffic (gone.map Flow.retire) = traffic gone :=
        traffic_congr (List.Perm.of_eq (bill_map_retire gone))
      unfold ReportLog.Balanced
      dsimp only
      rw [hmarks.1, hmarks.2, hlive₃, List.nil_append, hretire, ← hexpired]
      decide
  · cases hcheck

/-- Two packets of one flow, the first of them reported by two monitors, and a flush: the flow that
expires has counted the two first reports. -/
theorem balanced_twoMonitors :
    ∃ t₁ t₂ t₃ l s, processEmulatorPacket {} sampleCall = .ok (.ok, t₁) ∧
      processEmulatorPacket t₁ lateCall = .ok (.ok, t₂) ∧
      processEmulatorPacket t₂ sampleCall = .ok (.ok, t₃) ∧
      sampleCall.firstReport = true ∧ lateCall.firstReport = false ∧ t₃.ft.flows.length = 1 ∧
      EmulatorRun EmulatorCall.Regular l s ∧ l.firstReports = 2 ∧ s.tracker.ft.flows = [] ∧
      (traffic l.expired).1 = 2 ∧ l.Balanced s := by
  have hcheck : (okStep {} sampleCall).any (fun t₁ =>
      (t₁.ft.Small 100 ∧ lateCall.Regular t₁.ft) ∧ (okStep t₁ lateCall).any fun t₂ =>
        (t₂.ft.Small 100 ∧ sampleCall.Regular t₂.ft) ∧ (okStep t₂ sampleCall).any fun t₃ =>
          decide (t₃.ft.flows.length = 1) &&
            match checkExpired { ex := .all } { tracker := t₃ } with
            | .ok (_, s) => s.tracker.ft.flows.isEmpty
            | .error _ => false) = true := by
    decide +kernel
  obtain ⟨t₁, ht₁, hcheck⟩ := (Option.any_eq_true _ _).mp hcheck
  obtain ⟨⟨hsmall₁, hregular₁⟩, hcheck⟩ := of_decide_eq_true hcheck
  obtain ⟨t₂, ht₂, hcheck⟩ := (Option.any_eq_true _ _).mp hcheck
  obtain ⟨⟨hsmall₂, hregular₂⟩, hcheck⟩ := of_decide_eq_true hcheck
  obtain ⟨t₃, ht₃, hcheck⟩ := (Option.any_eq_true _ _).mp hcheck
  obtain ⟨hlive, hcheck⟩ := (Bool.and_eq_true _ _).mp hcheck
  -- the three messages as calls: a first report, one of a second monitor, and a first report
  have hcall₁ := okStep_eq_some.mp ht₁
  have hcall₂ := okStep_eq_some.mp ht₂
  have hcall₃ := okStep_eq_some.mp ht₃
  split at hcheck
  · rename_i r s hcall
    have hempty := List.isEmpty_iff.mp hcheck
    have hmarks : sampleCall.firstReport = true ∧ lateCall.firstReport = false := by
      decide +kernel
    have hinit : EmulatorRun EmulatorCall.Regular {} {} := .init ⟨rfl, rfl, rfl, rfl⟩
    have hfirst := hinit.message sampleCall hcall₁ (.of_small (by decide)) (by decide +kernel)
    have hlate := hfirst.message lateCall hcall₂ (.of_small hsmall₁) hregular₁
    have hsecond := hlate.message sampleCall hcall₃ (.of_small hsmall₂) hregular₂
    obtain ⟨n, -, hinv⟩ := hsecond.tableInv
    obtain ⟨ft, gone, hscan, -⟩ := hinv.checkExpired_cases rfl hcall
    have hflush := hsecond.checkExpired { ex := .all } rfl hcall hscan
    have hbalanced := hflush.balanced.1
    refine ⟨t₁, t₂, t₃, _, s, hcall₁, hcall₂, hcall₃, hmarks.1, hmarks.2, of_decide_eq_true hlive,
      hflush, ?_, hempty, ?_, hbalanced⟩
    · -- two of the three are first reports
      rw [hmarks.1, hmarks.2]
      rfl
    · -- nothing is left in the table, so the expired packets are all of them
      unfold ReportLog.Balanced at hbalanced
      rw [hempty, hmarks.1, hmarks.2] at hbalanced
      exact (Nat.zero_add _).symm.trans hbalanced
  · cases hcheck

end Softflowd
