import NetworkMonitoring.Softflowd.ExpiryScan
import NetworkMonitoring.Softflowd.NetFlow1
import NetworkMonitoring.Softflowd.NetFlow5
import NetworkMonitoring.Softflowd.NetFlow9
import NetworkMonitoring.Softflowd.Runs

/-!
# softflowd — exporter calls that fail

In emulator mode `check_expired` calls the send function twice for each monitor. What a call returns
is kept in the variable `r`, which the next call overwrites, and only the last value is looked at.

* `NetflowSender`: the send functions of the table `nf[]`; a call that does not fail returns the
  number of its datagrams.
* `exportTrace_spec`: the state after the loop over the monitors, from the calls that it has made.
* `failuresReported_iff`: the failures are reported exactly when there are none, or the last call is
  one of them.
-/

namespace Softflowd

open ErrorLoops

/-! ## The send functions -/

/-- A call that does not return -1 returns the number of datagrams that it has sent. -/
def CountsDatagrams (func : NetflowSendFunc) : Prop :=
  ∀ flows flowsExported boot inOut ex r flowsExported' ex',
    func flows flowsExported boot inOut ex = .ok (r, flowsExported', ex') → r ≠ -1 →
      ∃ n : ℕ, r = n ∧ ex'.net.sent.length = ex.net.sent.length + n

/-- `struct NETFLOW_SENDER`, as far as `check_expired` uses it. -/
structure NetflowSender where
  func : NetflowSendFunc
  counts : CountsDatagrams func

theorem Net.length_send {net net' : Net} {datagram : List UInt8}
    (h : net.send datagram = .ok net') : net'.sent.length = net.sent.length + 1 := by
  rw [Net.send] at h
  split_ifs at h
  obtain rfl := Except.ok.inj h
  exact List.length_append

/-- Between the states `s` and `s'` of a send function, as many packets have been counted as
datagrams have been sent. -/
def Counted {σ : Type} (numPackets : σ → ℕ) (net : σ → Net) (s s' : σ) : Prop :=
  ∃ n, numPackets s' = numPackets s + n ∧ (net s').sent.length = (net s).sent.length + n

section
variable {σ : Type} {numPackets : σ → ℕ} {net : σ → Net} {s s' s'' : σ}

theorem Counted.same (hpackets : numPackets s' = numPackets s) (hnet : net s' = net s) :
    Counted numPackets net s s' :=
  ⟨0, hpackets, by rw [hnet, Nat.add_zero]⟩

theorem Counted.trans (h : Counted numPackets net s s') (h' : Counted numPackets net s' s'') :
    Counted numPackets net s s'' := by
  obtain ⟨n, hpackets, hsent⟩ := h
  obtain ⟨n', hpackets', hsent'⟩ := h'
  exact ⟨n + n', by omega, by omega⟩

theorem Counted.ite {c : Prop} [Decidable c] {t t' : σ} (h : Counted numPackets net s t)
    (h' : Counted numPackets net s t') : Counted numPackets net s (if c then t else t') := by
  split_ifs
  · exact h
  · exact h'

/-- Something is sent under a condition. -/
theorem Counted.sendIf {ε : Type} {c : Prop} [Decidable c] {flush : Except ε σ}
    (hflush : ∀ st, flush = .ok st → Counted numPackets net s st)
    (h : (if c then flush else .ok s) = .ok s') : Counted numPackets net s s' := by
  split_ifs at h
  · exact hflush s' h
  · obtain rfl := Except.ok.inj h
    exact .same rfl rfl

/-- A loop over the flows, and what is sent for what it leaves over. -/
theorem Counted.sendLoop {ε : Type} {step : σ → Flow → Except ε σ} {flush : σ → Except ε σ}
    {left : σ → Prop} [DecidablePred left]
    (hstep : ∀ st f st', step st f = .ok st' → Counted numPackets net st st')
    (hflush : ∀ st st', flush st = .ok st' → Counted numPackets net st st') {flows : List Flow}
    (h : (do let st ← flows.foldlM step s
             if left st then flush st else return st) = .ok s') : Counted numPackets net s s' := by
  obtain ⟨s₁, hflows, hrest⟩ := bind_eq_ok.mp h
  have hcounted : Counted numPackets net s s₁ :=
    foldlM_ok_rel (R := Counted numPackets net) (fun _ => .same rfl rfl)
      (fun _ _ _ => Counted.trans) hstep hflows
  exact hcounted.trans (.sendIf (hflush s₁) hrest)

/-- A datagram is sent and counted. -/
theorem Counted.send {datagram : List UInt8} {net' : Net}
    (hsend : (net s).send datagram = .ok net') (hpackets : numPackets s' = numPackets s + 1)
    (hnet : net s' = net') : Counted numPackets net s s' :=
  ⟨1, hpackets, by rw [hnet, Net.length_send hsend]⟩

/-- An iteration of the loop over the flows sends a datagram that is full, starts one when there is
none, and fills it. -/
theorem Counted.sendStep {ε : Type} {full : Prop} [Decidable full] {fresh : σ → Prop}
    [DecidablePred fresh] {flush : σ → Except ε σ} (start : σ → σ) (fill : σ → Except ε σ)
    (hflush : ∀ st st', flush st = .ok st' → Counted numPackets net st st')
    (hstart : ∀ st, Counted numPackets net st (start st))
    (hfill : ∀ st st', fill st = .ok st' → Counted numPackets net st st')
    (h : ((if full then flush s else .ok s) >>= fun st =>
      fill (if fresh st then start st else st)) = .ok s') :
    Counted numPackets net s s' := by
  obtain ⟨s₁, hroom, hrest⟩ := bind_eq_ok.mp h
  have hsent : Counted numPackets net s s₁ := .sendIf (hflush s) hroom
  have hstarted : Counted numPackets net s₁ (if fresh s₁ then start s₁ else s₁) :=
    .ite (hstart s₁) (.same rfl rfl)
  exact (hsent.trans hstarted).trans (hfill _ _ hrest)

end

/-! ### Version 5 -/

/-- The loop of `send_netflow_v5` counts its datagrams. -/
theorem counted_sendLoopV5 {env : V5Env} {flows : List Flow} {st st' : V5Send}
    (h : sendLoopV5 env flows st = .ok st') :
    Counted V5Send.numPackets V5Send.net st st' := by
  have hflush (st st' : V5Send) (h : st.flush = .ok st') :
      Counted V5Send.numPackets V5Send.net st st' := by
    rw [V5Send.flush] at h
    dsimp only at h
    split at h
    · cases h
    · next hsend =>
      obtain rfl := Except.ok.inj h
      exact .send hsend rfl rfl
  refine Counted.sendLoop (fun st f st' hstep => ?_) hflush h
  rw [V5Send.step, V5Send.makeRoom] at hstep
  refine Counted.sendStep (V5Send.start env) (fun st =>
    if f.af ≠ afInet then .ok st
    else if env.usingEmulator ∧ maxEmulators ≤ f.selectedMonitorIndex.toNat then .error V5Stop.fault
    else .ok (.put env f (.put env f (.nameMonitor env f st) 0) 1))
    hflush (fun _ => .same rfl rfl) (fun st st' hfill => ?_) hstep
  -- the records and the name of the monitor go into the datagram
  have hname : Counted V5Send.numPackets V5Send.net st (.nameMonitor env f st) :=
    .ite (.same rfl rfl) (.same rfl rfl)
  have hput (st : V5Send) (d : Dir) : Counted V5Send.numPackets V5Send.net st (.put env f st d) :=
    .ite (.same rfl rfl) (.same rfl rfl)
  split_ifs at hfill
  · obtain rfl := Except.ok.inj hfill
    exact .same rfl rfl
  · obtain rfl := Except.ok.inj hfill
    exact (hname.trans (hput _ 0)).trans (hput _ 1)

/-- `{ 5, send_netflow_v5, 0 }`. -/
def nf5 (usingEmulator : Bool) (now : Timeval) : NetflowSender where
  func := sendNetflowV5 usingEmulator now
  counts := by
    intro flows flowsExported boot inOut ex r flowsExported' ex' h hr
    rw [sendNetflowV5] at h
    split at h
    · cases h
    · -- a datagram that cannot be sent ends the function with -1
      exact absurd (Prod.ext_iff.mp (Except.ok.inj h)).1.symm hr
    · next st hloop =>
      obtain ⟨n, hpackets, hsent⟩ := counted_sendLoopV5 hloop
      obtain ⟨rfl, -, rfl⟩ : (st.numPackets : ℤ) = r ∧ _ ∧ { ex with net := st.net } = ex' := by
        simpa using h
      exact ⟨n, by rw [hpackets, Nat.zero_add], hsent⟩

/-! ### Version 1 -/

/-- The loop of `send_netflow_v1` counts its datagrams. -/
theorem counted_sendLoopV1 {env : V1Env} {flows : List Flow} {st st' : V1Send}
    (h : sendLoopV1 env flows st = .ok st') :
    Counted V1Send.numPackets V1Send.net st st' := by
  have hflush (st st' : V1Send) (h : st.flush = .ok st') :
      Counted V1Send.numPackets V1Send.net st st' := by
    rw [V1Send.flush] at h
    dsimp only at h
    split at h
    · cases h
    · next hsend =>
      obtain rfl := Except.ok.inj h
      exact .send hsend rfl rfl
  refine Counted.sendLoop (fun st f st' hstep => ?_) hflush h
  rw [V1Send.step, V1Send.makeRoom] at hstep
  refine Counted.sendStep (V1Send.start env) (fun st =>
    if f.af ≠ afInet then .ok st
    else .ok (.put env f (.put env f (.nameMonitor env f st) 0) 1))
    hflush (fun _ => .same rfl rfl) (fun st st' hfill => ?_) hstep
  -- the records and the name of the monitor go into the datagram
  have hname : Counted V1Send.numPackets V1Send.net st (.nameMonitor env f st) :=
    .ite (.same rfl rfl) (.same rfl rfl)
  have hput (st : V1Send) (d : Dir) : Counted V1Send.numPackets V1Send.net st (.put env f st d) :=
    .ite (.same rfl rfl) (.same rfl rfl)
  split_ifs at hfill
  · obtain rfl := Except.ok.inj hfill
    exact .same rfl rfl
  · obtain rfl := Except.ok.inj hfill
    exact (hname.trans (hput _ 0)).trans (hput _ 1)

/-- `{ 1, send_netflow_v1, 0 }`. -/
def nf1 (usingEmulator : Bool) (now : Timeval) (asSrcArray asDstArray : Flow → UInt16) :
    NetflowSender where
  func := sendNetflowV1 usingEmulator now asSrcArray asDstArray
  counts := by
    intro flows flowsExported boot inOut ex r flowsExported' ex' h hr
    rw [sendNetflowV1] at h
    split at h
    · exact absurd (Prod.ext_iff.mp (Except.ok.inj h)).1.symm hr
    · next st hloop =>
      obtain ⟨n, hpackets, hsent⟩ := counted_sendLoopV1 hloop
      obtain ⟨rfl, -, rfl⟩ : (st.numPackets : ℤ) = r ∧ _ ∧ { ex with net := st.net } = ex' := by
        simpa using h
      exact ⟨n, by rw [hpackets, Nat.zero_add], hsent⟩

/-! ### Version 9 -/

theorem counted_sendLoopV9 {env : V9Env} {exported : UInt64} {fuel : ℕ} {flows : List Flow}
    {st st' : V9Send} (h : sendLoopV9 env exported fuel flows st = .ok (.ok st')) :
    Counted V9Send.numPackets (fun st => st.ex.net) st st' := by
  fun_induction sendLoopV9 env exported fuel flows st with
  | case1 =>
    obtain rfl := Except.ok.inj (Except.ok.inj h)
    exact .same rfl rfl
  | case2 => cases h
  | case3 => cases h
  | case4 _ _ _ _ _ _ _ _ _ _ hsend ih =>
    apply Counted.trans _ (ih h)
    exact ⟨1, rfl, Net.length_send hsend⟩

/-- `{ 9, send_netflow_v9, 1 }`. -/
def nf9 (fuel : ℕ) (now : Timeval) (time : ℕ → ℤ) : NetflowSender where
  func := sendNetflowV9 fuel now time
  counts := by
    intro flows flowsExported boot inOut ex r flowsExported' ex' h hr
    obtain ⟨res, hloop, hres⟩ := bind_eq_ok.mp h
    cases res with
    | error st => exact absurd (Prod.ext_iff.mp (Except.ok.inj hres)).1.symm hr
    | ok st =>
      obtain ⟨n, hpackets, hsent⟩ := counted_sendLoopV9 hloop
      obtain ⟨rfl, -, rfl⟩ : (st.numPackets : ℤ) = r ∧ _ ∧ st.ex = ex' := by
        simpa using Except.ok.inj hres
      exact ⟨n, by rw [hpackets, Nat.zero_add], hsent⟩

/-! ## The calls of `check_expired` -/

/-- What a call of the send function comes to: the value it returns, and how many datagrams it has
sent. -/
structure ExporterCall where
  r : ℤ
  datagrams : ℕ

/-- The calls for a direction of a monitor. -/
def exportCall (func : NetflowSendFunc) (ms : Monitors) (st : ExportState) (call : ℕ × Dir) :
    Except Fault ExportState :=
  if h : call.1 < maxEmulators then exportDirection func (ms.adrs ⟨call.1, h⟩) st call.2
  else .error .monitorTable

/-- The monitors and directions in the order of the loops. -/
def exportOrder (ms : Monitors) : List (ℕ × Dir) :=
  (List.range ms.nbrMonitors.toNat).flatMap fun m => [(m, 0), (m, 1)]

/-- The calls of the send function, up to one that does not return. -/
def exportTrace (func : NetflowSendFunc) (ms : Monitors) :
    List (ℕ × Dir) → ExportState → List ExporterCall
  | [], _ => []
  | call :: rest, st =>
    match exportCall func ms st call with
    | .error _ => []
    | .ok st' =>
      { r := st'.r
        datagrams := st'.exporter.net.sent.length - st.exporter.net.sent.length } ::
        exportTrace func ms rest st'

/-- The number of flows that the scan of a call takes out, as `expired_flows` has room for them. -/
def numExpired (c : ExpiryCall) (s : Daemon) : ℕ :=
  match scanExpired c.now c.ex c.reallocOk s.tracker.ft with
  | .error _ => 0
  | .ok (_, expired) => expired.length

/-- The calls of the send function that a call of `check_expired` makes in emulator mode. -/
def exporterCalls (c : ExpiryCall) (s : Daemon) : List ExporterCall :=
  match scanExpired c.now c.ex c.reallocOk s.tracker.ft, c.target with
  | .ok (ft, expired), some func =>
    if expired.isEmpty then []
    else exportTrace func s.tracker.monitors (exportOrder s.tracker.monitors)
      { ft := ft, exporter := s.exporter, expired := expired }
  | _, _ => []

/-- The number of datagrams of the calls that have not failed. -/
def datagramsSent (calls : List ExporterCall) : ℕ :=
  ((calls.filter fun call => call.r ≠ -1).map ExporterCall.datagrams).sum

/-- The value of `r` behind some calls. -/
def lastReturn (r : ℤ) (calls : List ExporterCall) : ℤ := (calls.getLast?.map ExporterCall.r).getD r

theorem lastReturn_cons (r : ℤ) (call : ExporterCall) (calls : List ExporterCall) :
    lastReturn r (call :: calls) = lastReturn call.r calls := by
  rw [lastReturn, lastReturn, List.getLast?_cons]
  cases calls.getLast? with
  | none => rfl
  | some last => rfl

section
variable {func : NetflowSendFunc} {ms : Monitors} {st st' : ExportState}

/-- The two calls for a monitor. -/
theorem exportMonitor_eq (func : NetflowSendFunc) (ms : Monitors) (st : ExportState) (m : ℕ) :
    exportMonitor func ms st m = [(m, 0), (m, 1)].foldlM (exportCall func ms) st := by
  rw [exportMonitor, List.foldlM_cons, exportCall]
  by_cases h : m < maxEmulators
  · simp only [dif_pos h]
    congr 1
    funext st'
    rw [List.foldlM_cons, exportCall, dif_pos h]
    simp
  · rw [dif_neg h, dif_neg h]
    rfl

theorem exportMonitors_eq (func : NetflowSendFunc) (ms : Monitors) (st : ExportState) :
    exportMonitors func ms st = (exportOrder ms).foldlM (exportCall func ms) st := by
  rw [exportMonitors, exportOrder]
  induction List.range ms.nbrMonitors.toNat generalizing st with
  | nil => rfl
  | cons m rest ih =>
    rw [List.foldlM_cons, List.flatMap_cons, List.foldlM_append, exportMonitor_eq]
    congr 1
    funext st'
    exact ih st'

theorem datagramsSent_cons (call : ExporterCall) (calls : List ExporterCall) :
    datagramsSent (call :: calls) =
      (if call.r = -1 then 0 else call.datagrams) + datagramsSent calls := by
  rw [datagramsSent, datagramsSent]
  by_cases h : call.r = -1
  · rw [List.filter_cons_of_neg (by simpa using h), if_pos h, Nat.zero_add]
  · rw [List.filter_cons_of_pos (by simpa using h), if_neg h, List.map_cons, List.sum_cons]

theorem ofInt_natCast (n : ℕ) : UInt64.ofInt n = UInt64.ofNat n := by
  apply UInt64.toNat_inj.mp
  rw [UInt64.ofInt, UInt64.toNat_ofNat', UInt64.toNat_ofNat']
  omega

/-- What a call does to `packets_sent`. -/
theorem packetsSent_exportCall (hcounts : CountsDatagrams func) {call : ℕ × Dir}
    (h : exportCall func ms st call = .ok st') :
    st'.ft.packetsSent = st.ft.packetsSent + UInt64.ofNat (if st'.r = -1 then 0
      else st'.exporter.net.sent.length - st.exporter.net.sent.length) := by
  rw [exportCall] at h
  split_ifs at h
  obtain ⟨marked, -, hsend⟩ := bind_eq_ok.mp h
  obtain ⟨⟨r, flowsExported, exporter⟩, hfunc, hst'⟩ := bind_eq_ok.mp hsend
  obtain rfl := Except.ok.inj hst'
  show (if r > 0 then _ else _) = _ + UInt64.ofNat (if r = -1 then 0 else _)
  by_cases hr : r = -1
  · -- the datagrams of a call that fails are not counted
    rw [if_pos hr, if_neg (by omega)]
    exact (UInt64.add_zero _).symm
  · obtain ⟨n, rfl, hlength⟩ := hcounts _ _ _ _ _ _ _ _ hfunc hr
    have hn : exporter.net.sent.length - st.exporter.net.sent.length = n := by omega
    rw [if_neg hr, hn]
    by_cases hpos : (n : ℤ) > 0
    · rw [if_pos hpos, ofInt_natCast]
    · have hzero : n = 0 := by omega
      rw [if_neg hpos, hzero]
      exact (UInt64.add_zero _).symm

/-- The state behind the calls: `r` is what the last one has returned. -/
theorem exportTrace_spec (hcounts : CountsDatagrams func) {calls : List (ℕ × Dir)}
    (h : calls.foldlM (exportCall func ms) st = .ok st') :
    st'.r = lastReturn st.r (exportTrace func ms calls st) ∧
      st'.ft.packetsSent = st.ft.packetsSent +
        UInt64.ofNat (datagramsSent (exportTrace func ms calls st)) := by
  -- on the calls that are still to be made, from any value of `r`
  induction calls generalizing st with
  | nil =>
    obtain rfl := Except.ok.inj h
    exact ⟨rfl, (UInt64.add_zero _).symm⟩
  | cons call rest ih =>
    obtain ⟨st₁, hcall, hrest⟩ := foldlM_cons_ok.mp h
    obtain ⟨hr, hsent⟩ := ih hrest
    rw [exportTrace, hcall]
    refine ⟨?_, ?_⟩
    · rw [hr, lastReturn_cons]
    · rw [hsent, packetsSent_exportCall hcounts hcall, datagramsSent_cons, UInt64.ofNat_add,
        UInt64.add_assoc]

end

/-! ## The whole function -/

/-- The scan sends nothing. -/
theorem packetsSent_scanExpired {now : Timeval} {ex : ExpireMode} {reallocOk : Expiry → Bool}
    {ft ft' : FlowTrack} {expired : List Flow}
    (h : scanExpired now ex reallocOk ft = .ok (ft', expired)) :
    ft'.packetsSent = ft.packetsSent := by
  refine foldlM_ok_rel (R := fun st st' : FlowTrack × List Flow =>
    st'.1.packetsSent = st.1.packetsSent) (fun _ => rfl) (fun _ _ _ h h' => h'.trans h) ?_ h
  intro st e st' hstep
  obtain rfl | ⟨flow, -, rfl⟩ := scanStep_cases hstep
  · rfl
  · rfl

theorem packetsSent_foldl_updateStatistics (flows : List Flow) (ft : FlowTrack) :
    (flows.foldl updateStatistics ft).packetsSent = ft.packetsSent := by
  induction flows generalizing ft with
  | nil => rfl
  | cons f fs ih => rw [List.foldl_cons, ih, updateStatistics]

/-- What a call of `check_expired` says about the calls of the send function: the value it returns,
and the count of the packets sent. -/
structure FailuresReported (c : ExpiryCall) (s : Daemon) (ret : ℤ) (s' : Daemon) : Prop where
  failed : ret = -1 ↔ ∃ call ∈ exporterCalls c s, call.r = -1
  otherwise : (∀ call ∈ exporterCalls c s, call.r ≠ -1) → ret = numExpired c s
  packetsSent : s'.tracker.ft.packetsSent =
    s.tracker.ft.packetsSent + UInt64.ofNat (datagramsSent (exporterCalls c s))

/-- **What `check_expired` returns** in emulator mode: -1 when the last of its calls has returned
-1. -/
theorem checkExpired_emulator {c : ExpiryCall} {s s' : Daemon} {ret : ℤ} {sender : NetflowSender}
    (hemulator : c.usingEmulator = true) (htarget : c.target = some sender.func)
    (h : checkExpired c s = .ok (ret, s')) :
    ret = (if lastReturn 0 (exporterCalls c s) = -1 then -1 else (numExpired c s : ℤ)) ∧
      s'.tracker.ft.packetsSent =
        s.tracker.ft.packetsSent + UInt64.ofNat (datagramsSent (exporterCalls c s)) := by
  obtain ⟨⟨ft, expired⟩, hscan, hrest⟩ := bind_eq_ok.mp h
  have hsame := packetsSent_scanExpired hscan
  have hnum : numExpired c s = expired.length := by rw [numExpired, hscan]
  have hcalls : exporterCalls c s = if expired.isEmpty = true then [] else
      exportTrace sender.func s.tracker.monitors (exportOrder s.tracker.monitors)
        { ft := ft, exporter := s.exporter, expired := expired } := by
    rw [exporterCalls, hscan, htarget]
  rw [hnum]
  dsimp only at hrest
  by_cases hempty : expired.isEmpty = true
  · -- no call is made, and `r` is still 0
    rw [if_pos hempty] at hrest hcalls
    obtain ⟨rfl, rfl⟩ := Prod.ext_iff.mp (Except.ok.inj hrest)
    rw [hcalls, List.isEmpty_iff.mp hempty]
    exact ⟨rfl, hsame.trans (UInt64.add_zero _).symm⟩
  · rw [if_neg hempty] at hrest hcalls
    obtain ⟨st, hexport, hst⟩ := bind_eq_ok.mp hrest
    obtain ⟨rfl, rfl⟩ := Prod.ext_iff.mp (Except.ok.inj hst)
    rw [exportExpired, htarget] at hexport
    simp only [hemulator, if_true] at hexport
    rw [exportMonitors_eq] at hexport
    obtain ⟨hr, hsent⟩ := exportTrace_spec sender.counts hexport
    rw [hcalls]
    refine ⟨by rw [← hr], ?_⟩
    -- the statistics about the flows leave the count of the packets alone
    show (st.expired.foldl updateStatistics st.ft).packetsSent = _
    rw [packetsSent_foldl_updateStatistics, hsent, hsame]

/-- **Failures are reported** exactly when no call of the send function has failed, or the last one
has. -/
theorem failuresReported_iff {c : ExpiryCall} {s s' : Daemon} {ret : ℤ} (sender : NetflowSender)
    (hemulator : c.usingEmulator = true) (htarget : c.target = some sender.func)
    (h : checkExpired c s = .ok (ret, s')) :
    FailuresReported c s ret s' ↔
      ((∃ call ∈ exporterCalls c s, call.r = -1) →
        ∃ call, (exporterCalls c s).getLast? = some call ∧ call.r = -1) := by
  obtain ⟨hret, hsent⟩ := checkExpired_emulator hemulator htarget h
  have hlast : lastReturn 0 (exporterCalls c s) = -1 ↔
      ∃ call, (exporterCalls c s).getLast? = some call ∧ call.r = -1 := by
    rw [lastReturn]
    cases (exporterCalls c s).getLast? with
    | none => simp
    | some call => simp
  have hminus : ret = -1 ↔ ∃ call, (exporterCalls c s).getLast? = some call ∧ call.r = -1 := by
    rw [← hlast, hret]
    by_cases hr : lastReturn 0 (exporterCalls c s) = -1
    · rw [if_pos hr]
      exact iff_of_true rfl hr
    · rw [if_neg hr]
      exact iff_of_false (by omega) hr
  constructor
  · -- a failure that is reported is that of the last call
    intro hreported hfails
    exact hminus.mp (hreported.failed.mpr hfails)
  · intro hcond
    have hmem : (∃ call, (exporterCalls c s).getLast? = some call ∧ call.r = -1) →
        ∃ call ∈ exporterCalls c s, call.r = -1 := by
      rintro ⟨call, hcall, hr⟩
      exact ⟨call, List.mem_of_getLast? hcall, hr⟩
    refine ⟨hminus.trans ⟨hmem, hcond⟩, fun hall => ?_, hsent⟩
    rw [hret, if_neg]
    intro hr
    obtain ⟨call, hcall, hfails⟩ := hmem (hlast.mp hr)
    exact hall call hcall hfails

/-- A flush that sends the flows in version 5. -/
def flushV5 : ExpiryCall where
  usingEmulator := true
  target := some (nf5 true {}).func
  ex := .all

/-- A socket whose first `send` fails. -/
def firstSendFails : Exporter where
  net := { sendFails := fun k => k = 0 }

/-- With a socket that works, a flush reports the one flow of two messages. -/
theorem failuresReported_noFailure :
    ∃ t s', runOk {} [sampleCall, sampleCall] = some t ∧
      checkExpired flushV5 ⟨t, {}⟩ = .ok (1, s') ∧ FailuresReported flushV5 ⟨t, {}⟩ 1 s' := by
  have hcheck : (runOk {} [sampleCall, sampleCall]).any (fun t =>
      (checkExpired flushV5 ⟨t, {}⟩).toOption.any (fun res => res.1 = 1) ∧
      ∀ call ∈ (exporterCalls flushV5 ⟨t, {}⟩).map ExporterCall.r, call ≠ -1) = true := by
    decide +kernel
  obtain ⟨t, hrun, hp⟩ := (Option.any_eq_true _ _).mp hcheck
  obtain ⟨hany, hcalls⟩ := of_decide_eq_true hp
  obtain ⟨⟨ret, s'⟩, hcall, hret⟩ := exists_of_any hany
  obtain rfl : ret = 1 := of_decide_eq_true hret
  refine ⟨t, s', hrun, hcall, (failuresReported_iff (nf5 true {}) rfl rfl hcall).mpr ?_⟩
  intro hfails
  obtain ⟨call, hmem, hr⟩ := hfails
  exact absurd hr (hcalls call.r (List.mem_map_of_mem hmem))

/-- The In call of the only monitor fails, and its Out call has nothing to send: `check_expired`
returns the number of the expired flows. -/
theorem failuresReported_inCall :
    ∃ t s', runOk {} [sampleCall, sampleCall] = some t ∧
      checkExpired flushV5 ⟨t, firstSendFails⟩ = .ok (1, s') ∧
      ¬ FailuresReported flushV5 ⟨t, firstSendFails⟩ 1 s' := by
  have hcheck : (runOk {} [sampleCall, sampleCall]).any (fun t =>
      (checkExpired flushV5 ⟨t, firstSendFails⟩).toOption.any (fun res => res.1 = 1) ∧
      -1 ∈ (exporterCalls flushV5 ⟨t, firstSendFails⟩).map ExporterCall.r) = true := by
    decide +kernel
  obtain ⟨t, hrun, hp⟩ := (Option.any_eq_true _ _).mp hcheck
  obtain ⟨hany, hmem⟩ := of_decide_eq_true hp
  obtain ⟨⟨ret, s'⟩, hcall, hret⟩ := exists_of_any hany
  obtain rfl : ret = 1 := of_decide_eq_true hret
  refine ⟨t, s', hrun, hcall, ?_⟩
  intro hreported
  exact absurd (hreported.failed.mpr (List.mem_map.mp hmem)) (by decide)

end Softflowd
