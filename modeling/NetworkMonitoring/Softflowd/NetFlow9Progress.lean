import NetworkMonitoring.Foundations.FueledLoops
import NetworkMonitoring.Softflowd.NetFlow9Export
import NetworkMonitoring.Softflowd.Runs

/-!
# softflowd — when the NetFlow v9 exporter ends

The inner loop of `send_netflow_v9` stops when the packet is full, and it stops in the same way at a
flow that yields no record. The outer loop goes on from where the inner loop stopped, so it never
comes past a flow without octets.

## Main results

* `sendNetflowV9_ends_iff`: with all sends succeeding, a call ends, and every iteration advances
  `j`, exactly when every flow has octets in some direction;
* `sendNetflowV9_zeroLength`: a message with the length 0 leaves a flow in the table at which the
  exporter never ends.
-/

namespace Softflowd

open FueledLoops

/-! ## Iterations -/

/-- One iteration of the outer loop of `send_netflow_v9`, from the flows that are left. -/
def V9Send.next (env : V9Env) (exported : UInt64) :
    List Flow × V9Send → Except Fault (Except V9Send V9Send) ⊕ (List Flow × V9Send)
  | ([], st) => .inl (.ok (.ok st))
  | (f :: fs, st) =>
    let ts := st.ex.nf9.refresh.2
    let (pkt, rest) := V9Packet.fill ts env.boot (f :: fs) (st.start env exported)
    let pkt := pkt.finish
    match st.ex.net.send (pkt.packet.take pkt.offset) with
    | .error net => .inl (.ok (.error { st with ex := { net := net, nf9 := ts } }))
    | .ok net => .inr (rest,
      { numPackets := st.numPackets + 1
        j := st.j + ((f :: fs).length - rest.length)
        lastValid := pkt.lastValid
        ex := { net := net
                nf9 := { ts with pktsUntilTemplate := ts.pktsUntilTemplate - 1 } } })

/-- The outer loop repeats its body. -/
theorem sendLoopV9_succ (env : V9Env) (exported : UInt64) (fuel : ℕ) (f : Flow) (fs : List Flow)
    (st : V9Send) :
    sendLoopV9 env exported (fuel + 1) (f :: fs) st =
      match V9Send.next env exported (f :: fs, st) with
      | .inl r => r
      | .inr (rest, st') => sendLoopV9 env exported fuel rest st' := by
  simp only [sendLoopV9, V9Send.next]
  split <;> rename_i h <;> simp only [h]

/-- Where no send fails, the next iteration starts at the flow where the inner loop has stopped. -/
theorem V9Send.next_cons (env : V9Env) (exported : UInt64) (f : Flow) (fs : List Flow)
    {st : V9Send} (hsend : ∀ k, st.ex.net.sendFails k = false) :
    ∃ st', V9Send.next env exported (f :: fs, st) =
        .inr ((V9Packet.fill st.ex.nf9.refresh.2 env.boot (f :: fs) (st.start env exported)).2,
          st') ∧
      st'.ex.net.sendFails = st.ex.net.sendFails ∧
      st'.ex.nf9.v4Template = st.ex.nf9.refresh.2.v4Template ∧
      st'.ex.nf9.v6Template = st.ex.nf9.refresh.2.v6Template ∧
      st'.j = st.j + ((f :: fs).length -
        (V9Packet.fill st.ex.nf9.refresh.2 env.boot (f :: fs) (st.start env exported)).2.length) := by
  have hnet : ∀ datagram, st.ex.net.send datagram = .ok { st.ex.net with
      sent := st.ex.net.sent ++ [datagram], attempts := st.ex.net.attempts + 1 } := by
    intro datagram
    rw [Net.send, hsend, if_neg Bool.false_ne_true]
  simp only [V9Send.next, hnet]
  exact ⟨_, rfl, rfl, rfl, rfl, rfl⟩

/-! ## A flow that yields no record -/

/-- A flow without octets yields no record, and neither does one of another family. -/
theorem nfFlowToFlowset_nonpos {f : Flow} (h : ¬ f.Exportable) (packet : List UInt8)
    (offset len : ℕ) (boot : Timeval) : (nfFlowToFlowset f packet offset len boot).1 ≤ 0 := by
  unfold nfFlowToFlowset
  by_cases hfamily : f.af = afInet ∨ f.af = afInet6
  · rw [if_pos hfamily]
    have hoctets : ¬ f.octets 0 > 0 ∧ ¬ f.octets 1 > 0 := by
      rw [← not_or]
      exact fun hoctets => h ⟨hfamily, hoctets⟩
    have hcopy : [0, 1].foldlM (copyRecord f boot offset len) { packet := packet } =
        .ok { packet := packet } := by
      simp only [List.foldlM_cons, copyRecord, if_neg hoctets.1, ErrorLoops.ok_bind,
        if_neg hoctets.2]
      rfl
    rw [hcopy]
    exact le_rfl
  · rw [if_neg hfamily]
    exact Int.negSucc_lt_zero 0 |>.le

/-- The inner loop does not come past such a flow. -/
theorem V9Packet.mem_fill {ts : Nf9Statics} {boot : Timeval} {f : Flow} {fs : List Flow}
    (hf : f ∈ fs) (h : ¬ f.Exportable) (st : V9Packet) : f ∈ (V9Packet.fill ts boot fs st).2 := by
  induction fs generalizing st with
  | nil => cases hf
  | cons g gs ih =>
    rw [V9Packet.fill]
    split
    · exact hf
    · rename_i st' _
      by_cases hstop : (nfFlowToFlowset g st'.packet st'.offset (nf9MaxPacketSize - st'.offset)
          boot).1 ≤ 0
      · simp only [if_pos hstop]
        exact hf
      · simp only [if_neg hstop]
        -- the loop has taken `g`, which has a record, so the flow is behind it
        rcases List.mem_cons.mp hf with rfl | hf
        · exact absurd (nfFlowToFlowset_nonpos h _ _ _ _) hstop
        · exact ih hf _

/-- So neither does the outer loop, with any amount of fuel. -/
theorem sendLoopV9_noReturn (env : V9Env) (exported : UInt64) (fuel : ℕ) {f : Flow}
    {flows : List Flow} {st : V9Send} (hsend : ∀ k, st.ex.net.sendFails k = false)
    (hf : f ∈ flows) (h : ¬ f.Exportable) :
    sendLoopV9 env exported fuel flows st = .error .noReturn := by
  induction fuel generalizing flows st with
  | zero =>
    cases flows with
    | nil => cases hf
    | cons g gs => rfl
  | succ fuel ih =>
    cases flows with
    | nil => cases hf
    | cons g gs =>
      obtain ⟨st', hnext, hnet, -⟩ := V9Send.next_cons env exported g gs hsend
      rw [sendLoopV9_succ, hnext]
      refine ih ?_ (V9Packet.mem_fill hf h _)
      rw [hnet]
      exact hsend

/-! ## Progress -/

/-- A call ends, and every iteration of its outer loop advances `j`. -/
structure EndsV9 (now : Timeval) (time : ℕ → ℤ) (flows : List Flow) (exported : UInt64)
    (boot : Timeval) (inOut : ℤ) (ex : Exporter) : Prop where
  ends : ∃ fuel out, sendNetflowV9 fuel now time flows exported boot inOut ex = .ok out
  advances : ∀ s s', Reaches (V9Send.next ⟨now, time, boot⟩ exported)
      (flows, { ex := { ex with nf9 := ex.nf9.init } }) s →
    V9Send.next ⟨now, time, boot⟩ exported s = .inr s' → s.2.j < s'.2.j

/-- What holds before every iteration when all flows have octets. -/
structure V9Send.Progressing (s : List Flow × V9Send) : Prop where
  templates : V9Packet.Initialised s.2.ex.nf9
  sends : ∀ k, s.2.ex.net.sendFails k = false
  flows : ∀ f ∈ s.1, f.Exportable

/-- One iteration takes at least one flow. -/
theorem V9Send.Progressing.next {env : V9Env} {exported : UInt64} {s s' : List Flow × V9Send}
    (h : V9Send.Progressing s) (hnext : V9Send.next env exported s = .inr s') :
    V9Send.Progressing s' ∧ s.2.j < s'.2.j := by
  obtain ⟨flows, st⟩ := s
  cases flows with
  | nil => cases hnext
  | cons f fs =>
    obtain ⟨hf, hfs⟩ := List.forall_mem_cons.mp h.flows
    obtain ⟨d, taken, rest, out, -, -, hfill, -, hrest, -⟩ :=
      V9Send.fill_start env exported h.templates hf hfs
    obtain ⟨st', hnext', hnet, hv4, hv6, hj⟩ := V9Send.next_cons env exported f fs h.sends
    rw [hnext] at hnext'
    obtain rfl := Sum.inr.inj hnext'
    rw [hfill] at hj ⊢
    -- sending the packet touches neither the templates nor the flows behind those taken
    have htemplates := (Nf9Statics.refresh_templates h.templates).2
    refine ⟨⟨⟨hv4.trans htemplates.1, hv6.trans htemplates.2⟩, fun k => ?_, fun g hg => ?_⟩, ?_⟩
    · change st'.ex.net.sendFails k = false
      rw [hnet]
      exact h.sends k
    · exact hfs g (hrest ▸ List.mem_append_right taken hg)
    · have hlen : fs.length = taken.length + rest.length := by rw [hrest, List.length_append]
      change st.j < st'.j
      rw [hj, List.length_cons, hlen]
      change st.j < st.j + (taken.length + rest.length + 1 - rest.length)
      omega

/-- When all flows have octets, the outer loop ends, whichever sends fail: the fuel has to be enough
for one iteration for each flow. -/
theorem sendLoopV9_returns (env : V9Env) (exported : UInt64) {fuel : ℕ} {flows : List Flow}
    {st : V9Send} (hts : V9Packet.Initialised st.ex.nf9) (hflows : ∀ f ∈ flows, f.Exportable)
    (hfuel : flows.length ≤ fuel) : ∃ res, sendLoopV9 env exported fuel flows st = .ok res := by
  induction fuel generalizing flows st with
  | zero =>
    obtain rfl := List.length_eq_zero_iff.mp (Nat.le_zero.mp hfuel)
    exact ⟨_, rfl⟩
  | succ fuel ih =>
    cases flows with
    | nil => exact ⟨_, rfl⟩
    | cons f fs =>
      obtain ⟨hf, hfs⟩ := List.forall_mem_cons.mp hflows
      obtain ⟨d, taken, rest, out, -, -, hfill, -, hrest, -⟩ :=
        V9Send.fill_start env exported hts hf hfs
      rw [sendLoopV9]
      simp only [hfill]
      split
      · exact ⟨_, rfl⟩
      · -- the packet has been sent, and fewer flows are left
        refine ih (Nf9Statics.refresh_templates hts).2 (fun g hg => ?_) ?_
        · exact hfs g (hrest ▸ List.mem_append_right taken hg)
        · rw [hrest, List.length_cons, List.length_append] at hfuel
          omega

/-- **The end of the exporter.** With all sends succeeding, a call of `send_netflow_v9` ends, and
every iteration of its outer loop advances `j`, exactly when all flows are IPv4 or IPv6 flows with
octets in at least one direction. -/
theorem sendNetflowV9_ends_iff {ex : Exporter} (hex : ex.nf9.Reachable)
    (hsend : ∀ k, ex.net.sendFails k = false) (now : Timeval) (time : ℕ → ℤ) (flows : List Flow)
    (exported : UInt64) (boot : Timeval) (inOut : ℤ) :
    EndsV9 now time flows exported boot inOut ex ↔ ∀ f ∈ flows, f.Exportable := by
  constructor
  · rintro ⟨⟨fuel, out, hcall⟩, -⟩ f hf
    -- the flow stays in the array for every amount of fuel
    by_contra hzero
    rw [sendNetflowV9, sendLoopV9_noReturn _ _ _ hsend hf hzero] at hcall
    cases hcall
  · intro hflows
    constructor
    -- one iteration for each flow is enough
    · obtain ⟨r, exported', ex', ds, hcall, -⟩ :=
        nf9Export_wellFormed hex hsend hflows le_rfl now time exported boot inOut
      exact ⟨flows.length, _, hcall⟩
    · intro s s' hreach hnext
      have hstart : V9Send.Progressing (flows, { ex := { ex with nf9 := ex.nf9.init } }) :=
        ⟨(Nf9Statics.init_ready hex.ready).2, hsend, hflows⟩
      exact ((hreach.invariant hstart fun t t' _ ht hn => (ht.next hn).1).next hnext).2

/-- Two flows of different families. -/
theorem sendNetflowV9_ends_mixed :
    EndsV9 {} (fun _ => 0) [sampleV4Flow, sampleV6Flow] 0 {} 0 {} := by
  refine (sendNetflowV9_ends_iff .initial (fun _ => rfl) _ _ _ _ _ _).mpr fun f hf => ?_
  rcases List.mem_pair.mp hf with rfl | rfl
  · exact sampleV4Flow_exportable
  · exact sampleV6Flow_exportable

/-- A message about a packet of length 0. -/
def zeroLengthCall : EmulatorCall where
  pkt := CText.ascii "10.0.0.1#1.2.3.4#5.6.7.8#0#1#2#80#443#1#2#TCP#0##A#0"
  len := 0
  received := ⟨1000, 0⟩

/-- The message leaves a flow in the table, and the exporter never comes past this flow. -/
theorem sendNetflowV9_zeroLength :
    ∃ t, runOk {} [zeroLengthCall] = some t ∧ t.ft.flows.length = 1 ∧
      ∀ fuel now time exported boot inOut,
        sendNetflowV9 fuel now time t.ft.flows exported boot inOut {} = .error .noReturn := by
  obtain ⟨t, hrun, hlen, hzero⟩ : ∃ t, runOk {} [zeroLengthCall] = some t ∧
      t.ft.flows.length = 1 ∧ ∀ f ∈ t.ft.flows, f.octets 0 = 0 ∧ f.octets 1 = 0 := by
    have hcheck : (runOk {} [zeroLengthCall]).any (fun t =>
        t.ft.flows.length = 1 ∧ ∀ f ∈ t.ft.flows, f.octets 0 = 0 ∧ f.octets 1 = 0) = true := by
      decide +kernel
    obtain ⟨t, ht, hp⟩ := (Option.any_eq_true _ _).mp hcheck
    exact ⟨t, ht, by simpa using hp⟩
  obtain ⟨f, hflows⟩ := List.length_eq_one_iff.mp hlen
  have hf : f ∈ t.ft.flows := hflows ▸ List.mem_singleton_self f
  have hnot : ¬ f.Exportable := by
    rintro ⟨-, hoctets⟩
    rw [(hzero f hf).1, (hzero f hf).2] at hoctets
    rcases hoctets with h | h <;> exact absurd h (by decide)
  refine ⟨t, hrun, hlen, fun fuel now time exported boot inOut => ?_⟩
  rw [sendNetflowV9, sendLoopV9_noReturn _ _ _ (fun _ => rfl) hf hnot]
  rfl

end Softflowd
