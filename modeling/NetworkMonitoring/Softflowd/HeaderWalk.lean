import NetworkMonitoring.Softflowd.TruncatedPackets

/-!
# softflowd — the walk through the IPv6 extension headers

`ipv6Walk` counts the captured bytes that are left in a natural number. In `ipv6_to_flowrec` they
are a `size_t`, which would wrap around if a header were longer than what is left. Here a round of
the loop is a step of its own, with the subtraction of the source (`HeaderState.step`), and a run
lists the states at the head of the loop (`Walks`).

* `exists_walks`: every run ends, since a round takes eight bytes at least;
* `Walks.end_eq`: the headers end where the captured bytes end, so nothing has wrapped around;
* `Walks.ipv6Walk_eq`: the run ends like `ipv6Walk`;
* `headerWalk_terminates`: the run of a packet.
-/

namespace Softflowd

open Bytes

/-- The variables of the loop at its head: the offset `pkt`, `caplen`, `nxt` and `*isfrag`. -/
structure HeaderState where
  pkt : ℕ
  caplen : UInt64
  nxt : UInt8
  isfrag : Bool
  deriving DecidableEq, Repr

namespace HeaderState

/-- The loop goes on behind a header of this protocol: a Hop-by-Hop Options, Routing, Destination
Options or Fragment header. -/
def Skipped (nxt : UInt8) : Prop := nxt = 0 ∨ nxt = 43 ∨ nxt = 60 ∨ nxt = 44

instance (nxt : UInt8) : Decidable (Skipped nxt) := inferInstanceAs (Decidable (_ ∨ _))

/-- The length of a header that the loop goes on behind. -/
def stride (m : Mem) (s : HeaderState) : ℕ := if s.nxt = 44 then 8 else extensionLen m s.pkt

/-- One round of the loop: it ends, or goes on in another state. -/
def step (m : Mem) (s : HeaderState) : Ipv6Walk ⊕ HeaderState :=
  if s.nxt = 0 ∨ s.nxt = 43 ∨ s.nxt = 60 then
    if s.caplen < 2 ∨ s.caplen < UInt64.ofNat (extensionLen m s.pkt) then .inl (.ret 1 s.isfrag)
    else .inr
      { pkt := s.pkt + extensionLen m s.pkt
        caplen := s.caplen - UInt64.ofNat (extensionLen m s.pkt)
        nxt := m s.pkt
        isfrag := s.isfrag }
  else if s.nxt = 44 then
    if s.caplen < 8 then .inl (.ret 1 true)
    else if fragmentOffset m s.pkt ≠ 0 then .inl (.ret 0 true)
    else .inr { pkt := s.pkt + 8, caplen := s.caplen - 8, nxt := m s.pkt, isfrag := true }
  else .inl (.transport s.nxt s.pkt s.caplen.toNat s.isfrag)

/-- The state in which the loop is entered, when the IPv6 header has been taken off `caplen`. -/
def first (m : Mem) (caplen : UInt64) : HeaderState :=
  { pkt := 40, caplen := caplen - 40, nxt := m 6, isfrag := false }

/-- A run of the loop: the states at its head, and how it ends. -/
inductive Walks (m : Mem) : HeaderState → List HeaderState → Ipv6Walk → Prop
  | stop {s : HeaderState} {e : Ipv6Walk} (h : s.step m = .inl e) : Walks m s [s] e
  | next {s s' : HeaderState} {ss : List HeaderState} {e : Ipv6Walk} (h : s.step m = .inr s')
      (hrest : Walks m s' ss e) : Walks m s (s :: ss) e

variable {m : Mem} {s s' : HeaderState} {ss : List HeaderState} {e : Ipv6Walk}

/-- An extension header is at most 2048 bytes long, so its length fits a `size_t`. -/
theorem toNat_extensionLen (m : Mem) (pkt : ℕ) :
    (UInt64.ofNat (extensionLen m pkt)).toNat = extensionLen m pkt := by
  have hlt := (m (pkt + 1)).toNat_lt
  rw [UInt64.toNat_ofNat', Nat.mod_eq_of_lt]
  rw [extensionLen]
  omega

/-- What a round of the loop does that does not end it: it goes on behind a header that has been
captured as a whole. -/
theorem step_next (h : s.step m = .inr s') :
    Skipped s.nxt ∧ 8 ≤ s.stride m ∧ s.stride m ≤ s.caplen.toNat ∧
      s'.pkt = s.pkt + s.stride m ∧ s'.caplen.toNat = s.caplen.toNat - s.stride m ∧
      s'.nxt = m s.pkt ∧
      ipv6Walk m s.pkt s.caplen.toNat s.nxt s.isfrag =
        ipv6Walk m s'.pkt s'.caplen.toNat s'.nxt s'.isfrag := by
  rw [step] at h
  split_ifs at h with hext hrunt hfrag hrunt hoff
  · -- an extension header, by the length it gives
    obtain rfl := Sum.inr.inj h
    have hne : s.nxt ≠ 44 := by
      rcases hext with h | h | h <;> rw [h] <;> decide
    have hlen : ¬ s.caplen < UInt64.ofNat (extensionLen m s.pkt) := (not_or.mp hrunt).2
    rw [UInt64.lt_iff_toNat_lt, toNat_extensionLen] at hlen
    have hsub : (s.caplen - UInt64.ofNat (extensionLen m s.pkt)).toNat =
        s.caplen.toNat - extensionLen m s.pkt := by
      rw [UInt64.toNat_sub_of_le, toNat_extensionLen]
      rw [UInt64.le_iff_toNat_le, toNat_extensionLen]
      exact not_lt.mp hlen
    rw [stride, if_neg hne]
    refine ⟨?_, ?_, not_lt.mp hlen, rfl, hsub, rfl, ?_⟩
    · rw [Skipped]
      tauto
    · rw [extensionLen]
      omega
    · dsimp only
      rw [hsub]
      exact ipv6Walk_extension hext (not_lt.mp hlen)
  · -- the header of a first fragment
    obtain rfl := Sum.inr.inj h
    rw [UInt64.lt_iff_toNat_lt, not_lt] at hrunt
    have hsub : (s.caplen - 8).toNat = s.caplen.toNat - 8 :=
      UInt64.toNat_sub_of_le _ _ (UInt64.le_iff_toNat_le.mpr hrunt)
    rw [stride, if_pos hfrag]
    refine ⟨.inr (.inr (.inr hfrag)), le_rfl, hrunt, rfl, hsub, rfl, ?_⟩
    dsimp only
    rw [hsub, hfrag]
    exact ipv6Walk_firstFragment hrunt (not_not.mp hoff)

/-- What a round does that ends the loop: it comes to a transport header exactly when the loop does
not go on behind headers of that protocol. -/
theorem step_stop (h : s.step m = .inl e) :
    ipv6Walk m s.pkt s.caplen.toNat s.nxt s.isfrag = e ∧
      ∀ nxt pkt caplen isfrag, e = .transport nxt pkt caplen isfrag →
        s.nxt = nxt ∧ ¬ Skipped nxt := by
  rw [step] at h
  split_ifs at h with hext hrunt hfrag hrunt hoff <;> obtain rfl := Sum.inl.inj h
  · -- an extension header that is cut short
    refine ⟨ipv6Walk_extensionRunt hext ?_, fun _ _ _ _ he => by cases he⟩
    rw [UInt64.lt_iff_toNat_lt, UInt64.lt_iff_toNat_lt, toNat_extensionLen] at hrunt
    exact lt_extensionLen_iff.mpr (hrunt.imp_right fun hlt => hlt)
  · refine ⟨?_, fun _ _ _ _ he => by cases he⟩
    rw [hfrag]
    exact ipv6Walk_fragmentRunt (UInt64.lt_iff_toNat_lt.mp hrunt)
  · -- a later fragment
    refine ⟨?_, fun _ _ _ _ he => by cases he⟩
    rw [hfrag]
    exact ipv6Walk_laterFragment (not_lt.mp (UInt64.lt_iff_toNat_lt.not.mp hrunt)) hoff
  · refine ⟨ipv6Walk_transport hext hfrag, ?_⟩
    intro nxt pkt caplen isfrag he
    obtain ⟨rfl, -⟩ := Ipv6Walk.transport.inj he
    refine ⟨rfl, ?_⟩
    rw [Skipped]
    tauto

/-! ## The run -/

/-- Every run ends, since a round takes eight bytes at least. -/
theorem exists_walks (m : Mem) (s : HeaderState) : ∃ ss e, Walks m s ss e := by
  induction hlen : s.caplen.toNat using Nat.strong_induction_on generalizing s with
  | _ n ih =>
    cases hstep : s.step m with
    | inl e => exact ⟨[s], e, .stop hstep⟩
    | inr s' =>
      obtain ⟨-, hpos, hle, -, hcaplen, -, -⟩ := step_next hstep
      obtain ⟨ss, e, hrest⟩ := ih s'.caplen.toNat (by omega) s' rfl
      exact ⟨s :: ss, e, .next hstep hrest⟩

namespace Walks

/-- A run of `n` rounds needs eight bytes for each but the last. -/
theorem length_le (h : Walks m s ss e) : 8 * ss.length ≤ s.caplen.toNat + 8 := by
  induction h with
  | stop => simp
  | next hstep _ ih =>
    obtain ⟨-, hpos, hle, -, hcaplen, -, -⟩ := step_next hstep
    rw [List.length_cons]
    omega

/-- In every state the header starts so many bytes before the end of the captured ones as are
left. -/
theorem end_eq (h : Walks m s ss e) :
    ∀ t ∈ ss, t.pkt + t.caplen.toNat = s.pkt + s.caplen.toNat := by
  induction h with
  | stop =>
    intro t ht
    rw [List.mem_singleton.mp ht]
  | next hstep _ ih =>
    obtain ⟨-, -, hle, hpkt, hcaplen, -, -⟩ := step_next hstep
    intro t ht
    rcases List.mem_cons.mp ht with rfl | ht
    · rfl
    · rw [ih t ht]
      omega

/-- The run ends like the walk. -/
theorem ipv6Walk_eq (h : Walks m s ss e) :
    ipv6Walk m s.pkt s.caplen.toNat s.nxt s.isfrag = e := by
  induction h with
  | stop hstep => exact (step_stop hstep).1
  | next hstep _ ih =>
    obtain ⟨-, -, -, -, -, -, hwalk⟩ := step_next hstep
    exact hwalk.trans ih

/-- A run that comes to a transport header has gone on behind all headers before it. -/
theorem find?_eq (h : Walks m s ss e) {nxt : UInt8} {pkt caplen : ℕ} {isfrag : Bool}
    (he : e = .transport nxt pkt caplen isfrag) :
    (ss.map HeaderState.nxt).find? (fun n => ¬ Skipped n) = some nxt := by
  induction h with
  | stop hstep =>
    obtain ⟨hnxt, hskip⟩ := (step_stop hstep).2 _ _ _ _ he
    rw [List.map_singleton, hnxt, List.find?_singleton]
    simp [hskip]
  | next hstep _ ih =>
    obtain ⟨hskip, -⟩ := step_next hstep
    rw [List.map_cons, List.find?_cons]
    simpa [hskip] using ih he

end Walks

end HeaderState

/-- The transport header leaves the protocol as it is. -/
theorem transportToFlowrec_protocol (flow : Flow) (m : Mem) (pkt caplen : ℕ) (isfrag : Bool)
    (protocol : UInt8) (ndx : Dir) :
    (transportToFlowrec flow m pkt caplen isfrag protocol ndx).2.protocol = flow.protocol := by
  unfold transportToFlowrec
  split_ifs <;> rfl

/-- The protocol of the transport header to which the walk comes goes into the record. -/
theorem ipv6ToFlowrec_protocol {flow flow' : Flow} {m : Mem} {captured : ℕ} {len : UInt32}
    {af r : ℤ} {frag isfrag : Bool} {nxt : UInt8} {pkt caplen : ℕ}
    (hwalk : ipv6Walk m 40 (captured - 40) (m 6) false = .transport nxt pkt caplen isfrag)
    (h : ipv6ToFlowrec flow m captured len af = some (r, flow', frag)) : flow'.protocol = nxt := by
  unfold ipv6ToFlowrec at h
  dsimp only at h
  rw [hwalk] at h
  split_ifs at h
  obtain ⟨-, hflow⟩ := Prod.mk.inj (Option.some.inj h)
  obtain ⟨rfl, -⟩ := Prod.mk.inj hflow
  exact transportToFlowrec_protocol _ m pkt caplen isfrag nxt _

open HeaderState in
/-- **The header walk.** For every packet the loop ends, after a number of rounds that the captured
bytes bound. In each round `caplen` is what was captured behind `pkt`, a header behind which the
loop goes on is not longer than that, and nothing is read behind the captured bytes. When the loop
ends at a transport header, the protocol recorded is the first in the chain that is none of those
that are skipped. -/
theorem headerWalk_terminates (m : Mem) {captured : UInt64} (hmin : 40 ≤ captured) :
    (∃ ss e, Walks m (first m captured) ss e) ∧
      ∀ ss e, Walks m (first m captured) ss e →
        8 * ss.length ≤ captured.toNat ∧
        (∀ s ∈ ss, s.pkt + s.caplen.toNat = captured.toNat) ∧
        (∀ s ∈ ss, ∀ s', s.step m = .inr s' →
          s.stride m ≤ s.caplen.toNat ∧ s.pkt + s.stride m ≤ captured.toNat) ∧
        (∀ i ∈ ipv6WalkReads m 40 (captured.toNat - 40) (m 6), i < captured.toNat) ∧
        ∀ nxt pkt caplen isfrag, e = .transport nxt pkt caplen isfrag →
          (ss.map HeaderState.nxt).find? (fun n => ¬ Skipped n) = some nxt ∧
          ∀ flow len af r flow' frag,
            ipv6ToFlowrec flow m captured.toNat len af = some (r, flow', frag) →
              flow'.protocol = nxt := by
  have hlen : 40 ≤ captured.toNat := UInt64.le_iff_toNat_le.mp hmin
  have hfirst : (first m captured).caplen.toNat = captured.toNat - 40 :=
    UInt64.toNat_sub_of_le _ _ hmin
  refine ⟨exists_walks m _, ?_⟩
  intro ss e hrun
  -- what a round adds to `pkt` it takes from `caplen`
  have hend : ∀ s ∈ ss, s.pkt + s.caplen.toNat = captured.toNat := by
    intro s hs
    rw [hrun.end_eq s hs, hfirst]
    exact Nat.add_sub_cancel' hlen
  refine ⟨?_, hend, ?_, ?_, ?_⟩
  · have hrounds := hrun.length_le
    omega
  · intro s hs s' hstep
    obtain ⟨-, -, hle, -⟩ := step_next hstep
    have hs' := hend s hs
    exact ⟨hle, by omega⟩
  · intro i hi
    have hlt := IpPacket.lt_of_mem_ipv6WalkReads hi
    omega
  · intro nxt pkt caplen isfrag he
    refine ⟨hrun.find?_eq he, ?_⟩
    intro flow len af r flow' frag hrec
    have hwalk := hrun.ipv6Walk_eq
    rw [hfirst, he] at hwalk
    exact ipv6ToFlowrec_protocol hwalk hrec

/-- A packet with a Hop-by-Hop Options header before the UDP header. -/
def hopByHop : Mem := fun i => if i = 0 then 0x60 else if i = 40 then ipprotoUdp else 0

/-- Its record is one of UDP. -/
theorem headerWalk_hopByHop :
    ∃ r flow' frag, ipv6ToFlowrec {} hopByHop 56 56 afInet6 = some (r, flow', frag) ∧
      flow'.protocol = ipprotoUdp := by
  have hrun : HeaderState.Walks hopByHop (HeaderState.first hopByHop 56)
      [⟨40, 16, 0, false⟩, ⟨48, 8, ipprotoUdp, false⟩] (.transport ipprotoUdp 48 8 false) :=
    .next (by decide) (.stop (by decide))
  obtain ⟨-, hruns⟩ := headerWalk_terminates hopByHop (show (40 : UInt64) ≤ 56 by decide)
  obtain ⟨-, -, -, -, hprotocol⟩ := hruns _ _ hrun
  cases hrec : ipv6ToFlowrec {} hopByHop 56 56 afInet6 with
  | none =>
    rcases (IpPacket.toFlowrec_eq_none_iff (p := ⟨.v6, hopByHop, 56⟩) 56).mp hrec with
      hcut | hversion
    · exact absurd (show 56 < 40 from hcut) (by decide)
    · exact absurd rfl hversion
  | some record =>
    obtain ⟨r, flow', frag⟩ := record
    exact ⟨r, flow', frag, rfl, (hprotocol _ _ _ _ rfl).2 _ _ _ _ _ _ hrec⟩

end Softflowd
