import NetworkMonitoring.Softflowd.NetFlow1Batches
import NetworkMonitoring.Softflowd.NetFlow5Batches

/-!
# softflowd — NetFlow v1 and v5 side by side

Outside emulator mode `check_expired` calls the send function of the configured version once, with
`inOut = -1`. `send_netflow_v5` then exports both directions of a flow. `send_netflow_v1` asks for
`inOut == 0` or `inOut == 1` in that mode too, so it exports nothing, and the two versions
agree only when version 5 has nothing to send or cannot send it.
-/

namespace Softflowd

open Bytes ErrorLoops InetText

/-- What a v1 record says about a flow. -/
def Nf1Flow.report (r : Nf1Flow) : FlowReport where
  src := .v4 r.srcIp
  dst := .v4 r.destIp
  srcPort := r.srcPort
  dstPort := r.destPort
  protocol := r.protocol
  tcpFlags := r.tcpFlags
  packets := (htonl r.flowPackets).toNat
  octets := (htonl r.flowOctets).toNat
  start := htonl r.flowStart
  finish := htonl r.flowFinish

/-- What a v5 record says about a flow. -/
def Nf5Flow.report (r : Nf5Flow) : FlowReport where
  src := .v4 r.srcIp
  dst := .v4 r.destIp
  srcPort := r.srcPort
  dstPort := r.destPort
  protocol := r.protocol
  tcpFlags := r.tcpFlags
  packets := (htonl r.flowPackets).toNat
  octets := (htonl r.flowOctets).toNat
  start := htonl r.flowStart
  finish := htonl r.flowFinish

/-- Some IPv4 flow has traffic in some direction. -/
def HasTraffic (flows : List Flow) : Prop := ∃ f ∈ flows, f.af = afInet ∧ ∃ d, f.octets d ≠ 0

/-- Outside emulator mode version 5 exports every direction with traffic. -/
theorem V5Env.flatMap_records_ne_nil (env : V5Env) (hem : env.usingEmulator = false)
    (flows : List Flow) : flows.flatMap env.records ≠ [] ↔ HasTraffic flows := by
  have hsel : ∀ f d, env.selects f d = true ↔ f.octets d ≠ 0 := by
    intro f d
    simp [V5Env.selects, V5Env.stat, Flow.totals, hem, UInt32.pos_iff_ne_zero]
  rw [Ne, List.flatMap_eq_nil_iff]
  simp only [not_forall, HasTraffic, V5Env.records]
  refine exists_congr fun f => ?_
  by_cases haf : f.af = afInet
  · simp [haf, hsel, List.filter_eq_nil_iff, Fin.exists_fin_two]
    tauto
  · simp [haf]

/-- A call of `send_netflow_v5` outside emulator mode returns. It sends records exactly when
there is traffic and its first `send` succeeds. -/
theorem sendNetflowV5_sends_iff (now boot : Timeval) (inOut : ℤ) (flows : List Flow)
    (exported : UInt64) (ex : Exporter) :
    ∃ (r : ℤ) (exported' : UInt64) (net : Net) (ds : List Nf5Datagram),
      sendNetflowV5 false now flows exported boot inOut ex =
        .ok (r, exported', { ex with net := net }) ∧
      net.sent = ex.net.sent ++ ds.map Nf5Datagram.bytes ∧
      (nf5Records ds ≠ [] ↔ HasTraffic flows ∧ ex.net.sendFails ex.net.attempts = false) := by
  let env : V5Env := ⟨false, now, boot, inOut⟩
  rw [← V5Env.flatMap_records_ne_nil env rfl flows]
  rcases (sendLoopV5_ends env flows { exported := exported, net := ex.net } rfl
    fun _ _ hem => absurd hem Bool.false_ne_true).cases with
    ⟨_, hloop, st, ds, rfl, hsent, hnum, hpre, hdelivers, hfails⟩ |
    ⟨st, hloop, hj, ds, hrun, hdelivers⟩
  · refine ⟨-1, st.exported, st.net, ds, ?_, hsent, ?_⟩
    · rw [sendNetflowV5, hloop]
    · cases ds with
      | nil =>
        -- the first `send` has failed
        have hfails' : ex.net.sendFails ex.net.attempts = true := hfails
        simp [nf5Records, hfails']
      | cons d ds =>
        have hpos := (hnum [] d ds rfl).flows_pos
        have hfirst : ex.net.sendFails ex.net.attempts = false := hdelivers 0 (by simp)
        have hrecords : nf5Records (d :: ds) ≠ [] := by
          rw [nf5Records, List.flatMap_cons]
          exact List.append_ne_nil_of_left_ne_nil (List.ne_nil_of_length_pos hpos) _
        refine iff_of_true hrecords ⟨fun hall => hrecords ?_, hfirst⟩
        rw [hall] at hpre
        exact List.prefix_nil.mp hpre
  · have hrecords := hrun.records_eq
    rw [V5Send.pending, if_pos hj, List.append_nil] at hrecords
    refine ⟨st.numPackets, st.exported, st.net, ds, ?_, ?_, ?_⟩
    · rw [sendNetflowV5, hloop]
    · rw [hrun.net_eq]
    · rw [hrecords]
      refine ⟨fun hne => ⟨hne, ?_⟩, And.left⟩
      -- the records are in a datagram, and its `send` has succeeded
      refine hdelivers 0 (List.length_pos_of_ne_nil ?_)
      rintro rfl
      exact hne hrecords.symm

/-- **NetFlow v1 and v5 export the same flows only when there is nothing to export.** Outside
emulator mode the two functions, called as `check_expired` calls them, send the same records
exactly when no IPv4 flow has traffic or the first `send` of version 5 fails. -/
theorem dialects_agree_iff (now boot : Timeval) (asSrcArray asDstArray : Flow → UInt16)
    (flows : List Flow) (exported : UInt64) (ex : Exporter) :
    ∃ (r₁ r₅ : ℤ) (exported₁ exported₅ : UInt64) (net₁ net₅ : Net) (ds₁ : List Nf1Datagram)
      (ds₅ : List Nf5Datagram),
      sendNetflowV1 false now asSrcArray asDstArray flows exported boot (-1) ex =
        .ok (r₁, exported₁, { ex with net := net₁ }) ∧
      net₁.sent = ex.net.sent ++ ds₁.map Nf1Datagram.bytes ∧
      sendNetflowV5 false now flows exported boot (-1) ex =
        .ok (r₅, exported₅, { ex with net := net₅ }) ∧
      net₅.sent = ex.net.sent ++ ds₅.map Nf5Datagram.bytes ∧
      ((nf1Records ds₁).map Nf1Flow.report = (nf5Records ds₅).map Nf5Flow.report ↔
        ¬ HasTraffic flows ∨ ex.net.sendFails ex.net.attempts = true) := by
  obtain ⟨r₁, exported₁, net₁, hcall₁, hsent₁⟩ :=
    sendNetflowV1_silent false now asSrcArray asDstArray flows exported boot ex
  obtain ⟨r₅, exported₅, net₅, ds₅, hcall₅, hsent₅, hiff⟩ :=
    sendNetflowV5_sends_iff now boot (-1) flows exported ex
  refine ⟨r₁, r₅, exported₁, exported₅, net₁, net₅, [], ds₅, hcall₁, by simp [hsent₁], hcall₅,
    hsent₅, ?_⟩
  have hnone : (nf1Records []).map Nf1Flow.report = (nf5Records ds₅).map Nf5Flow.report ↔
      nf5Records ds₅ = [] := by
    rw [nf1Records, List.flatMap_nil, List.map_nil, eq_comm, List.map_eq_nil_iff]
  rw [hnone, ← not_iff_not, ← Ne, hiff, not_or, not_not, Bool.not_eq_true]

/-- A UDP flow with traffic in both directions: version 1 exports nothing, version 5 both
directions. -/
theorem dialects_disagree :
    let flow : Flow := { af := afInet, protocol := ipprotoUdp, octets := ![100, 40] }
    ∃ (net₁ net₅ : Net) (ds₁ : List Nf1Datagram) (ds₅ : List Nf5Datagram),
      sendNetflowV1 false {} (fun _ => 0) (fun _ => 0) [flow] 0 {} (-1) {} =
        .ok (0, 0, { net := net₁ }) ∧
      net₁.sent = ds₁.map Nf1Datagram.bytes ∧
      sendNetflowV5 false {} [flow] 0 {} (-1) {} = .ok (1, 2, { net := net₅ }) ∧
      net₅.sent = ds₅.map Nf5Datagram.bytes ∧
      (nf1Records ds₁).map Nf1Flow.report ≠ (nf5Records ds₅).map Nf5Flow.report := by
  intro flow
  let env : V5Env := ⟨false, {}, {}, -1⟩
  refine ⟨_, _, [], [⟨{ env.header 0 with flows := htons 2 }, [env.record flow 0, env.record flow 1]⟩],
    rfl, rfl, rfl, ?_, ?_⟩
  · decide +kernel
  · decide +kernel

end Softflowd
