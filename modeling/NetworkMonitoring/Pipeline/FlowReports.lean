import NetworkMonitoring.Estimation.Monitors
import NetworkMonitoring.Flowd.Filter
import NetworkMonitoring.Flowd.NetFlow1
import NetworkMonitoring.Flowd.StoreFields

/-!
# What the estimation is told about a flow

The reports of the estimation are filled in by `store_format_flow`, the function that writes a
record as text for the log. It puts each part of the record that it prints into a `flot_node` as
well, a local variable of `process_flow` that nothing has set before, and `process_flow` calls it
only when the collector is verbose.

* `storeFormatFlow_eq` gives the report: a part that the record does not have is what the variable
  held before.
* `storeFormatFlow_determined_iff` says when the report is determined by the record.
* `processFlows_determined_iff` is about the reports of a run. They do not depend on the option
  exactly when there is nothing to report.

The text that is built for the log is left out. `inet6Text` stands for `getnameinfo` on an IPv6
address. An address is copied into a block of the size of a pointer; `usable` is the number of bytes
that `malloc` makes usable for it.
-/

namespace Flowd

open Bytes CText InetText Estimation OptionalFields

/-- `FLOWD_OPT_VERBOSE`. -/
def flowdOptVerbose : UInt32 := (1 : UInt32) <<< (1 : UInt32)

/-- `STORE_DISPLAY_ALL`. -/
def storeDisplayAll : UInt32 := storeFieldAll

section
variable (inet6Text : Xaddr → Text) (usable : ℕ)

/-- `addr_ntop_buf`; `none` is the NULL pointer. -/
def addrNtopBuf (a : Xaddr) : Option Text :=
  if a.af = afInet then some (inetNtoa a.v4)
  else if a.af = afInet6 then some (inet6Text a)
  else none

/-- A `strcpy` of the text of an address into a new block: `none` when it reads through the NULL
pointer or writes behind the block. -/
def copyAddress (a : Xaddr) : Option Text :=
  match addrNtopBuf inet6Text a with
  | none => none
  | some text => if text.length < usable then some text else none

/-- The statements of `store_format_flow` for one address: the text that the report has for it after
them, `old` being the one before. -/
def formatAddress (present : Bool) (a : Xaddr) (old : Text) : Option Text :=
  if present then copyAddress inet6Text usable a else some old

/-- `store_format_flow`, as far as it fills in the report; `none` when it goes wrong. -/
def storeFormatFlow (flow : StoreFlowComplete) (rf : Estimation.Report) (displayMask : UInt32)
    (hostorder : Bool) : Option Estimation.Report := do
  let fmtNtoh64 := if hostorder then id else storeHtonll
  let fmtNtoh32 := if hostorder then id else htonl
  let fmtNtoh16 := if hostorder then id else htons
  let fields := fmtNtoh32 flow.fields &&& displayMask
  let has := shasfield fields
  let hasAgent := has (.addr4 .agent) || has (.addr6 .agent)
  let hasSrc := has (.addr4 .src) || has (.addr6 .src)
  let hasDst := has (.addr4 .dst) || has (.addr6 .dst)
  let hasGateway := has (.addr4 .gateway) || has (.addr6 .gateway)
  let agentAddr ← formatAddress inet6Text usable hasAgent flow.agentAddr rf.agentAddr
  let srcAddr ← formatAddress inet6Text usable hasSrc flow.srcAddr rf.srcAddr
  let dstAddr ← formatAddress inet6Text usable hasDst flow.dstAddr rf.dstAddr
  let gatewayAddr ← formatAddress inet6Text usable hasGateway flow.gatewayAddr rf.gatewayAddr
  return {
    agentAddr := agentAddr
    srcAddr := srcAddr
    dstAddr := dstAddr
    gatewayAddr := gatewayAddr
    -- the ports are printed behind the addresses
    srcPort := if hasSrc && has .srcdstPort then fmtNtoh16 flow.srcPort else rf.srcPort
    dstPort := if hasDst && has .srcdstPort then fmtNtoh16 flow.dstPort else rf.dstPort
    flowPackets := if has .packets then fmtNtoh64 flow.flowPackets else rf.flowPackets
    flowOctets := if has .octets then fmtNtoh64 flow.flowOctets else rf.flowOctets
    protocol := if has .protoFlagsTos then flow.protocol else rf.protocol
    -- the AS numbers are taken as they stand in the record
    srcAs := if has .asInfo then flow.srcAs else rf.srcAs
    dstAs := if has .asInfo then flow.dstAs else rf.dstAs }

end

/-! ## The report -/

section
variable (inet6Text : Xaddr → Text) (usable : ℕ)

/-- The text of an address in a report. -/
def addressText (a : Xaddr) : Text := (copyAddress inet6Text usable a).getD []

/-- The report on a record whose parts are those that `has` tells: what the record does not have is
left as it is. -/
def reportOf (has : StoreField → Bool) (flow : StoreFlowComplete) (rf : Estimation.Report) :
    Estimation.Report :=
  let hasSrc := has (.addr4 .src) || has (.addr6 .src)
  let hasDst := has (.addr4 .dst) || has (.addr6 .dst)
  { agentAddr := if has (.addr4 .agent) || has (.addr6 .agent) then
      addressText inet6Text usable flow.agentAddr else rf.agentAddr
    srcAddr := if hasSrc then addressText inet6Text usable flow.srcAddr else rf.srcAddr
    dstAddr := if hasDst then addressText inet6Text usable flow.dstAddr else rf.dstAddr
    gatewayAddr := if has (.addr4 .gateway) || has (.addr6 .gateway) then
      addressText inet6Text usable flow.gatewayAddr else rf.gatewayAddr
    srcPort := if hasSrc && has .srcdstPort then htons flow.srcPort else rf.srcPort
    dstPort := if hasDst && has .srcdstPort then htons flow.dstPort else rf.dstPort
    flowPackets := if has .packets then storeHtonll flow.flowPackets else rf.flowPackets
    flowOctets := if has .octets then storeHtonll flow.flowOctets else rf.flowOctets
    protocol := if has .protoFlagsTos then flow.protocol else rf.protocol
    srcAs := if has .asInfo then flow.srcAs else rf.srcAs
    dstAs := if has .asInfo then flow.dstAs else rf.dstAs }

/-- The addresses that are copied have a text, and it fits. -/
structure AddressesFit (has : StoreField → Bool) (flow : StoreFlowComplete) : Prop where
  agent : (has (.addr4 .agent) || has (.addr6 .agent)) = true →
    (copyAddress inet6Text usable flow.agentAddr).isSome = true
  src : (has (.addr4 .src) || has (.addr6 .src)) = true →
    (copyAddress inet6Text usable flow.srcAddr).isSome = true
  dst : (has (.addr4 .dst) || has (.addr6 .dst)) = true →
    (copyAddress inet6Text usable flow.dstAddr).isSome = true
  gateway : (has (.addr4 .gateway) || has (.addr6 .gateway)) = true →
    (copyAddress inet6Text usable flow.gatewayAddr).isSome = true

/-- An address that fits is set when it is present. -/
theorem formatAddress_fit {present : Bool} {a : Xaddr}
    (h : present = true → (copyAddress inet6Text usable a).isSome = true) (old : Text) :
    formatAddress inet6Text usable present a old =
      some (if present then addressText inet6Text usable a else old) := by
  rw [formatAddress]
  cases present with
  | false => rfl
  | true =>
    obtain ⟨text, htext⟩ := Option.isSome_iff_exists.mp (h rfl)
    rw [if_pos rfl, if_pos rfl, addressText, htext, Option.getD_some]

/-- An address that is copied has a text that fits. -/
theorem formatAddress_some {present : Bool} {a : Xaddr} {old text : Text}
    (h : formatAddress inet6Text usable present a old = some text) (hp : present = true) :
    (copyAddress inet6Text usable a).isSome = true := by
  rw [formatAddress, if_pos hp] at h
  rw [h, Option.isSome_some]

/-- **The report on a record**: a part the record does not have is what the variable held before. -/
theorem storeFormatFlow_eq {flow : StoreFlowComplete}
    (h : AddressesFit inet6Text usable (shasfield (htonl flow.fields &&& storeDisplayAll)) flow)
    (rf : Estimation.Report) :
    storeFormatFlow inet6Text usable flow rf storeDisplayAll false =
      some (reportOf inet6Text usable (shasfield (htonl flow.fields &&& storeDisplayAll)) flow
        rf) := by
  simp only [storeFormatFlow, Bool.false_eq_true, if_false,
    formatAddress_fit inet6Text usable h.agent, formatAddress_fit inet6Text usable h.src,
    formatAddress_fit inet6Text usable h.dst, formatAddress_fit inet6Text usable h.gateway, Option.bind_eq_bind, Option.bind_some]
  rfl

/-- A call that goes well has copied addresses that fit. -/
theorem addressesFit_of_eq_some {flow : StoreFlowComplete} {rf out : Estimation.Report}
    (h : storeFormatFlow inet6Text usable flow rf storeDisplayAll false = some out) :
    AddressesFit inet6Text usable (shasfield (htonl flow.fields &&& storeDisplayAll)) flow := by
  simp only [storeFormatFlow, Bool.false_eq_true, if_false, Option.bind_eq_bind,
    Option.bind_eq_some_iff] at h
  obtain ⟨_, hagent, _, hsrc, _, hdst, _, hgateway, -⟩ := h
  exact ⟨formatAddress_some inet6Text usable hagent, formatAddress_some inet6Text usable hsrc,
    formatAddress_some inet6Text usable hdst, formatAddress_some inet6Text usable hgateway⟩

/-- The record has every part that a report is made of, and its addresses have texts that fit. -/
structure ReportComplete (has : StoreField → Bool) (flow : StoreFlowComplete) : Prop where
  protocol : has .protoFlagsTos = true
  agent : (has (.addr4 .agent) || has (.addr6 .agent)) = true
  src : (has (.addr4 .src) || has (.addr6 .src)) = true
  dst : (has (.addr4 .dst) || has (.addr6 .dst)) = true
  gateway : (has (.addr4 .gateway) || has (.addr6 .gateway)) = true
  ports : has .srcdstPort = true
  packets : has .packets = true
  octets : has .octets = true
  asInfo : has .asInfo = true
  fits : AddressesFit inet6Text usable has flow

/-- What takes either of two values can only be determined when it is set. -/
theorem eq_true_of_ite_eq {α : Type} {b : Bool} {x y z : α}
    (h : (if b = true then x else y) = if b = true then x else z) (hne : y ≠ z) : b = true := by
  cases b with
  | false => exact absurd h hne
  | true => rfl

/-- **The report is determined by the record when the record has all its parts.** -/
theorem storeFormatFlow_determined_iff (flow : StoreFlowComplete) :
    (∃ out, ∀ rf, storeFormatFlow inet6Text usable flow rf storeDisplayAll false = some out) ↔
      ReportComplete inet6Text usable (shasfield (htonl flow.fields &&& storeDisplayAll)) flow := by
  constructor
  · rintro ⟨out, hout⟩
    -- two contents of the variable that differ in every part
    let rf : Estimation.Report := ⟨[], [], [], [], 0, 0, 0, 0, 0, 0, 0⟩
    let rf' : Estimation.Report := ⟨[0], [0], [0], [0], 1, 1, 1, 1, 1, 1, 1⟩
    have hfit := addressesFit_of_eq_some inet6Text usable (hout rf)
    have heq := Option.some.inj ((storeFormatFlow_eq inet6Text usable hfit rf).symm.trans
      ((hout rf).trans ((hout rf').symm.trans (storeFormatFlow_eq inet6Text usable hfit rf'))))
    have hport := eq_true_of_ite_eq (congrArg Estimation.Report.srcPort heq) (by decide)
    rw [Bool.and_eq_true] at hport
    exact
      { protocol := eq_true_of_ite_eq (congrArg Estimation.Report.protocol heq) (by decide)
        agent := eq_true_of_ite_eq (congrArg Estimation.Report.agentAddr heq) (by decide)
        src := hport.1
        dst := eq_true_of_ite_eq (congrArg Estimation.Report.dstAddr heq) (by decide)
        gateway := eq_true_of_ite_eq (congrArg Estimation.Report.gatewayAddr heq) (by decide)
        ports := hport.2
        packets := eq_true_of_ite_eq (congrArg Estimation.Report.flowPackets heq) (by decide)
        octets := eq_true_of_ite_eq (congrArg Estimation.Report.flowOctets heq) (by decide)
        asInfo := eq_true_of_ite_eq (congrArg Estimation.Report.srcAs heq) (by decide)
        fits := hfit }
  · intro h
    refine ⟨reportOf inet6Text usable (shasfield (htonl flow.fields &&& storeDisplayAll)) flow
      ⟨[], [], [], [], 0, 0, 0, 0, 0, 0, 0⟩, fun rf => ?_⟩
    rw [storeFormatFlow_eq inet6Text usable h.fits]
    simp only [reportOf, h.protocol, h.agent, h.src, h.dst, h.gateway, h.ports, h.packets, h.octets,
      h.asInfo, Bool.and_self, if_true]

/-- The fields that a report is made of. -/
def reportFields : List StoreField :=
  [.protoFlagsTos, .addr4 .agent, .addr6 .agent, .addr4 .src, .addr6 .src, .addr4 .dst, .addr6 .dst,
    .addr4 .gateway, .addr6 .gateway, .srcdstPort, .packets, .octets, .asInfo]

/-- The records have the same addresses. -/
structure SameAddresses (flow flow' : StoreFlowComplete) : Prop where
  agent : flow'.agentAddr = flow.agentAddr
  src : flow'.srcAddr = flow.srcAddr
  dst : flow'.dstAddr = flow.dstAddr
  gateway : flow'.gatewayAddr = flow.gatewayAddr

theorem ReportComplete.congr {has has' : StoreField → Bool} {flow flow' : StoreFlowComplete}
    (hhas : ∀ flag ∈ reportFields, has flag = has' flag) (haddr : SameAddresses flow flow')
    (h : ReportComplete inet6Text usable has flow) :
    ReportComplete inet6Text usable has' flow' := by
  have hm : ∀ {flag}, flag ∈ reportFields → has' flag = has flag := fun hmem => (hhas _ hmem).symm
  have hgroup : ∀ g : AddrGroup, (has' (.addr4 g) || has' (.addr6 g)) =
      (has (.addr4 g) || has (.addr6 g)) := by
    intro g
    have h4 : .addr4 g ∈ reportFields := by cases g <;> decide
    have h6 : .addr6 g ∈ reportFields := by cases g <;> decide
    rw [hm h4, hm h6]
  exact
    { protocol := (hm (by decide)).trans h.protocol
      agent := (hgroup .agent).trans h.agent
      src := (hgroup .src).trans h.src
      dst := (hgroup .dst).trans h.dst
      gateway := (hgroup .gateway).trans h.gateway
      ports := (hm (by decide)).trans h.ports
      packets := (hm (by decide)).trans h.packets
      octets := (hm (by decide)).trans h.octets
      asInfo := (hm (by decide)).trans h.asInfo
      fits :=
        { agent := by rw [hgroup, haddr.agent]; exact h.fits.agent
          src := by rw [hgroup, haddr.src]; exact h.fits.src
          dst := by rw [hgroup, haddr.dst]; exact h.fits.dst
          gateway := by rw [hgroup, haddr.gateway]; exact h.fits.gateway } }

end

/-! ## Runs of the collector -/

section
variable {σ : Type} (localtime : ℕ → Tm) (inet6Text : Xaddr → Text) (usable : ℕ)
  (output : UInt32 → StoreFlowComplete → σ → Option σ)

/-- `struct flowd_config`, as far as `process_flow` reads it before the output. -/
structure ProcessConfig where
  opts : UInt32
  filterList : List FilterRule

/-- The start of `process_flow`: the flow as it is handed to the filter. -/
def prepareFlow (flow : StoreFlowComplete) : StoreFlowComplete :=
  { flow with
    fields := htonl flow.fields
    recvSec := htonl flow.recvSec
    recvUsec := htonl flow.recvUsec }

/-- The reports that `process_flow` hands to `Add_flow` for a record, `fl` being what the local
variable holds. -/
def reportFlow (conf : ProcessConfig) (fl : Estimation.Report) (flow : StoreFlowComplete) :
    Option (List Estimation.Report) :=
  if flow.srcAddr.af ≠ flow.dstAddr.af then some []
  else
    let filtered := filterFlow localtime (prepareFlow flow) conf.filterList
    if conf.opts &&& flowdOptVerbose ≠ 0 then
      (storeFormatFlow inet6Text usable filtered.flow fl storeDisplayAll false).map ([·])
    else some []

/-- `process_flow` on one record after the other: the reports that are handed to `Add_flow`. The
contents of the local variable at each call are `fl`. What follows in a call, the output of the
record, works on a state and may end the collector. -/
def processFlows (opts : UInt32) :
    List FilterRule → σ → (ℕ → Estimation.Report) → List StoreFlowComplete →
      Option (List Estimation.Report)
  | _, _, _, [] => some []
  | filterList, st, fl, flow :: rest =>
    if flow.srcAddr.af ≠ flow.dstAddr.af then
      processFlows opts filterList st (fun i => fl (i + 1)) rest
    else
      let filtered := filterFlow localtime (prepareFlow flow) filterList
      match reportFlow localtime inet6Text usable ⟨opts, filterList⟩ (fl 0) flow with
      | none => none
      | some reports =>
        let after :=
          if filtered.action = ffActionDiscard then some st else output opts filtered.flow st
        match after with
        | none => some reports
        | some st' =>
          (processFlows opts filtered.filter st' (fun i => fl (i + 1)) rest).map (reports ++ ·)

end

/-! ## Reports that are determined -/

theorem shasfield_all (fields : UInt32) (flag : StoreField) :
    shasfield (fields &&& storeDisplayAll) flag = shasfield fields flag := by
  rw [shasfield, shasfield, has, has, UInt32.and_assoc, storeDisplayAll, StoreField.all_and_mask]

/-- The tag is a field of its own. -/
theorem shasfield_tag (fields : UInt32) {flag : StoreField} (h : flag ≠ .tag) :
    shasfield (fields ||| storeFieldTag) flag = shasfield fields flag := by
  have htag : flag.mask.toBitVec &&& storeFieldTag.toBitVec = 0#32 :=
    congrArg UInt32.toBitVec (StoreField.mask_and_mask h)
  have hand : (fields ||| storeFieldTag) &&& flag.mask = fields &&& flag.mask := by
    apply UInt32.toBitVec_inj.mp
    simp only [UInt32.toBitVec_and, UInt32.toBitVec_or]
    rw [BitVec.and_comm, BitVec.and_or_distrib_left, htag, BitVec.or_zero, BitVec.and_comm]
  rw [shasfield, shasfield, has, has, hand]

section
variable {σ : Type} (localtime : ℕ → Tm) (inet6Text : Xaddr → Text) (usable : ℕ)
  (output : UInt32 → StoreFlowComplete → σ → Option σ)

/-- The filter hands on what a report is made of. -/
theorem filtered_same (conf : ProcessConfig) (flow : StoreFlowComplete) :
    SameAddresses flow (filterFlow localtime (prepareFlow flow) conf.filterList).flow ∧
      ∀ flag ∈ reportFields,
        shasfield (htonl (filterFlow localtime (prepareFlow flow) conf.filterList).flow.fields &&&
          storeDisplayAll) flag = shasfield flow.fields flag := by
  have htag : ∀ flag ∈ reportFields, flag ≠ .tag := by decide
  rcases filterFlow_flow localtime (prepareFlow flow) conf.filterList with hflow | ⟨tag, htagged⟩
  · rw [hflow]
    refine ⟨⟨rfl, rfl, rfl, rfl⟩, fun flag _ => ?_⟩
    rw [shasfield_all, prepareFlow, htonl_htonl]
  · have hagent := congrArg StoreFlowComplete.agentAddr htagged.rest
    have hsrc := congrArg StoreFlowComplete.srcAddr htagged.rest
    have hdst := congrArg StoreFlowComplete.dstAddr htagged.rest
    have hgateway := congrArg StoreFlowComplete.gatewayAddr htagged.rest
    refine ⟨⟨hagent, hsrc, hdst, hgateway⟩, fun flag hflag => ?_⟩
    rw [shasfield_all, htagged.fields, shasfield_tag _ (htag flag hflag), prepareFlow, htonl_htonl]

/-- The part of a verbose collector: the report is determined when there is none or when the record
is complete. -/
theorem reportFlow_determined_iff (conf : ProcessConfig) (hverbose : conf.opts &&& flowdOptVerbose ≠ 0)
    (flow : StoreFlowComplete) :
    (∃ reports, ∀ fl, reportFlow localtime inet6Text usable conf fl flow = some reports) ↔
      flow.srcAddr.af ≠ flow.dstAddr.af ∨
        ReportComplete inet6Text usable (shasfield flow.fields) flow := by
  by_cases haf : flow.srcAddr.af ≠ flow.dstAddr.af
  · refine iff_of_true ⟨[], fun fl => ?_⟩ (.inl haf)
    rw [reportFlow, if_pos haf]
  obtain ⟨haddr, hmask⟩ := filtered_same localtime conf flow
  have hdet := storeFormatFlow_determined_iff inet6Text usable
    (filterFlow localtime (prepareFlow flow) conf.filterList).flow
  have hreport : ∀ fl, reportFlow localtime inet6Text usable conf fl flow =
      (storeFormatFlow inet6Text usable
        (filterFlow localtime (prepareFlow flow) conf.filterList).flow fl storeDisplayAll
        false).map ([·]) := by
    intro fl
    rw [reportFlow, if_neg haf]
    exact if_pos hverbose
  simp only [hreport, haf, false_or]
  constructor
  · rintro ⟨reports, hreports⟩
    -- a report for every content of the variable, and the same one
    have hone : ∃ out, ∀ rf, storeFormatFlow inet6Text usable
        (filterFlow localtime (prepareFlow flow) conf.filterList).flow rf storeDisplayAll false =
          some out := by
      obtain ⟨out, -, hout⟩ := Option.map_eq_some_iff.mp (hreports ⟨[], [], [], [], 0, 0, 0, 0, 0, 0, 0⟩)
      refine ⟨out, fun rf => ?_⟩
      obtain ⟨out', hout', heq⟩ := Option.map_eq_some_iff.mp (hreports rf)
      rw [hout', List.singleton_inj.mp (heq.trans hout.symm)]
    have haddr' : SameAddresses (filterFlow localtime (prepareFlow flow) conf.filterList).flow flow :=
      ⟨haddr.agent.symm, haddr.src.symm, haddr.dst.symm, haddr.gateway.symm⟩
    exact (hdet.mp hone).congr inet6Text usable hmask haddr'
  · intro h
    obtain ⟨out, hout⟩ := hdet.mpr
      (h.congr inet6Text usable (fun m hm => (hmask m hm).symm) haddr)
    exact ⟨[out], fun fl => by rw [hout fl, Option.map_some]⟩

/-- A collector that is not verbose reports nothing. -/
theorem processFlows_quiet {opts : UInt32} (hquiet : opts &&& flowdOptVerbose = 0)
    (filterList : List FilterRule) (st : σ) (fl : ℕ → Estimation.Report)
    (flows : List StoreFlowComplete) :
    processFlows localtime inet6Text usable output opts filterList st fl flows = some [] := by
  induction flows generalizing filterList st fl with
  | nil => rfl
  | cons flow rest ih =>
    rw [processFlows]
    by_cases haf : flow.srcAddr.af ≠ flow.dstAddr.af
    · rw [if_pos haf, ih]
    · have hreport : reportFlow localtime inet6Text usable ⟨opts, filterList⟩ (fl 0) flow =
          some [] := by
        rw [reportFlow, if_neg haf, if_neg (not_not.mpr hquiet)]
      rw [if_neg haf]
      simp only [hreport]
      split
      · rfl
      · rw [ih, Option.map_some, List.nil_append]

/-- A verbose collector reports a flow, or goes wrong. -/
theorem processFlows_verbose {opts : UInt32} (hverbose : opts &&& flowdOptVerbose ≠ 0)
    (filterList : List FilterRule) (st : σ) (fl : ℕ → Estimation.Report) {flow : StoreFlowComplete}
    (haf : ¬ flow.srcAddr.af ≠ flow.dstAddr.af) (rest : List StoreFlowComplete) :
    processFlows localtime inet6Text usable output opts filterList st fl (flow :: rest) ≠
      some [] := by
  rw [processFlows, if_neg haf, reportFlow, if_neg haf, if_pos hverbose]
  dsimp only
  cases storeFormatFlow inet6Text usable
      (filterFlow localtime (prepareFlow flow) filterList).flow (fl 0) storeDisplayAll false with
  | none => simp
  | some out =>
    simp only [Option.map_some]
    split
    · simp
    · simp [Option.map_eq_some_iff]

/-- **The reports of a run are determined by its records exactly when there is nothing to
report.** -/
theorem processFlows_determined (filterList : List FilterRule) (st : σ)
    (flows : List StoreFlowComplete) :
    (∃ reports, ∀ opts fl,
        processFlows localtime inet6Text usable output opts filterList st fl flows =
          some reports) ↔
      ∀ flow ∈ flows, flow.srcAddr.af ≠ flow.dstAddr.af := by
  induction flows with
  | nil => exact iff_of_true ⟨[], fun _ _ => rfl⟩ (by simp)
  | cons flow rest ih =>
    rw [List.forall_mem_cons]
    by_cases haf : flow.srcAddr.af ≠ flow.dstAddr.af
    · -- the record is dropped
      rw [← ih]
      simp only [processFlows, if_pos haf]
      constructor
      · rintro ⟨reports, h⟩
        refine ⟨haf, reports, fun opts fl => ?_⟩
        exact h opts fun i => fl (i - 1)
      · rintro ⟨-, reports, h⟩
        exact ⟨reports, fun opts fl => h opts _⟩
    · refine iff_of_false ?_ fun h => haf h.1
      rintro ⟨reports, h⟩
      -- the quiet run reports nothing, the verbose one something
      let fl : ℕ → Estimation.Report := fun _ => ⟨[], [], [], [], 0, 0, 0, 0, 0, 0, 0⟩
      have hquiet := h 0 fl
      rw [processFlows_quiet localtime inet6Text usable output (by decide)] at hquiet
      have hverbose := h flowdOptVerbose fl
      rw [← hquiet] at hverbose
      exact processFlows_verbose localtime inet6Text usable output (by decide) filterList st fl haf
        rest hverbose

/-- **When the input of the estimation depends on the flows only.** The reports of a run are the
same with and without the option and for every content of the local variable exactly when no record
of the run is reported, the address families of each one being different. With the option set, the
report on a record is the same for every content exactly when there is none or when the record has
every part that a report is made of. -/
theorem flowReports_determined_iff (filterList : List FilterRule) (st : σ)
    (flows : List StoreFlowComplete) :
    ((∃ reports, ∀ opts fl,
        processFlows localtime inet6Text usable output opts filterList st fl flows =
          some reports) ↔
      ∀ flow ∈ flows, flow.srcAddr.af ≠ flow.dstAddr.af) ∧
    ∀ (conf : ProcessConfig) (flow : StoreFlowComplete), conf.opts &&& flowdOptVerbose ≠ 0 →
      ((∃ reports, ∀ fl, reportFlow localtime inet6Text usable conf fl flow = some reports) ↔
        flow.srcAddr.af ≠ flow.dstAddr.af ∨
          ReportComplete inet6Text usable (shasfield flow.fields) flow) :=
  ⟨processFlows_determined localtime inet6Text usable output filterList st flows,
    fun conf flow hverbose => reportFlow_determined_iff localtime inet6Text usable conf hverbose flow⟩

end

/-- A packet of format 1 with one record, from 1.1.1.1 to 2.2.2.2. -/
def oneRecordPacket : FlowPacket where
  flowSource := Xaddr.copy {} [9, 9, 9, 9] afInet
  packet := [0, 1, 0, 1] ++ List.replicate 16 0 ++ [1, 1, 1, 1, 2, 2, 2, 2] ++ List.replicate 44 0

/-- The decoder of format 1 leaves out the AS numbers, so the report on its record holds the AS
numbers that the local variable held before, and there is no report at all without the option. -/
theorem flowReports_undetermined_v1 :
    ∃ flow, decodeNetflowV1 0 oneRecordPacket = some [flow] ∧
      (¬ ∃ reports, ∀ fl, reportFlow (fun _ => ⟨0, 0, 0, 0⟩) (fun _ => []) 8
        ⟨flowdOptVerbose, []⟩ fl flow = some reports) ∧
      ¬ ∃ reports, ∀ opts fl, processFlows (fun _ => ⟨0, 0, 0, 0⟩) (fun _ => []) 8
        (fun _ _ _ => some ()) opts [] () fl [flow] = some reports := by
  refine ⟨_, rfl, ?_, ?_⟩
  · rw [reportFlow_determined_iff _ _ _ _ (by decide)]
    rintro (haf | hcomplete)
    · exact haf rfl
    · exact absurd hcomplete.asInfo (by decide)
  · rw [processFlows_determined]
    intro h
    exact h _ (List.mem_singleton.mpr rfl) rfl

end Flowd
