import NetworkMonitoring.Flowd.PrivsepMonitor

/-!
# flowd — configurations with descriptors, and from files

The monitor sends the listeners it has opened with their descriptors, and the client receives them
(`exists_transfers_opened`). What the monitor reads from a file is what the parser has made of it
(`readConfig_eq_ok_iff`): a configuration that cannot be sent is not read either.
-/

namespace Flowd.Privsep

open Bytes Receivers

variable {chunk : ℕ → ℕ}

/-! ## Descriptors -/

theorem length_sendFd (fd : Int32) : (sendFd fd).length = 5 := by
  simp [sendFd]

theorem run_skip_readInt (fd : Int32) : ((do skip 1; readInt).run (sendFd fd)).1 = fd := by
  have hbyte : sendFd fd = Slack.gap (fun _ => 0) 0 1 ++ (leInt fd ++ []) := by
    rw [List.append_nil]
    rfl
  rw [hbyte, StateT.run_bind, run_skip, pure_bind, run_readInt]
  rfl

theorem transfers_receiveFd (fd : Int32) : Transfers (receiveFd chunk) (sendFd fd) fd ∅ := by
  have h : Transfers (receiveFd chunk) (sendFd fd) ((do skip 1; readInt).run (sendFd fd)).1 ∅ :=
    (transfers_recvAll .exits (length_sendFd fd)).map _
  rwa [run_skip_readInt] at h

/-- The memory of a listening address, and its descriptor if it has one. -/
def ListenAddr.sent (slack : Slack) (la : ListenAddr) : List UInt8 :=
  la.memory slack ++ if la.fd ≠ -1 then sendFd la.fd else []

theorem writeListenAddrs_sent (slack : ℕ → Slack) (las : List ListenAddr) :
    writeListenAddrs (fun fd => .ok (sendFd fd)) slack las =
      .ok (writeElements ListenAddr.sent slack las) := by
  have hpieces : las.zipIdx.mapM (fun p => do
      let passed ← passFd (fun fd => .ok (sendFd fd)) p.1.fd
      return p.1.memory (slack p.2) ++ passed) =
        (.ok (las.zipIdx.map fun p => p.1.sent (slack p.2)) : Except Stop _) := by
    refine ErrorLoops.mapM_eq_ok fun p _ => ?_
    rw [passFd, ListenAddr.sent]
    split <;> rfl
  rw [writeListenAddrs, hpieces, writeElements, List.flatMap_def]
  rfl

/-- A listening address is read with its descriptor. -/
theorem transfers_listenAddr_sent (la : ListenAddr) (slack : Slack) :
    Transfers (recvListenAddr chunk (receiveFd chunk)) (la.sent slack) la ∅ := by
  rw [recvListenAddr, ListenAddr.sent]
  refine (transfers_recvVar (la.length_memory slack) (la.run_read slack)).bind_strict ?_
  by_cases hfd : la.fd = -1
  · rw [if_neg (not_not.mpr hfd), if_neg (not_not.mpr hfd)]
    exact Transfers.pure la
  · -- the descriptor that is received takes the place of the number in the memory
    rw [if_pos hfd, if_pos hfd]
    have hread : Transfers (do
        let fd ← receiveFd chunk
        if fd = -1 then throw Stop.fails else return { la with fd := fd })
          (sendFd la.fd ++ []) la ∅ :=
      (transfers_receiveFd la.fd).bind_strict (by rw [if_neg hfd]; exact Transfers.pure la)
    rwa [List.append_nil] at hread

/-- A configuration with open listeners is sent, and received with the descriptors. -/
theorem exists_transfers_opened (chunk : ℕ → ℕ) (mem : SenderMemory) {conf : FlowdConfig}
    (h : conf.Sendable) {las : List ListenAddr} (hlen : las.length = conf.listenAddrs.length) :
    ∃ sent, sendConfig (fun fd => .ok (sendFd fd)) mem { conf with listenAddrs := las } =
        .ok sent ∧
      Transfers (recvNewconf chunk (receiveFd chunk)) sent { conf with listenAddrs := las } ∅ := by
  obtain ⟨pidFile, hpid, hfits⟩ := h.pid_file
  have hle := h.listen_addrs.2
  have hwrite := writeListenAddrs_sent mem.listenAddrs las
  have hsend := @sendConfig_of_listens (fun fd => .ok (sendFd fd)) mem
    { conf with listenAddrs := las } h.log_file h.log_socket pidFile hpid hfits _ hwrite
  refine ⟨_, hsend, transfers_recvNewconf_of_listens mem h hpid hfits ?_⟩
  have hcount : las.length < 2 ^ 32 := by omega
  exact transfers_recvList hcount (hlen ▸ sillyListens_eq_false h.listen_addrs)
    fun la _ slack => transfers_listenAddr_sent la slack

/-! ## Receiving -/

/-- `recv_config` on what it can read. -/
theorem exec_recvConfig {receiveFd : Recv Int32} {sent : List UInt8} {conf : FlowdConfig}
    (h : Transfers (recvNewconf chunk receiveFd) sent conf ∅) (rest : List UInt8) (s : Collector) :
    (recvConfig chunk receiveFd).exec (sent ++ rest) s = (.ok 0, (rest, replaceConf s conf)) := by
  rw [recvConfig, Receiver.exec_bind_ok (h.takes rest s)]
  rfl

/-- A configuration without descriptors is read as it has been sent. -/
theorem exec_recvConfig_sent {mem : SenderMemory} {conf : FlowdConfig} (h : conf.Sendable)
    {sendFd : Int32 → Except Stop (List UInt8)} {sent : List UInt8}
    (hsend : sendConfig sendFd mem conf = .ok sent) (chunk : ℕ → ℕ) (receiveFd : Recv Int32)
    (s : Collector) :
    (recvConfig chunk receiveFd).exec sent s = (.ok 0, ([], replaceConf s conf)) := by
  obtain ⟨pidFile, hpid, hfits⟩ := h.pid_file
  have htransfers : Transfers (recvNewconf chunk receiveFd) (conf.sent mem pidFile) conf ∅ :=
    transfers_recvNewconf receiveFd mem h hpid hfits
  have hrun := exec_recvConfig htransfers [] s
  rw [sendConfig_eq sendFd mem h hpid hfits] at hsend
  rw [List.append_nil, Except.ok.inj hsend] at hrun
  exact hrun

/-- On a part of it, it stops. -/
theorem exec_recvConfig_prefix {receiveFd : Recv Int32} {input rest : List UInt8}
    {conf : FlowdConfig} (h : Transfers (recvNewconf chunk receiveFd) (input ++ rest) conf ∅)
    (hrest : rest ≠ []) (s : Collector) :
    ∃ stop out, (recvConfig chunk receiveFd).exec input s = (.error stop, out) := by
  have hlt : input.length < (input ++ rest).length := by
    rw [List.length_append]
    have := List.length_pos_iff.mpr hrest
    omega
  -- `recvNewconf` stops, and so does what follows it
  have hhalts : Halts (recvConfig chunk receiveFd) ((input ++ rest).take input.length) :=
    (h.halts hlt).bind _
  rw [List.take_left' rfl] at hhalts
  obtain ⟨stop, left, hrun⟩ := hhalts s
  exact ⟨stop, _, hrun⟩

/-! ## The configuration file -/

/-- A number of elements that is read is not silly. -/
theorem silly_eq_false_of_exec {α β : Type} {silly : ℕ → Bool} {element : Recv α}
    {f : List α → Recv β} {xs : List α} (hn : xs.length < 2 ^ 32) {rest : List UInt8}
    {s : Collector} {b : β} {out : List UInt8 × Collector}
    (h : (recvList chunk silly element >>= f).exec (writeCount xs ++ rest) s = (.ok b, out)) :
    silly xs.length = false := by
  by_contra hsilly
  rw [Bool.not_eq_false] at hsilly
  have hread : (recvVar chunk 4 read32).exec (writeCount xs ++ rest) s =
      (.ok (UInt32.ofNat xs.length), (rest, s)) :=
    (transfers_recvVar (length_le32 _) (run_read32_le32 _)).takes rest s
  have hcount : (recvCount chunk silly).exec (writeCount xs ++ rest) s =
      (.error .fails, (rest, s)) := by
    rw [recvCount, Receiver.exec_bind_ok hread, UInt32.toNat_ofNat_of_lt' hn, if_pos hsilly,
      Receiver.exec_throw]
  have hlist : (recvList chunk silly element).exec (writeCount xs ++ rest) s =
      (.error .fails, (rest, s)) := Receiver.exec_bind_error _ hcount
  rw [Receiver.exec_bind_error f hlist] at h
  cases congrArg Prod.fst h

theorem fits_of_privsepWriteString {s : CString} {nullok : Bool} {bs : List UInt8}
    (h : privsepWriteString (some s) nullok = .ok bs) (hlen : s.bytes.length < 8096) : s.Fits := by
  rw [privsepWriteString] at h
  split at h
  · cases h
  · rename_i hpos
    exact ⟨List.length_pos_iff.mp (by omega), by omega⟩

theorem sillyListens_bounds {n : ℕ} (h : (fun n : ℕ => n == 0 || n > 8192) n = false) :
    1 ≤ n ∧ n ≤ 8192 := by
  simp only [Bool.or_eq_false_iff, beq_eq_false_iff_ne, decide_eq_false_iff_not] at h
  omega

theorem sillyList_bound {n : ℕ} (h : sillyList n = false) : n ≤ 2 ^ 20 := by
  simp only [sillyList, decide_eq_false_iff_not] at h
  omega

namespace ParsedConfig

variable {p : ParsedConfig} {mem : SenderMemory} {sent : List UInt8}

/-- The strings of a configuration that is sent have lengths that can be sent. -/
theorem fits_of_sendConfig
    (h : sendConfig (fun _ => .error .exits) mem p.toFlowdConfig = .ok sent) :
    (∀ s ∈ p.logFile, s.Fits) ∧ (∀ s ∈ p.logSocket, s.Fits) ∧
      ∃ s, p.pidFile = some s ∧ s.Fits := by
  rw [sendConfig] at h
  obtain ⟨logFile, hlog, h⟩ := ErrorLoops.bind_eq_ok.mp h
  obtain ⟨logSocket, hsock, h⟩ := ErrorLoops.bind_eq_ok.mp h
  obtain ⟨pidFile, hpid, -⟩ := ErrorLoops.bind_eq_ok.mp h
  obtain ⟨name, hname⟩ := Option.ne_none_iff_exists'.mp p.pid_file
  refine ⟨fun s hs => ?_, fun s hs => ?_, name, hname, ?_⟩
  · rw [Option.mem_def.mp hs] at hlog
    exact fits_of_privsepWriteString hlog (p.strings s (.inl hs))
  · rw [Option.mem_def.mp hs] at hsock
    exact fits_of_privsepWriteString hsock (p.strings s (.inr (.inl hs)))
  · rw [hname] at hpid
    exact fits_of_privsepWriteString hpid (p.strings name (.inr (.inr hname)))

/-- A configuration that is sent and read has no list that is too long. -/
theorem sendable_of_exec (h : sendConfig (fun _ => .error .exits) mem p.toFlowdConfig = .ok sent)
    {receiveFd : Recv Int32} {st : Collector} {conf : FlowdConfig} {out : List UInt8 × Collector}
    (hread : (recvNewconf chunk receiveFd).exec sent st = (.ok conf, out)) :
    p.toFlowdConfig.Sendable := by
  obtain ⟨hlog, hsock, pidFile, hpid, hfits⟩ := fits_of_sendConfig h
  have hvar64 : ∀ v : UInt64, Transfers (recvVar chunk 8 read64) (le64 v) v ∅ :=
    fun v => transfers_recvVar (length_le64 v) (run_read64_le64 v)
  have hvar32 : ∀ v : UInt32, Transfers (recvVar chunk 4 read32) (le32 v) v ∅ :=
    fun v => transfers_recvVar (length_le32 v) (run_read32_le32 v)
  obtain ⟨hlistens, hfilters, hdevices, hgroups⟩ := p.counted
  rw [sendConfig_of_listens mem hlog hsock hpid hfits
    (writeListenAddrs_eq _ mem.listenAddrs p.no_descriptors)] at h
  obtain rfl := Except.ok.inj h
  rw [recvNewconf, FlowdConfig.sentAround,
    Receiver.exec_bind_ok ((transfers_nullok hlog).takes _ _),
    Receiver.exec_bind_ok ((transfers_nullok hsock).takes _ _),
    Receiver.exec_bind_ok ((hvar64 _).takes _ _),
    Receiver.exec_bind_ok ((transfers_recvPidFile hfits).takes _ _),
    Receiver.exec_bind_ok ((hvar32 _).takes _ _), Receiver.exec_bind_ok ((hvar32 _).takes _ _),
    List.append_assoc] at hread
  -- each of the four numbers has been accepted
  have hsilly := silly_eq_false_of_exec hlistens hread
  rw [← List.append_assoc, Receiver.exec_bind_ok ((transfers_recvList hlistens hsilly
    fun la hla slack => transfers_recvListenAddr receiveFd (p.no_descriptors la hla)
      slack).takes _ _), List.append_assoc] at hread
  have hfilterList := silly_eq_false_of_exec hfilters hread
  rw [← List.append_assoc, Receiver.exec_bind_ok ((transfers_recvList hfilters hfilterList
    fun fr _ slack => transfers_recvVar (fr.length_memory slack) (fr.run_read slack)).takes _ _),
    List.append_assoc] at hread
  have hallowed := silly_eq_false_of_exec hdevices hread
  rw [← List.append_assoc, Receiver.exec_bind_ok ((transfers_recvList hdevices hallowed
    fun ad _ slack => transfers_recvVar (ad.length_memory slack) (ad.run_read slack)).takes _ _)]
    at hread
  have hjoin := silly_eq_false_of_exec hgroups hread
  exact {
    log_file := hlog
    log_socket := hsock
    pid_file := ⟨pidFile, hpid, hfits⟩
    listen_addrs := sillyListens_bounds hsilly
    no_descriptors := p.no_descriptors
    filter_list := sillyList_bound hfilterList
    allowed_devices := sillyList_bound hallowed
    join_groups := sillyList_bound hjoin }

end ParsedConfig

/-- What `read_config` returns is what the parser has accepted, with the options that are kept, and
it can be sent. -/
theorem sendable_of_readConfig {mem : SenderMemory} {parsed : Option ParsedConfig} {opts : UInt32}
    {conf : FlowdConfig} (h : readConfig chunk mem parsed opts = .ok conf) :
    conf.Sendable ∧ ∃ p : ParsedConfig, parsed = some p ∧
      conf = { p.toFlowdConfig with opts := p.opts ||| (opts &&& keptOpts) } := by
  obtain ⟨c, hc, h⟩ := ErrorLoops.bind_eq_ok.mp h
  obtain rfl := Except.ok.inj h
  cases parsed with
  | none => cases hc
  | some p =>
    rw [childGetConfig] at hc
    cases hsend : sendConfig (fun _ => .error .exits) mem p.toFlowdConfig with
    | error stop =>
      rw [hsend] at hc
      cases hc
    | ok sent =>
      have hsendable : p.toFlowdConfig.Sendable := by
        cases hread : (recvNewconf chunk (throw .exits)).exec sent { conf := {} } with
        | mk res out =>
          cases res with
          | ok conf => exact ParsedConfig.sendable_of_exec hsend hread
          | error stop =>
            have hstop : (recvConfig chunk (throw .exits)).exec sent { conf := {} } =
                (.error stop, out) := Receiver.exec_bind_error _ hread
            rw [hsend] at hc
            simp only [hstop] at hc
            cases hc
      -- now what has been sent is what is read
      have hrun := exec_recvConfig_sent hsendable hsend chunk (throw .exits) { conf := {} }
      rw [hsend] at hc
      simp only [hrun, replaceConf_eq] at hc
      obtain rfl := Except.ok.inj hc
      exact ⟨{ hsendable with }, p, rfl, rfl⟩

/-- What can be sent is read. -/
theorem readConfig_of_sendable (chunk : ℕ → ℕ) (mem : SenderMemory) {p : ParsedConfig}
    (h : p.toFlowdConfig.Sendable) (opts : UInt32) :
    readConfig chunk mem (some p) opts =
      .ok { p.toFlowdConfig with opts := p.opts ||| (opts &&& keptOpts) } := by
  obtain ⟨pidFile, hpid, hfits⟩ := h.pid_file
  have hsend := sendConfig_eq (fun _ => .error .exits) mem h hpid hfits
  have hrun := exec_recvConfig_sent h hsend chunk (throw .exits) { conf := {} }
  have hchild : childGetConfig chunk mem (some p) = .ok p.toFlowdConfig := by
    simp only [childGetConfig, hsend, hrun, replaceConf_eq]
  rw [readConfig, hchild]
  rfl

/-- **The monitor takes the configurations that can be sent.** It takes what the parser has made of
the file when it has its way through the socket between the two, and adds the options that are kept
from before. -/
theorem readConfig_eq_ok_iff {mem : SenderMemory} {parsed : Option ParsedConfig} {opts : UInt32}
    {conf : FlowdConfig} : readConfig chunk mem parsed opts = .ok conf ↔
      ∃ p : ParsedConfig, parsed = some p ∧ p.toFlowdConfig.Sendable ∧
        conf = { p.toFlowdConfig with opts := p.opts ||| (opts &&& keptOpts) } := by
  constructor
  · intro h
    obtain ⟨hsendable, p, rfl, rfl⟩ := sendable_of_readConfig h
    exact ⟨p, rfl, { hsendable with }, rfl⟩
  · rintro ⟨p, rfl, hsendable, rfl⟩
    exact readConfig_of_sendable chunk mem hsendable opts

end Flowd.Privsep
