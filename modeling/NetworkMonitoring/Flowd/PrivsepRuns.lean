import NetworkMonitoring.Flowd.PrivsepDescriptors

/-!
# flowd — the runs of the monitor and the collector

What holds of the two processes, whatever their order is and however the reading, the opening and
the sending of a configuration come out.

* `Talk` are the phases of their conversation, and `Inv` is what every step keeps.

## Main results

* `monitor_agrees`: in its main loop the client has the configuration of the monitor, besides the
  counters of the filter rules, nothing is on its way, and the monitor is asked only for what it has
  a name for;
* `listeners_open`: the client has one socket open for each listening address, which has joined the
  groups of the configuration before, and none while the monitor opens those of the next one;
* `pidFiles_iff`: the files with the process id that are there are those of all configurations, up
  to the last one at the end.
-/

namespace Flowd.Privsep

open Bytes Receivers

variable {chunk : ℕ → ℕ} {mem : SenderMemory}

/-! ## Configurations and their listeners -/

namespace FlowdConfig

variable {conf : FlowdConfig} {fds : List Int32}

/-- The listeners have the descriptors that have been opened for them. -/
theorem fds_opened (h : fds.length = conf.listenAddrs.length) :
    (conf.opened fds).listenAddrs.map ListenAddr.fd = fds := by
  rw [opened, List.map_map]
  exact List.map_snd_zip h.le

/-- What a configuration has a name for does not depend on the counters. -/
theorem logName_uncounted (conf : FlowdConfig) (r : Request) :
    conf.uncounted.logName r = conf.logName r := by
  cases r <;> rfl

end FlowdConfig

/-- A receiver that comes to its end on the first tokens of a message has read all of it. -/
theorem eq_of_exec_ok {α : Type} {x : Recv α} {input more rest : List UInt8} {a a' : α}
    {s s' : Collector} (h : Transfers x (input ++ more) a ∅)
    (hx : x.exec input s = (.ok a', (rest, s'))) : more = [] ∧ a' = a ∧ rest = [] ∧ s' = s := by
  by_cases hmore : more = []
  · subst hmore
    have hrun := h.takes [] s
    rw [List.append_nil, List.append_nil, hx] at hrun
    obtain ⟨ha, hrest⟩ := Prod.mk.inj hrun
    obtain ⟨hrest, hs⟩ := Prod.mk.inj hrest
    exact ⟨rfl, Except.ok.inj ha, hrest, hs⟩
  · -- a part of the message makes it stop
    have hlt : input.length < (input ++ more).length := by
      have := List.length_pos_iff.mpr hmore
      rw [List.length_append]
      omega
    obtain ⟨stop, left, hstop⟩ := h.halts hlt s
    rw [List.take_left' rfl, hx] at hstop
    cases congrArg Prod.fst hstop

/-- `recv_config` that comes to its end has read all of the configuration. -/
theorem eq_of_exec_recvConfig {receiveFd : Recv Int32} {input more rest : List UInt8}
    {conf : FlowdConfig} {ret : ℤ} {s s' : Collector}
    (h : Transfers (recvNewconf chunk receiveFd) (input ++ more) conf ∅)
    (hx : (recvConfig chunk receiveFd).exec input s = (.ok ret, (rest, s'))) :
    more = [] ∧ rest = [] ∧ s'.conf = conf := by
  by_cases hmore : more = []
  · subst hmore
    rw [List.append_nil] at h
    have hrun := exec_recvConfig h [] s
    rw [List.append_nil, hx] at hrun
    obtain ⟨hrest, hs⟩ := Prod.mk.inj (Prod.mk.inj hrun).2
    exact ⟨rfl, hrest, by rw [hs, replaceConf_eq]⟩
  · obtain ⟨stop, out, hstop⟩ := exec_recvConfig_prefix h hmore s
    rw [hx] at hstop
    cases congrArg Prod.fst hstop

/-! ## Numbers on the socket -/

/-- Different numbers have different bytes. -/
theorem le32_inj {v w : UInt32} (h : le32 v = le32 w) : v = w := by
  rw [← run_read32_le32 v, h, run_read32_le32]

/-- What stands behind a number is determined. -/
theorem le32_append_inj {v w : UInt32} {bs cs : List UInt8} (h : le32 v ++ bs = le32 w ++ cs) :
    v = w ∧ bs = cs := by
  obtain ⟨hvw, hrest⟩ := List.append_inj h ((length_le32 v).trans (length_le32 w).symm)
  exact ⟨le32_inj hvw, hrest⟩

namespace Request

/-- The requests have different numbers. -/
theorem msg_inj {r r' : Request} (h : r.msg = r'.msg) : r = r' := by
  cases r <;> cases r' <;> first | rfl | exact absurd h (by decide)

/-- A request has bytes. -/
theorem bytes_ne_nil (r : Request) : r.bytes ≠ [] := by
  intro h
  have hlen := length_le32 r.msg
  rw [show le32 r.msg = [] from h] at hlen
  cases hlen

/-- The bytes of a request are those of no longer one. -/
theorem bytes_append_inj {r r' : Request} {rest : List UInt8} (h : r.bytes = r'.bytes ++ rest) :
    r = r' ∧ rest = [] := by
  rw [← List.append_nil r.bytes] at h
  obtain ⟨hmsg, hrest⟩ := le32_append_inj h
  exact ⟨msg_inj hmsg, hrest.symm⟩

end Request

/-! ## The conversation -/

namespace System

variable {s t : System}

/-- The monitor has not exited. -/
def Runs (s : System) : Prop := ∀ unlinked, s.monitor ≠ .exited unlinked

/-- What the monitor has still to write. -/
def pending (s : System) : List UInt8 :=
  match s.monitor with
  | .writes rest _ => rest
  | _ => []

/-- The answer as far as the client has not read it. -/
def answer (s : System) : List UInt8 := s.toClient ++ s.pending

/-- The configuration that the monitor has, or will have as soon as it has sent it. -/
def next (s : System) : FlowdConfig :=
  match s.monitor with
  | .writes _ (some newconf) => newconf.closed
  | _ => s.conf

/-- The configurations before that one. -/
def previous (s : System) : List FlowdConfig :=
  match s.monitor with
  | .writes _ (some _) => s.conf :: s.older
  | _ => s.older

/-- The groups that its listeners have been asked to join: those of the configuration before. -/
def joined (s : System) : List JoinGroup := (s.previous.headD s.next).joinGroups

/-- A configuration with descriptors and counters that is the one of the monitor. -/
structure Agrees (s : System) (conf : FlowdConfig) : Prop where
  closed : conf.closed.uncounted = s.next.uncounted
  sockets : s.sockets = conf.listeners s.joined
  nodup : (conf.listenAddrs.map ListenAddr.fd).Nodup
  valid : -1 ∉ conf.listenAddrs.map ListenAddr.fd

/-- Where the two are in their conversation. -/
inductive Talk (chunk : ℕ → ℕ) (s : System) : Prop
  | rest : s.client = .loops → s.toMonitor = [] → s.answer = [] → s.Agrees s.collector.conf →
      Talk chunk s
  | asksLog {r : Request} : s.client = .awaits r → r ≠ .reconfigure → s.toMonitor = r.bytes →
      s.answer = [] → s.Agrees s.collector.conf → Talk chunk s
  | getsLog {r : Request} {fd : Int32} : s.client = .awaits r → r ≠ .reconfigure →
      s.toMonitor = [] → s.answer = sendFd fd → fd ≠ -1 → s.Agrees s.collector.conf → Talk chunk s
  | asksConfig : s.client = .awaits .reconfigure → s.toMonitor = Request.reconfigure.bytes →
      s.answer = [] → s.sockets = [] → Talk chunk s
  | getsOk {conf : FlowdConfig} {sent : List UInt8} : s.client = .awaits .reconfigure →
      s.toMonitor = [] → s.answer = le32 1 ++ sent →
      Transfers (recvNewconf chunk (receiveFd chunk)) sent conf ∅ → s.Agrees conf → Talk chunk s
  | getsConfig {conf : FlowdConfig} : s.client = .receives → s.toMonitor = [] →
      Transfers (recvNewconf chunk (receiveFd chunk)) s.answer conf ∅ → s.Agrees conf →
      Talk chunk s
  | isRefused : s.client = .awaits .reconfigure → s.toMonitor = [] → s.answer = le32 0 →
      Talk chunk s

/-- The conversation goes on where nothing has changed that it is about. -/
theorem Talk.congr (h : s.Talk chunk) (hclient : t.client = s.client)
    (hmonitor : t.toMonitor = s.toMonitor) (hanswer : t.answer = s.answer)
    (hcollector : t.collector = s.collector) (hsockets : t.sockets = s.sockets)
    (hnext : t.next = s.next) (hjoined : t.joined = s.joined) : t.Talk chunk := by
  have hagrees : ∀ {conf : FlowdConfig}, s.Agrees conf → t.Agrees conf := fun ha =>
    ⟨by rw [ha.closed, hnext], by rw [hsockets, ha.sockets, hjoined], ha.nodup, ha.valid⟩
  cases h with
  | rest hat hto hans ha =>
    exact .rest (hclient.trans hat) (hmonitor.trans hto) (hanswer.trans hans)
      (hcollector ▸ hagrees ha)
  | asksLog hat hr hto hans ha =>
    exact .asksLog (hclient.trans hat) hr (hmonitor.trans hto) (hanswer.trans hans)
      (hcollector ▸ hagrees ha)
  | getsLog hat hr hto hans hfd ha =>
    exact .getsLog (hclient.trans hat) hr (hmonitor.trans hto) (hanswer.trans hans) hfd
      (hcollector ▸ hagrees ha)
  | asksConfig hat hto hans hnone =>
    exact .asksConfig (hclient.trans hat) (hmonitor.trans hto) (hanswer.trans hans)
      (hsockets.trans hnone)
  | getsOk hat hto hans htransfers ha =>
    exact .getsOk (hclient.trans hat) (hmonitor.trans hto) (hanswer.trans hans) htransfers
      (hagrees ha)
  | getsConfig hat hto htransfers ha =>
    exact .getsConfig (hclient.trans hat) (hmonitor.trans hto) (hanswer ▸ htransfers) (hagrees ha)
  | isRefused hat hto hans =>
    exact .isRefused (hclient.trans hat) (hmonitor.trans hto) (hanswer.trans hans)

/-- What holds of the two processes, whatever their order is. -/
structure Inv (chunk : ℕ → ℕ) (s : System) : Prop where
  talk : s.Runs → s.client ≠ .exited → s.Talk chunk
  requests : s.Runs → s.toMonitor = [] ∨
    ∃ r : Request, s.toMonitor = r.bytes ∧ (r ≠ .reconfigure → s.next.logName r ≠ none)

/-- The client that has asked for something has got nothing yet. -/
theorem Talk.asks (h : s.Talk chunk) (hto : s.toMonitor ≠ []) :
    ∃ r : Request, s.client = .awaits r ∧ s.toMonitor = r.bytes ∧ s.answer = [] ∧
      (r ≠ .reconfigure → s.Agrees s.collector.conf) ∧ (r = .reconfigure → s.sockets = []) := by
  cases h with
  | rest _ hnil | getsLog _ _ hnil | getsOk _ hnil | getsConfig _ hnil | isRefused _ hnil =>
    exact absurd hnil hto
  | asksLog hat hr hto hans ha => exact ⟨_, hat, hto, hans, fun _ => ha, fun h => absurd h hr⟩
  | asksConfig hat hto hans hnone =>
    exact ⟨_, hat, hto, hans, fun h => absurd rfl h, fun _ => hnone⟩

/-- Without an answer nothing is on its way to the collector. -/
theorem toClient_eq_nil (h : s.answer = []) : s.toClient = [] := (List.append_eq_nil_iff.mp h).1

/-- A monitor that is in its loop runs. -/
theorem runs_of_monitor {at' : MonitorAt} (hat : s.monitor = at')
    (h : ∀ unlinked, at' ≠ .exited unlinked) : s.Runs := fun unlinked => hat ▸ h unlinked

/-- A monitor that waits for a request has nothing to answer. -/
theorem pending_of_reads (hat : s.monitor = .reads) : s.pending = [] := by
  rw [pending, hat]

namespace Inv

/-- Behind the end of the monitor nothing is left to say. -/
theorem of_exited (h : ¬ s.Runs) : s.Inv chunk :=
  ⟨fun hruns => absurd hruns h, fun hruns => absurd hruns h⟩

/-- A request is all there is to read. -/
theorem request (h : s.Inv chunk) (hruns : s.Runs) {r : Request} {rest : List UInt8}
    (hto : s.toMonitor = r.bytes ++ rest) :
    rest = [] ∧ (r ≠ .reconfigure → s.next.logName r ≠ none) := by
  rcases h.requests hruns with hnil | ⟨r', hto', hname⟩
  · rw [hto] at hnil
    exact absurd (List.append_eq_nil_iff.mp hnil).1 r.bytes_ne_nil
  · obtain ⟨rfl, hrest⟩ := Request.bytes_append_inj (hto'.symm.trans hto)
    exact ⟨hrest, hname⟩

/-- The client that asks a request waits for its answer. -/
theorem asks (h : s.Inv chunk) (hruns : s.Runs) (hclient : s.client ≠ .exited) {r : Request}
    {rest : List UInt8} (hto : s.toMonitor = r.bytes ++ rest) :
    s.client = .awaits r ∧ s.answer = [] ∧ (r ≠ .reconfigure → s.Agrees s.collector.conf) ∧
      (r = .reconfigure → s.sockets = []) := by
  have hne : s.toMonitor ≠ [] := by
    rw [hto]
    exact fun hnil => r.bytes_ne_nil (List.append_eq_nil_iff.mp hnil).1
  obtain ⟨r', hat, hto', hans, hagrees, hnone⟩ := (h.talk hruns hclient).asks hne
  obtain ⟨rfl, -⟩ := Request.bytes_append_inj (hto'.symm.trans hto)
  exact ⟨hat, hans, hagrees, hnone⟩

/-- The steps of the monitor keep the invariant. -/
theorem monitor (h : s.Inv chunk) (hstep : s.MonitorStep chunk mem t) : t.Inv chunk := by
  cases hstep with
  | logFails | logExits | sendStops | readExits | writeFails | pidFileFails | refused | eof =>
    exact of_exited fun hruns => hruns _ rfl
  | @passLog r rest fd hat hto hname hfd =>
    have hruns := runs_of_monitor hat (by simp)
    -- there is no name for a new configuration
    have hr : r ≠ .reconfigure := by
      rintro rfl
      exact hname rfl
    refine ⟨fun _ hclient => ?_, fun _ => .inl (h.request hruns hto).1⟩
    obtain ⟨hasks, hans, hagrees, -⟩ := h.asks hruns hclient hto
    refine .getsLog hasks hr (h.request hruns hto).1 ?_ hfd ?_
    · change s.toClient ++ sendFd fd ++ s.pending = sendFd fd
      rw [toClient_eq_nil hans, pending_of_reads hat, List.append_nil]
      rfl
    · exact ⟨(hagrees hr).closed, (hagrees hr).sockets, (hagrees hr).nodup, (hagrees hr).valid⟩
  | @unknown what rest hat hto hwhat =>
    -- all that there is to read is a request
    have hruns := runs_of_monitor hat (by simp)
    rcases h.requests hruns with hnil | ⟨r, hto', -⟩
    · rw [hto] at hnil
      have hlen := length_le32 what
      rw [(List.append_eq_nil_iff.mp hnil).1] at hlen
      cases hlen
    · have heq : le32 r.msg ++ [] = le32 what ++ rest := by
        rw [List.append_nil, ← hto, hto']
        rfl
      exact absurd (le32_append_inj heq).1 (hwhat r)
  | @reconfigure rest sent parsed newconf fds hat hto hread hlen hfresh hsend =>
    -- what has been read can be sent with the descriptors
    have hruns := runs_of_monitor hat (by simp)
    have hsendable := (sendable_of_readConfig hread).1
    have hopened : (newconf.opened fds).listenAddrs.length = newconf.listenAddrs.length := by
      rw [← List.length_map, FlowdConfig.fds_opened hlen, hlen]
    obtain ⟨sent', hsend', htransfers⟩ := exists_transfers_opened chunk mem hsendable hopened
    obtain rfl := Except.ok.inj (hsend.symm.trans hsend')
    refine ⟨fun _ hclient => ?_, fun _ => .inl (h.request hruns hto).1⟩
    obtain ⟨hasks, hans, -, hnone⟩ := h.asks hruns hclient hto
    refine .getsOk hasks (h.request hruns hto).1 ?_ htransfers ?_
    · change s.toClient ++ (le32 1 ++ sent) = le32 1 ++ sent
      rw [toClient_eq_nil hans]
      rfl
    · refine ⟨rfl, ?_, ?_, ?_⟩
      · -- the client has closed its sockets
        change s.sockets ++ _ = _
        rw [hnone rfl]
        rfl
      · change ((newconf.opened fds).listenAddrs.map ListenAddr.fd).Nodup
        rw [FlowdConfig.fds_opened hlen]
        exact hfresh.nodup
      · change -1 ∉ (newconf.opened fds).listenAddrs.map ListenAddr.fd
        rw [FlowdConfig.fds_opened hlen]
        exact hfresh.valid
  | badConfig hat hto | badListener hat hto =>
    have hruns := runs_of_monitor hat (by simp)
    refine ⟨fun _ hclient => ?_, fun _ => .inl (h.request hruns hto).1⟩
    obtain ⟨hasks, hans, -, -⟩ := h.asks hruns hclient hto
    refine .isRefused hasks (h.request hruns hto).1 ?_
    change s.toClient ++ le32 0 = le32 0
    rw [toClient_eq_nil hans]
    rfl
  | @write bs rest newconf hbs hat =>
    -- what the monitor has written the client has still to read
    have hruns := runs_of_monitor hat (by simp)
    have hnext : next { s with monitor := .writes rest newconf, toClient := s.toClient ++ bs } =
        s.next := by
      simp only [next, hat]
      cases newconf <;> rfl
    have hprevious :
        previous { s with monitor := .writes rest newconf, toClient := s.toClient ++ bs } =
          s.previous := by
      simp only [previous, hat]
      cases newconf <;> rfl
    refine ⟨fun _ hclient => ?_, fun _ => hnext ▸ h.requests hruns⟩
    refine (h.talk hruns hclient).congr rfl rfl ?_ rfl rfl hnext ?_
    · simp only [answer, pending, hat, List.append_assoc]
    · rw [joined, joined, hprevious, hnext]
  | @replace newconf hat _ | @replacePidFile newconf hat _ =>
    -- the configuration that has been sent is the next one already
    have hruns := runs_of_monitor hat (by simp)
    have hnext : (s.replace newconf).next = s.next := by
      simp only [next, System.replace, hat, replaceConf_eq]
    have hprevious : (s.replace newconf).previous = s.previous := by
      simp only [previous, System.replace, hat]
    refine ⟨fun _ hclient => ?_, fun _ => (show _ = s.next from hnext) ▸ h.requests hruns⟩
    refine (h.talk hruns hclient).congr rfl rfl ?_ rfl rfl hnext ?_
    · simp only [answer, pending, System.replace, writePidFile, hat]
    · change ((s.replace newconf).previous.headD (s.replace newconf).next).joinGroups = s.joined
      rw [joined, hprevious, hnext]

/-- What the client reads keeps the invariant. -/
theorem client (h : s.Inv chunk) (hstep : s.ClientReads chunk t) : t.Inv chunk := by
  cases hstep with
  | badConfig | eof | monitorClosed =>
    exact ⟨fun _ hclient => absurd rfl hclient, h.requests⟩
  | @log r fd rest c hat hr hread =>
    refine ⟨fun hruns hclient => ?_, h.requests⟩
    have hexited : s.client ≠ .exited := by
      rw [hat]
      nofun
    cases h.talk hruns hexited with
    | rest hat' | getsConfig hat' =>
      rw [hat] at hat'
      cases hat'
    | asksConfig hat' | getsOk hat' | isRefused hat' =>
      rw [hat] at hat'
      exact absurd (ClientAt.awaits.inj hat') hr
    | asksLog _ _ _ hans =>
      rw [toClient_eq_nil hans] at hread
      -- there is nothing to read yet
      have hnil := (eq_of_exec_ok (transfers_receiveFd (-1)) hread).1
      exact absurd hnil (List.cons_ne_nil _ _)
    | @getsLog _ fd' _ _ hto hans hfd hagrees =>
      have htransfers : Transfers (receiveFd chunk) (s.toClient ++ s.pending) fd' ∅ :=
        (show s.toClient ++ s.pending = sendFd fd' from hans) ▸ transfers_receiveFd fd'
      obtain ⟨hpending, rfl, rfl, -⟩ := eq_of_exec_ok htransfers hread
      refine .rest (if_neg hfd) hto hpending ?_
      exact ⟨hagrees.closed, hagrees.sockets, hagrees.nodup, hagrees.valid⟩
  | @ok v rest hat hto =>
    refine ⟨fun hruns hclient => ?_, h.requests⟩
    have hexited : s.client ≠ .exited := by
      rw [hat]
      nofun
    have hv : v ≠ 0 := by
      rintro rfl
      exact hclient rfl
    have hanswer : s.answer = le32 v ++ (rest ++ s.pending) := by
      rw [answer, hto, List.append_assoc]
    cases h.talk hruns hexited with
    | rest hat' | getsConfig hat' =>
      rw [hat] at hat'
      cases hat'
    | asksLog hat' hr | getsLog hat' hr =>
      rw [hat] at hat'
      exact absurd (ClientAt.awaits.inj hat').symm hr
    | asksConfig _ _ hans =>
      -- there is nothing to read yet
      rw [hanswer] at hans
      have hlen := length_le32 v
      rw [(List.append_eq_nil_iff.mp hans).1] at hlen
      cases hlen
    | isRefused _ _ hans =>
      rw [hanswer, ← List.append_nil (le32 0)] at hans
      exact absurd (le32_append_inj hans).1 hv
    | getsOk _ htoMonitor hans htransfers hagrees =>
      rw [hanswer] at hans
      obtain ⟨-, rfl⟩ := le32_append_inj hans
      refine .getsConfig (if_neg hv) htoMonitor htransfers ?_
      exact ⟨hagrees.closed, hagrees.sockets, hagrees.nodup, hagrees.valid⟩
  | @config ret rest c hat hread =>
    refine ⟨fun hruns _ => ?_, h.requests⟩
    have hexited : s.client ≠ .exited := by
      rw [hat]
      nofun
    cases h.talk hruns hexited with
    | rest hat' | asksLog hat' | getsLog hat' | asksConfig hat' | getsOk hat' | isRefused hat' =>
      rw [hat] at hat'
      cases hat'
    | getsConfig _ hto htransfers hagrees =>
      -- the client has not come to its end before all has been written
      obtain ⟨hpending, rfl, hconf⟩ := eq_of_exec_recvConfig htransfers hread
      refine .rest rfl hto hpending ?_
      exact hconf ▸ ⟨hagrees.closed, hagrees.sockets, hagrees.nodup, hagrees.valid⟩

/-- In the main loop nothing is on its way. -/
theorem inLoop (h : s.Inv chunk) (hruns : s.Runs) (hat : s.client = .loops) :
    s.toMonitor = [] ∧ s.answer = [] ∧ s.Agrees s.collector.conf := by
  have hexited : s.client ≠ .exited := by
    rw [hat]
    nofun
  cases h.talk hruns hexited with
  | rest _ hto hans hagrees => exact ⟨hto, hans, hagrees⟩
  | asksLog hat' | getsLog hat' | asksConfig hat' | getsOk hat' | getsConfig hat'
  | isRefused hat' =>
    rw [hat] at hat'
    cases hat'

/-- What happens besides keeps the invariant. -/
theorem spontaneous (h : s.Inv chunk) (hstep : s.Spontaneous t) : t.Inv chunk := by
  cases hstep with
  | clientEnds => exact ⟨fun _ hclient => absurd rfl hclient, h.requests⟩
  | monitorKilled => exact of_exited fun hruns => hruns _ rfl
  | reopen => exact ⟨fun hruns hclient => (h.talk hruns hclient).congr rfl rfl rfl rfl rfl rfl rfl,
      h.requests⟩
  | @request r hat hname hfd =>
    have hr : r ≠ .reconfigure := by
      rintro rfl
      exact hname rfl
    refine ⟨fun hruns _ => ?_, fun hruns => .inr ⟨r, ?_, fun _ => ?_⟩⟩ <;>
      obtain ⟨hto, hans, hagrees⟩ := h.inLoop hruns hat
    · refine .asksLog rfl hr ?_ hans ?_
      · change s.toMonitor ++ r.bytes = r.bytes
        rw [hto, List.nil_append]
      · exact ⟨hagrees.closed, hagrees.sockets, hagrees.nodup, hagrees.valid⟩
    · change s.toMonitor ++ r.bytes = r.bytes
      rw [hto, List.nil_append]
    · -- the names are the same on both sides
      change s.next.logName r ≠ none
      rw [← FlowdConfig.logName_uncounted, ← hagrees.closed, FlowdConfig.logName_uncounted]
      cases r <;> exact hname
  | filters localtime flow hat =>
    refine ⟨fun hruns _ => ?_, h.requests⟩
    obtain ⟨hto, hans, hagrees⟩ := h.inLoop hruns hat
    refine .rest hat hto hans ⟨?_, hagrees.sockets, hagrees.nodup, hagrees.valid⟩
    refine Eq.trans ?_ hagrees.closed
    simp only [FlowdConfig.closed, FlowdConfig.uncounted, filterFlow_uncounted]
  | reconfigure hat =>
    refine ⟨fun hruns _ => ?_, fun hruns => .inr ⟨.reconfigure, ?_, fun h => absurd rfl h⟩⟩ <;>
      obtain ⟨hto, hans, hagrees⟩ := h.inLoop hruns hat
    · refine .asksConfig rfl ?_ hans ?_
      · change s.toMonitor ++ _ = _
        rw [hto, List.nil_append]
      · -- each socket is the one of a listening address
        refine List.filter_eq_nil_iff.mpr fun sock hsock => ?_
        rw [hagrees.sockets] at hsock
        obtain ⟨la, hla, rfl⟩ := List.mem_map.mp hsock
        simpa using ⟨la, hla, rfl⟩
    · change s.toMonitor ++ _ = _
      rw [hto, List.nil_append]

/-- Every step keeps the invariant. -/
theorem step (h : s.Inv chunk) (hstep : s.Step chunk mem t) : t.Inv chunk := by
  rcases hstep with (hmonitor | hclient) | hspontaneous
  · exact h.monitor hmonitor
  · exact h.client hclient
  · exact h.spontaneous hspontaneous

/-- It holds at the start. -/
theorem initial (h : s.Initial chunk mem) : s.Inv chunk := by
  obtain ⟨parsed, opts, conf, fds, hread, hlen, hnodup, hvalid, rfl⟩ := h
  refine ⟨fun _ _ => .rest rfl rfl rfl ⟨rfl, rfl, ?_, ?_⟩, fun _ => .inl rfl⟩
  · change ((conf.opened fds).listenAddrs.map ListenAddr.fd).Nodup
    rwa [FlowdConfig.fds_opened hlen]
  · change -1 ∉ (conf.opened fds).listenAddrs.map ListenAddr.fd
    rwa [FlowdConfig.fds_opened hlen]

/-- The invariant holds in every reachable state. -/
theorem reachable (h : s.Reachable chunk mem) : s.Inv chunk := by
  obtain ⟨start, hstart, hsteps⟩ := h
  induction hsteps with
  | refl => exact initial hstart
  | tail _ hstep ih => exact ih.step hstep

end Inv

/-! ## Results -/

/-- While the monitor runs, a client in its main loop has the configuration that the monitor has or
is about to have, besides the descriptors and the counters, and nothing is on its way. What the
monitor finds to read is one request that it knows, for something that it has a name for. -/
theorem monitor_agrees (h : s.Reachable chunk mem) (hruns : s.Runs) :
    (s.client = .loops →
      s.collector.conf.closed.uncounted = s.next.uncounted ∧ s.toMonitor = [] ∧
        s.answer = []) ∧
    (s.toMonitor = [] ∨ ∃ r : Request, s.toMonitor = r.bytes ∧
      (r ≠ .reconfigure → s.next.logName r ≠ none)) := by
  have hinv := Inv.reachable h
  refine ⟨fun hat => ?_, hinv.requests hruns⟩
  obtain ⟨hto, hans, hagrees⟩ := hinv.inLoop hruns hat
  exact ⟨hagrees.closed, hto, hans⟩

/-- A configuration, as the parser makes it. -/
def sampleParsed : ParsedConfig where
  toFlowdConfig := sampleConf
  log := .inl nofun
  pid_file := nofun
  listens := List.cons_ne_nil _ _
  no_descriptors := sampleConf_sendable.no_descriptors
  strings s hs := by
    rcases hs with hs | hs | hs
    · obtain rfl := Option.some.inj hs
      decide
    · cases hs
    · obtain rfl := Option.some.inj hs
      decide
  counted := by decide

/-- flowd at its start with it. -/
def sampleSystem : System where
  conf := sampleConf
  collector := { conf := sampleConf.opened [3] }
  sockets := (sampleConf.opened [3]).listeners sampleConf.joinGroups
  pidFiles := sampleConf.pidFile.toList

/-- The sample system is one at the start. -/
theorem initial_sampleSystem : sampleSystem.Initial (fun _ => 1) zeroMemory :=
  ⟨some sampleParsed, 0, sampleConf, [3],
    readConfig_of_sendable (fun _ => 1) zeroMemory (p := sampleParsed) sampleConf_sendable 0, rfl,
    List.nodup_singleton 3, by decide, rfl⟩

/-! ### A reconfiguration -/

/-- A configuration with two listening addresses, one rule and one group. -/
def groupConf (group : UInt8) (pid : CString) : FlowdConfig where
  logFile := sampleConf.logFile
  pidFile := some pid
  storeMask := storeFieldAll
  listenAddrs := [
    { addr := Xaddr.copy {} [0, 0, 0, 0] afInet, port := 9995, fd := -1, bufsiz := 0 },
    { addr := Xaddr.copy {} [0, 0, 0, 0] afInet, port := 9996, fd := -1, bufsiz := 0 }]
  filterList := [{ action := { actionWhat := 1 } }]
  joinGroups := [{ addr := Xaddr.copy {} [224, 0, 0, group] afInet }]

/-- A configuration with one group and two listeners can be sent. -/
theorem groupConf_sendable {group : UInt8} {pid : CString} (h : pid.Fits) :
    (groupConf group pid).Sendable where
  log_file s hs := by
    obtain rfl := Option.some.inj hs
    decide
  log_socket s hs := nomatch hs
  pid_file := ⟨pid, rfl, h⟩
  listen_addrs := by simp [groupConf]
  no_descriptors la hla := by
    rcases hla with - | ⟨-, - | ⟨-, hla⟩⟩
    · rfl
    · rfl
    · cases hla
  filter_list := by simp [groupConf]
  allowed_devices := by simp [groupConf]
  join_groups := by simp [groupConf]

/-- The parser makes it. -/
def groupParsed (group : UInt8) (pid : CString) (h : pid.Fits) (hlen : pid.bytes.length < 8096) :
    ParsedConfig where
  toFlowdConfig := groupConf group pid
  log := .inl nofun
  pid_file := nofun
  listens := List.cons_ne_nil _ _
  no_descriptors := (groupConf_sendable h).no_descriptors
  strings s hs := by
    rcases hs with hs | hs | hs
    · obtain rfl := Option.some.inj hs
      decide
    · cases hs
    · obtain rfl := Option.some.inj hs
      exact hlen
  counted := by simp [groupConf]

/-- The name of the first file with the process id. -/
def firstPid : CString := ⟨[0x70, 0x69, 0x64, 0x31], by decide⟩

/-- The name of the second one. -/
def secondPid : CString := ⟨[0x70, 0x69, 0x64, 0x32], by decide⟩

/-- The configuration at the start, and the one that is read behind it. -/
def firstConf : FlowdConfig := groupConf 1 firstPid

def secondConf : FlowdConfig := groupConf 2 secondPid

def firstParsed : ParsedConfig := groupParsed 1 firstPid (by decide) (by decide)

def secondParsed : ParsedConfig := groupParsed 2 secondPid (by decide) (by decide)

/-- A flow has been filtered. -/
def filtered (conf : FlowdConfig) : FlowdConfig :=
  { conf with filterList := (filterFlow (fun _ => ⟨0, 0, 0, 0⟩) {} conf.filterList).filter }

/-- flowd at its start. -/
def firstSystem : System where
  conf := firstConf
  collector := { conf := firstConf.opened [3, 4] }
  sockets := (firstConf.opened [3, 4]).listeners firstConf.joinGroups
  pidFiles := firstConf.pidFile.toList

/-- The first system is one at the start. -/
theorem initial_firstSystem : firstSystem.Initial (fun _ => 1) zeroMemory :=
  ⟨some firstParsed, 0, firstConf, [3, 4],
    readConfig_of_sendable (fun _ => 1) zeroMemory (p := firstParsed)
      (groupConf_sendable (by decide)) 0, rfl, by decide, by decide, rfl⟩

/-- A flow has been filtered, and the client asks for a new configuration. -/
def askingSystem : System :=
  { firstSystem with
    client := .awaits .reconfigure
    toMonitor := Request.reconfigure.bytes
    collector := { conf := (filtered firstConf).closed, closed := [3, 4] }
    sockets := [] }

/-- The collector can ask for a new configuration. -/
theorem reachable_askingSystem : askingSystem.Reachable (fun _ => 1) zeroMemory := by
  have hfilters : Step (fun _ => 1) zeroMemory firstSystem
      { firstSystem with collector := { conf := filtered (firstConf.opened [3, 4]) } } :=
    .inr (.filters (fun _ => ⟨0, 0, 0, 0⟩) {} rfl)
  have hasks : Step (fun _ => 1) zeroMemory
      { firstSystem with collector := { conf := filtered (firstConf.opened [3, 4]) } }
      askingSystem := .inr (.reconfigure rfl)
  exact ⟨firstSystem, initial_firstSystem, .tail (.tail .refl hfilters) hasks⟩

/-- The client has the new configuration, and a flow has been filtered. -/
def secondSystem : System where
  conf := secondConf
  collector := { conf := filtered (secondConf.opened [5, 6]), closed := [3, 4] }
  sockets := (secondConf.opened [5, 6]).listeners firstConf.joinGroups
  pidFiles := [secondPid, firstPid]
  older := [firstConf]

/-- The second configuration is read while another request waits. -/
theorem reachable_secondSystem : secondSystem.Reachable (fun _ => 1) zeroMemory := by
  have hsendable : secondConf.Sendable := groupConf_sendable (by decide)
  have hlen : (secondConf.opened [5, 6]).listenAddrs.length = secondConf.listenAddrs.length := rfl
  obtain ⟨sent, hsend, htransfers⟩ :=
    exists_transfers_opened (fun _ => 1) zeroMemory hsendable hlen
  have hread : readConfig (fun _ => 1) zeroMemory (some secondParsed)
      (askingSystem.conf.opts &&& keptOpts) = .ok secondConf :=
    readConfig_of_sendable (fun _ => 1) zeroMemory (p := secondParsed) hsendable _
  -- the monitor opens the listeners, writes everything and has the new configuration
  set opening : System := { askingSystem with
    toMonitor := []
    monitor := .writes (le32 1 ++ sent) (some (secondConf.opened [5, 6]))
    sockets := (secondConf.opened [5, 6]).listeners firstConf.joinGroups }
  have hopens : Step (fun _ => 1) zeroMemory askingSystem opening :=
    .inl (.inl (.reconfigure rfl (List.append_nil _).symm hread rfl
      ⟨by decide, by decide, nofun⟩ hsend))
  set writing : System := { opening with
    monitor := .writes [] (some (secondConf.opened [5, 6])), toClient := le32 1 ++ sent }
  have hrest : opening.monitor =
      .writes ((le32 1 ++ sent) ++ []) (some (secondConf.opened [5, 6])) := by
    rw [List.append_nil]
  have hwrites : Step (fun _ => 1) zeroMemory opening writing :=
    .inl (.inl (.write (List.append_ne_nil_of_left_ne_nil (Request.bytes_ne_nil .openLog) sent)
      hrest))
  set replaced : System := { secondSystem with
    collector := askingSystem.collector
    client := .awaits .reconfigure
    toClient := le32 1 ++ sent }
  have hname : firstConf.pidFile ≠ secondConf.pidFile := by decide
  have hreplaces : Step (fun _ => 1) zeroMemory writing replaced := by
    have hstep : MonitorStep (fun _ => 1) zeroMemory writing
        (writing.replace (secondConf.opened [5, 6])).writePidFile :=
      .replacePidFile rfl hname
    rw [System.replace, replaceConf_eq] at hstep
    exact .inl (.inl hstep)
  -- the client reads what has been written
  set receiving : System := { replaced with client := .receives, toClient := sent }
  have hok : Step (fun _ => 1) zeroMemory replaced receiving := .inl (.inr (.ok (v := 1) rfl rfl))
  set received : System := { secondSystem with
    collector := { conf := secondConf.opened [5, 6], closed := [3, 4] } }
  have hrun := exec_recvConfig htransfers [] askingSystem.collector
  rw [List.append_nil, replaceConf_eq] at hrun
  have hreceives : Step (fun _ => 1) zeroMemory receiving received :=
    .inl (.inr (.config rfl hrun))
  have hfilters : Step (fun _ => 1) zeroMemory received secondSystem :=
    .inr (.filters (fun _ => ⟨0, 0, 0, 0⟩) {} rfl)
  obtain ⟨start, hstart, hsteps⟩ := reachable_askingSystem
  exact ⟨start, hstart, .tail (.tail (.tail (.tail (.tail (.tail hsteps hopens) hwrites) hreplaces)
    hok) hreceives) hfilters⟩

/-- The monitor of the second system runs. -/
theorem runs_secondSystem : secondSystem.Runs := nofun

/-- Behind the reconfiguration, the client has the second configuration, in which it has counted. -/
theorem monitor_agrees_second :
    secondSystem.collector.conf.closed ≠ secondConf ∧
      secondSystem.collector.conf.closed.uncounted = secondConf.uncounted ∧
      secondSystem.toMonitor = [] ∧ secondSystem.answer = [] :=
  ⟨by decide, (monitor_agrees reachable_secondSystem runs_secondSystem).1 rfl⟩

/-- While the monitor runs, a client in its main loop has a socket of its own for each listening
address. It has been asked to join the groups of the configuration before. When the monitor reads
the next configuration, all of them are closed. -/
theorem listeners_open (h : s.Reachable chunk mem) (hruns : s.Runs) :
    (s.client = .loops →
      s.sockets = s.collector.conf.listeners (s.previous.headD s.next).joinGroups ∧
      (s.sockets.map Socket.fd).Nodup ∧ -1 ∉ s.sockets.map Socket.fd) ∧
    (s.client ≠ .exited → s.toMonitor = Request.reconfigure.bytes → s.sockets = []) := by
  have hinv := Inv.reachable h
  refine ⟨fun hat => ?_, fun hclient hto => ?_⟩
  · obtain ⟨-, -, hagrees⟩ := hinv.inLoop hruns hat
    have hfds : s.sockets.map Socket.fd = s.collector.conf.listenAddrs.map ListenAddr.fd := by
      rw [hagrees.sockets, FlowdConfig.listeners, List.map_map]
      rfl
    exact ⟨hagrees.sockets, hfds ▸ hagrees.nodup, hfds ▸ hagrees.valid⟩
  · rw [← List.append_nil Request.reconfigure.bytes] at hto
    exact (hinv.asks hruns hclient hto).2.2.2 rfl

/-- The two sockets have been asked to join the group of the first configuration. While the client
asked for the second one, there was none. -/
theorem listeners_open_second :
    secondSystem.sockets = (secondConf.opened [5, 6]).listeners firstConf.joinGroups ∧
      secondSystem.sockets.map Socket.groups = [firstConf.joinGroups, firstConf.joinGroups] ∧
      (secondSystem.sockets.map Socket.fd).Nodup ∧ askingSystem.sockets = [] := by
  obtain ⟨hsockets, hnodup, -⟩ :=
    (listeners_open reachable_secondSystem runs_secondSystem).1 rfl
  exact ⟨hsockets, by decide, hnodup, (listeners_open reachable_askingSystem nofun).2 nofun rfl⟩

/-! ## The files with the process id -/

/-- Which files are there. -/
def FilesKnown (s : System) : Prop :=
  ∀ name, name ∈ s.pidFiles ↔ (∃ conf ∈ s.conf :: s.older, conf.pidFile = some name) ∧
    (s.monitor = .exited true → s.conf.pidFile ≠ some name)

namespace FilesKnown

/-- The names of the files and of the configurations matter alone. -/
theorem congr (h : s.FilesKnown) (hs : s.Runs) (ht : t.Runs) (hfiles : t.pidFiles = s.pidFiles)
    (hnames : ∀ name, (∃ conf ∈ t.conf :: t.older, conf.pidFile = some name) ↔
      ∃ conf ∈ s.conf :: s.older, conf.pidFile = some name) : t.FilesKnown := by
  intro name
  rw [hfiles, h name, hnames name]
  exact and_congr_right fun _ => iff_of_true (fun hat => absurd hat (hs true))
    fun hat => absurd hat (ht true)

/-- The monitor removes a file at its end, or it does not. -/
theorem exits (h : s.FilesKnown) (hs : s.Runs) (unlinks : Bool) :
    (s.monitorExits unlinks).FilesKnown := by
  intro name
  have hname := h name
  rw [and_iff_left fun hat => absurd hat (hs true)] at hname
  cases unlinks with
  | false => exact hname.trans (and_iff_left fun hat => nomatch hat).symm
  | true =>
    change name ∈ s.pidFiles.filter (some · ≠ s.conf.pidFile) ↔ _
    rw [List.mem_filter, hname]
    refine and_congr_right fun _ => ?_
    simp only [decide_eq_true_eq]
    exact ⟨fun hne _ heq => hne heq.symm, fun hne heq => hne rfl heq.symm⟩

/-- The name of the file is that of the configuration that has been read. -/
theorem pidFile_replace (s : System) (newconf : FlowdConfig) :
    (s.replace newconf).conf.pidFile = newconf.pidFile := by
  rw [System.replace, replaceConf_eq]
  rfl

/-- The names with a new configuration are its own and the ones before. -/
theorem names_replace (newconf : FlowdConfig) (name : CString) :
    (∃ conf ∈ (s.replace newconf).conf :: (s.replace newconf).older,
      conf.pidFile = some name) ↔
      newconf.pidFile = some name ∨ ∃ conf ∈ s.conf :: s.older, conf.pidFile = some name := by
  rw [List.exists_mem_cons_iff, pidFile_replace]
  rfl

/-- The steps of the monitor keep the files. -/
theorem monitor (h : s.FilesKnown) (hstep : s.MonitorStep chunk mem t) : t.FilesKnown := by
  cases hstep with
  | logFails hat | logExits hat | readExits hat | eof hat =>
    exact h.exits (runs_of_monitor hat (by simp)) _
  | writeFails unlinks hat => exact h.exits (runs_of_monitor hat (by simp)) unlinks
  | refused hat => exact h.exits (runs_of_monitor hat (by simp)) true
  | sendStops unlinks hat => exact exits h (runs_of_monitor hat (by simp)) unlinks
  | passLog hat | unknown hat => exact h
  | reconfigure hat | badConfig hat | badListener hat =>
    exact h.congr (runs_of_monitor hat (by simp)) (runs_of_monitor rfl (by simp)) rfl
      fun _ => Iff.rfl
  | write _ hat =>
    exact h.congr (runs_of_monitor hat (by simp)) (runs_of_monitor rfl (by simp)) rfl
      fun _ => Iff.rfl
  | @replace newconf hat heq =>
    have hreads : (s.replace newconf).monitor = .reads := rfl
    refine h.congr (runs_of_monitor hat (by simp)) (runs_of_monitor hreads (by simp)) rfl
      fun name => ?_
    -- the name is among the ones before
    rw [names_replace, ← heq]
    exact or_iff_right_of_imp fun hname => ⟨s.conf, List.mem_cons_self, hname⟩
  | @replacePidFile newconf hat _ =>
    intro name
    have hname := h name
    rw [and_iff_left fun hexited => absurd hexited (runs_of_monitor hat (by simp) true)] at hname
    change name ∈ (s.replace newconf).conf.pidFile.toList ++ s.pidFiles ↔ _
    rw [List.mem_append, Option.mem_toList, pidFile_replace, hname, ← names_replace]
    exact (and_iff_left fun hexited => nomatch hexited).symm
  | @pidFileFails newconf hat _ =>
    intro name
    have hname := h name
    rw [and_iff_left fun hexited => absurd hexited (runs_of_monitor hat (by simp) true)] at hname
    change name ∈ s.pidFiles.filter (some · ≠ (s.replace newconf).conf.pidFile) ↔
      (∃ conf ∈ (s.replace newconf).conf :: (s.replace newconf).older, _) ∧
        (_ → (s.replace newconf).conf.pidFile ≠ _)
    rw [List.mem_filter, hname, names_replace, pidFile_replace]
    simp only [decide_eq_true_eq]
    -- the new name, which is not there, is not removed from among the others
    constructor
    · rintro ⟨hold, hne⟩
      exact ⟨.inr hold, fun _ heq => hne heq.symm⟩
    · rintro ⟨hnames, hne⟩
      exact ⟨hnames.resolve_left (hne rfl), fun heq => hne rfl heq.symm⟩

/-- Every step keeps the files. -/
theorem step (h : s.FilesKnown) (hstep : s.Step chunk mem t) : t.FilesKnown := by
  rcases hstep with (hmonitor | hclient) | hspontaneous
  · exact h.monitor hmonitor
  · cases hclient <;> exact h
  · cases hspontaneous with
    | monitorKilled hruns => exact h.exits hruns false
    | reopen | request | filters | reconfigure | clientEnds => exact h

end FilesKnown

/-- The files with a process id that are there have the names that the configurations so far have
had. At its end the monitor removes the one of its last configuration, if any. -/
theorem pidFiles_iff (h : s.Reachable chunk mem) (name : CString) :
    name ∈ s.pidFiles ↔ (∃ conf ∈ s.conf :: s.older, conf.pidFile = some name) ∧
      (s.monitor = .exited true → s.conf.pidFile ≠ some name) := by
  obtain ⟨start, ⟨parsed, opts, conf, fds, -, -, -, -, rfl⟩, hsteps⟩ := h
  have hknown : s.FilesKnown := by
    induction hsteps with
    | refl =>
      intro name
      rw [and_iff_left fun hat => nomatch hat]
      change name ∈ conf.pidFile.toList ↔ ∃ c ∈ [(conf.opened fds).closed], c.pidFile = some name
      simp only [List.mem_singleton, exists_eq_left, Option.mem_toList]
      rfl
    | tail _ hstep ih => exact ih.step hstep
  exact hknown name

/-- Both processes have ended, the client first. -/
def endedSystem : System := monitorExits { secondSystem with client := .exited } true

/-- The monitor removes the file of the second configuration at its end. -/
theorem reachable_endedSystem : endedSystem.Reachable (fun _ => 1) zeroMemory := by
  have hends : Step (fun _ => 1) zeroMemory secondSystem { secondSystem with client := .exited } :=
    .inr (.clientEnds nofun)
  have hexits : Step (fun _ => 1) zeroMemory { secondSystem with client := .exited } endedSystem :=
    .inl (.inl (.eof rfl rfl))
  obtain ⟨start, hstart, hsteps⟩ := reachable_secondSystem
  exact ⟨start, hstart, .tail (.tail hsteps hends) hexits⟩

/-- The file of the second configuration is removed, and the one of the first stays behind. -/
theorem pidFiles_iff_second :
    secondPid ∉ endedSystem.pidFiles ∧ firstPid ∈ endedSystem.pidFiles := by
  refine ⟨fun hmem => ((pidFiles_iff reachable_endedSystem _).mp hmem).2 rfl rfl, ?_⟩
  refine (pidFiles_iff reachable_endedSystem _).mpr ⟨⟨firstConf, ?_, rfl⟩, fun _ => by decide⟩
  exact List.mem_cons_of_mem _ (List.mem_singleton_self _)

end System

end Flowd.Privsep
