import Mathlib.Data.Prod.Lex
import NetworkMonitoring.Foundations.FairRuns
import NetworkMonitoring.Flowd.PrivsepRuns

/-!
# flowd — every request is answered, or flowd ends

Runs of the monitor and the client in which neither of them stops where it could go on. Nothing is
assumed of what they do: files, listeners and descriptors may fail at any time, and either process
may be ended.

## Main results

* `request_answered`: the client does not wait for an answer for ever;
* `both_exit`: when one of the processes has exited, or the monitor refuses a configuration, the
  time comes when both have exited.
-/

namespace Flowd.Privsep

open Bytes Receivers FairRuns

variable {chunk : ℕ → ℕ} {mem : SenderMemory}

/-! ## What the client leaves on the socket -/

/-- A read of bytes leaves what is behind them. -/
theorem leavesRest_recvBytes (n : ℕ) : LeavesRest (recvBytes chunk n) := by
  intro input s
  rw [exec_recvBytes, atomicioRead_eq]
  split
  · exact List.drop_suffix _ _
  · exact List.nil_suffix

/-- So does one that needs all of them. -/
theorem leavesRest_recvAll (n : ℕ) (stop : Stop) : LeavesRest (recvAll chunk n stop) :=
  (leavesRest_recvBytes n).bind fun _ => .ite (.throw stop) (.pure _)

/-- So does the read of a variable. -/
theorem leavesRest_recvVar {α : Type} (n : ℕ) (read : StateM (List UInt8) α) :
    LeavesRest (recvVar chunk n read) :=
  (leavesRest_recvAll n .fails).bind fun _ => .pure _

/-- So does the read of a string. -/
theorem leavesRest_privsepReadString (nullok : Bool) :
    LeavesRest (privsepReadString chunk nullok) :=
  (leavesRest_recvAll 8 .exits).bind fun _ => .ite (.pure none) <| .ite (.throw Stop.exits) <|
    (leavesRest_recvBytes _).bind fun _ => .ite (.pure none) (.pure _)

/-- So does the read of the name of the pid file. -/
theorem leavesRest_recvPidFile : LeavesRest (recvPidFile chunk) := by
  refine (leavesRest_privsepReadString false).bind fun s => ?_
  cases s with
  | none => exact .throw Stop.fails
  | some s => exact .pure s

/-- So does the read of a list when that of its elements does. -/
theorem leavesRest_recvList {α : Type} {silly : ℕ → Bool} {element : Recv α}
    (h : LeavesRest element) : LeavesRest (recvList chunk silly element) :=
  LeavesRest.bind ((leavesRest_recvVar 4 read32).bind fun _ => .ite (.throw Stop.fails) (.pure _))
    fun n => h.collect n []

/-- So does the read of a descriptor. -/
theorem leavesRest_receiveFd : LeavesRest (receiveFd chunk) :=
  (leavesRest_recvAll 5 .exits).bind fun _ => .pure _

/-- So does the read of an address to listen on. -/
theorem leavesRest_recvListenAddr : LeavesRest (recvListenAddr chunk (receiveFd chunk)) :=
  (leavesRest_recvVar 56 ListenAddr.read).bind fun _ =>
    .ite (leavesRest_receiveFd.bind fun _ => .ite (.throw Stop.fails) (.pure _)) (.pure _)

/-- The read of a configuration leaves what is behind it. -/
theorem leavesRest_recvConfig : LeavesRest (recvConfig chunk (receiveFd chunk)) := by
  have hnewconf : LeavesRest (recvNewconf chunk (receiveFd chunk)) :=
    (leavesRest_privsepReadString true).bind fun _ =>
    (leavesRest_privsepReadString true).bind fun _ => (leavesRest_recvVar 8 read64).bind fun _ =>
    leavesRest_recvPidFile.bind fun _ => (leavesRest_recvVar 4 read32).bind fun _ =>
    (leavesRest_recvVar 4 read32).bind fun _ =>
    (leavesRest_recvList leavesRest_recvListenAddr).bind fun _ =>
    (leavesRest_recvList (leavesRest_recvVar 200 FilterRule.read)).bind fun _ =>
    (leavesRest_recvList (leavesRest_recvVar 48 AllowedDevice.read)).bind fun _ =>
    (leavesRest_recvList (leavesRest_recvVar 40 JoinGroup.read)).bind fun _ => .pure _
  exact hnewconf.bind fun conf => fun input _ => List.suffix_refl input

/-- A descriptor that is received is taken off the socket. -/
theorem length_lt_of_receiveFd {input rest : List UInt8} {fd : Int32} {s s' : Collector}
    (h : (receiveFd chunk).exec input s = (.ok fd, (rest, s'))) : rest.length < input.length := by
  have hread : (recvBytes chunk 5).exec input s = _ := exec_recvBytes 5 input s
  rw [atomicioRead_eq] at hread
  split at hread
  · rename_i hle
    have hfirst : (recvAll chunk 5 .exits).exec input s =
        (.ok (input.take 5), (input.drop 5, s)) := by
      rw [recvAll, Receiver.exec_bind_ok hread]
      rfl
    rw [receiveFd, Receiver.exec_bind_ok hfirst] at h
    obtain ⟨hrest, -⟩ := Prod.mk.inj (Prod.mk.inj h).2
    rw [← hrest, List.length_drop]
    have : 0 + 5 ≤ input.length := hle
    omega
  · -- there are not enough bytes
    have hfirst : (recvAll chunk 5 .exits).exec input s = (.error .exits, ([], s)) := by
      rw [recvAll, Receiver.exec_bind_ok hread]
      rfl
    rw [receiveFd, Receiver.exec_bind_error _ hfirst] at h
    cases congrArg Prod.fst h

/-- A request has four bytes. -/
theorem Request.length_bytes (r : Request) : r.bytes.length = 4 := length_le32 r.msg

/-- A number can be read where there are four bytes. -/
theorem exists_le32 {bs : List UInt8} (h : ¬ bs.length < 4) : ∃ v rest, bs = le32 v ++ rest := by
  have hlen : bs.length = bs.length - 4 + 4 := by omega
  obtain ⟨v, hv, rest, hbs, -⟩ := exists_leBytes hlen
  refine ⟨UInt32.ofNat v, rest, ?_⟩
  rw [le32, UInt32.toNat_ofNat_of_lt' hv]
  exact hbs

namespace System

variable {s t : System}

/-! ## What is to be done -/

/-- What the monitor has to do before it reads again, or exits. -/
def monitorToGo (s : System) : ℕ :=
  match s.monitor with
  | .writes rest _ => rest.length + 2
  | .reads => 1
  | .exited _ => 0

/-- What the client has to do before it has an answer. -/
def clientToGo (s : System) : ℕ :=
  match s.client with
  | .awaits _ => 1
  | _ => 0

/-- What is to be done until a request has been answered: requests come first. -/
def toGo (s : System) : ℕ ×ₗ ℕ := toLex (s.toMonitor.length, s.monitorToGo + s.clientToGo)

/-- What the client has to read. -/
def clientLeft (s : System) : ℕ := 2 * s.toClient.length + if s.client = .receives then 1 else 0

/-- A request that is read is one less to go. -/
theorem toGo_lt_of_request {bs rest : List UInt8} (hbs : bs.length = 4)
    (hs : s.toMonitor = bs ++ rest) (ht : t.toMonitor = rest) : t.toGo < s.toGo := by
  refine Prod.Lex.toLex_lt_toLex.mpr (.inl ?_)
  rw [hs, ht, List.length_append]
  omega

/-- A step of the monitor inside its answer is one less to go. -/
theorem toGo_lt_of_monitor (hto : t.toMonitor = s.toMonitor) (hclient : t.client = s.client)
    (h : t.monitorToGo < s.monitorToGo) : t.toGo < s.toGo := by
  refine Prod.Lex.toLex_lt_toLex.mpr (.inr ⟨congrArg List.length hto, ?_⟩)
  have hsame : t.clientToGo = s.clientToGo := by rw [clientToGo, clientToGo, hclient]
  change t.monitorToGo + t.clientToGo < s.monitorToGo + s.clientToGo
  omega

namespace MonitorStep

/-- The monitor takes a step while it runs. -/
theorem runs (h : s.MonitorStep chunk mem t) : s.Runs := by
  cases h with
  | passLog hat | logFails hat | logExits hat | unknown hat | reconfigure hat | sendStops _ hat
  | badConfig hat | badListener hat | readExits hat | write _ hat | writeFails _ hat | replace hat
  | replacePidFile hat | pidFileFails hat | refused hat | eof hat =>
    exact runs_of_monitor hat (by simp)

/-- The monitor does not move the collector. -/
theorem client_eq (h : s.MonitorStep chunk mem t) : t.client = s.client := by
  cases h <;> rfl

/-- Each step brings the monitor nearer to its next request, or to its end. -/
theorem toGo_lt (h : s.MonitorStep chunk mem t) : t.toGo < s.toGo := by
  cases h with
  | passLog _ hto => exact toGo_lt_of_request (Request.length_bytes _) hto rfl
  | unknown _ hto => exact toGo_lt_of_request (length_le32 _) hto rfl
  | reconfigure _ hto | badConfig _ hto | badListener _ hto =>
    exact toGo_lt_of_request (Request.length_bytes _) hto rfl
  | sendStops _ _ hto => exact toGo_lt_of_request (Request.length_bytes _) hto rfl
  | logFails hat | logExits hat | readExits hat | writeFails _ hat | refused hat | eof hat =>
    -- there is nothing that a monitor behind its end has to do
    refine toGo_lt_of_monitor rfl rfl ?_
    simp [monitorToGo, monitorExits, hat]
  | @write bs rest _ hbs hat =>
    refine toGo_lt_of_monitor rfl rfl ?_
    have hpos := List.length_pos_iff.mpr hbs
    simp only [monitorToGo, hat, List.length_append]
    omega
  | replace hat | replacePidFile hat | pidFileFails hat =>
    refine toGo_lt_of_monitor rfl rfl ?_
    simp [monitorToGo, monitorExits, System.replace, writePidFile, hat]

end MonitorStep

namespace ClientReads

/-- The collector does not move the monitor when it reads. -/
theorem monitor_eq (h : s.ClientReads chunk t) : t.monitor = s.monitor := by
  cases h <;> rfl

/-- The client that reads is at its end, in its main loop, or nearer to it. -/
theorem toGo_lt (h : s.ClientReads chunk t) :
    (t.client = .loops ∨ t.client = .exited) ∨ t.client = .receives ∧ t.toGo < s.toGo := by
  cases h with
  | badConfig | eof | monitorClosed => exact .inl (.inr rfl)
  | config => exact .inl (.inl rfl)
  | @log _ fd =>
    by_cases hfd : fd = -1
    · exact .inl (.inr (if_pos hfd))
    · exact .inl (.inl (if_neg hfd))
  | @ok v rest hat hto =>
    by_cases hv : v = 0
    · exact .inl (.inr (if_pos hv))
    · refine .inr ⟨if_neg hv, Prod.Lex.toLex_lt_toLex.mpr (.inr ⟨rfl, ?_⟩)⟩
      simp [clientToGo, monitorToGo, hat, hv]

/-- A client that goes on has read something. -/
theorem clientLeft_lt (h : s.ClientReads chunk t) :
    t.client = .exited ∨ t.clientLeft < s.clientLeft := by
  cases h with
  | badConfig | eof | monitorClosed => exact .inl rfl
  | @log r fd rest c hat hr hread =>
    have hlt := length_lt_of_receiveFd hread
    by_cases hfd : fd = -1
    · exact .inl (if_pos hfd)
    · refine .inr ?_
      simp only [clientLeft, if_neg hfd, hat, reduceCtorEq, if_false]
      omega
  | @ok v rest hat hto =>
    by_cases hv : v = 0
    · exact .inl (if_pos hv)
    · refine .inr ?_
      simp only [clientLeft, if_neg hv, hat, hto, reduceCtorEq, if_true, if_false,
        List.length_append, length_le32]
      omega
  | @config ret rest c hat hread =>
    -- there is nothing more in `toClient`, and the client does not receive any more
    have hleave : LeavesRest (recvConfig chunk (receiveFd chunk)) := leavesRest_recvConfig
    have hle := (hleave s.toClient s.collector).length_le
    rw [hread] at hle
    change rest.length ≤ s.toClient.length at hle
    refine .inr ?_
    simp only [clientLeft, hat, reduceCtorEq, if_true, if_false]
    omega

/-- A client that has exited reads nothing. -/
theorem client_ne (h : s.ClientReads chunk t) : s.client ≠ .exited := by
  intro hexited
  cases h with
  | log hat | ok hat | config hat | badConfig hat | monitorClosed _ hat =>
    rw [hexited] at hat
    cases hat
  | eof _ hstarved =>
    rw [Starved, hexited] at hstarved
    exact hstarved

end ClientReads

/-- A collector that has left does not come back. -/
theorem client_of_spontaneous (h : s.Spontaneous t) (hclient : s.client = .exited) :
    t.client = .exited := by
  cases h with
  | clientEnds => rfl
  | monitorKilled => exact hclient
  | reopen hat | request hat | filters _ _ hat | reconfigure hat =>
    rw [hclient] at hat
    cases hat

/-- What happens besides gives the client nothing to read. -/
theorem clientLeft_le_of_spontaneous (h : s.Spontaneous t) : t.clientLeft ≤ s.clientLeft := by
  cases h with
  | monitorKilled => exact le_rfl
  | clientEnds => simp [clientLeft]
  | reopen hat | request hat | filters _ _ hat | reconfigure hat => simp [clientLeft, hat]

/-- While a client waits, or has exited, there is nothing new to be done. -/
theorem toGo_le_of_spontaneous (h : s.Spontaneous t) (hclient : s.client ≠ .loops) :
    (t.client = .exited ∨ t.client = s.client) ∧ t.toGo ≤ s.toGo := by
  cases h with
  | reopen hat | request hat | filters _ _ hat | reconfigure hat => exact absurd hat hclient
  | clientEnds =>
    refine ⟨.inl rfl, Prod.Lex.toLex_le_toLex.mpr (.inr ⟨rfl, ?_⟩)⟩
    exact Nat.add_le_add_left (Nat.zero_le _) _
  | monitorKilled =>
    refine ⟨.inr rfl, Prod.Lex.toLex_le_toLex.mpr (.inr ⟨rfl, ?_⟩)⟩
    exact Nat.add_le_add_right (Nat.zero_le _) _

/-! ## Who can go on -/

/-- A monitor that writes can go on. -/
theorem exists_monitorStep_of_writes {rest : List UInt8} {newconf : Option FlowdConfig}
    (hat : s.monitor = .writes rest newconf) : ∃ t, s.MonitorStep chunk mem t := by
  cases rest with
  | cons b bs => exact ⟨_, .write (List.cons_ne_nil b bs) (by rw [List.append_nil, hat])⟩
  | nil =>
    cases newconf with
    | none => exact ⟨_, .refused hat⟩
    | some newconf =>
      by_cases hpid : s.conf.pidFile = newconf.pidFile
      · exact ⟨_, .replace hat hpid⟩
      · exact ⟨_, .replacePidFile hat hpid⟩

/-- A client that waits for a descriptor is starved when there is none to take. -/
theorem starved_of_awaits {r : Request} (hat : s.client = .awaits r) (hr : r ≠ .reconfigure)
    {stop : Stop} {out : List UInt8 × Collector}
    (hread : (receiveFd chunk).exec s.toClient s.collector = (.error stop, out)) :
    s.Starved chunk := by
  rw [Starved, hat]
  cases r with
  | reconfigure => exact absurd rfl hr
  | openLog | openSocket => exact ⟨stop, out, hread⟩

/-- A client can go on when the monitor has exited. -/
theorem exists_clientReads_of_exited {unlinked : Bool} (hat : s.monitor = .exited unlinked)
    (hclient : s.client ≠ .exited) : ∃ t, s.ClientReads chunk t := by
  match hc : s.client with
  | .exited => exact absurd hc hclient
  | .loops => exact ⟨_, .monitorClosed hat hc⟩
  | .awaits r =>
    by_cases hr : r = .reconfigure
    · subst hr
      by_cases hlen : s.toClient.length < 4
      · exact ⟨_, .eof hat (by rwa [Starved, hc])⟩
      · obtain ⟨v, rest, hto⟩ := exists_le32 hlen
        exact ⟨_, .ok hc hto⟩
    · rcases hread : (receiveFd chunk).exec s.toClient s.collector with ⟨stop | fd, out⟩
      · exact ⟨_, .eof hat (starved_of_awaits hc hr hread)⟩
      · exact ⟨_, .log hc hr hread⟩
  | .receives =>
    rcases hread : (recvConfig chunk (receiveFd chunk)).exec s.toClient s.collector with
      ⟨stop | ret, out⟩
    · exact ⟨_, .eof hat (by simpa only [Starved, hc] using ⟨stop, out, hread⟩)⟩
    · exact ⟨_, .config hc hread⟩

/-- While the client waits, one of the two can go on. -/
theorem Inv.exists_work (h : s.Inv chunk) (hloops : s.client ≠ .loops)
    (hexited : s.client ≠ .exited) : ∃ t, s.Work chunk mem t := by
  match hat : s.monitor with
  | .exited _ => exact (exists_clientReads_of_exited hat hexited).imp fun _ => .inr
  | .writes _ _ => exact (exists_monitorStep_of_writes hat).imp fun _ => .inl
  | .reads =>
    have hruns := runs_of_monitor hat (by simp)
    have hanswer : s.answer = s.toClient := by
      rw [answer, pending_of_reads hat, List.append_nil]
    cases h.talk hruns hexited with
    | rest hloops' => exact absurd hloops' hloops
    | asksLog _ hr hto =>
      -- the monitor may answer, or fail to
      exact ⟨_, .inl (.logExits hat (hto.trans (List.append_nil _).symm) hr)⟩
    | asksConfig _ hto =>
      -- the file may be unreadable
      have hread : readConfig chunk mem none (s.conf.opts &&& keptOpts) = .error .fails := rfl
      exact ⟨_, .inl (.badConfig hat (hto.trans (List.append_nil _).symm) hread)⟩
    | @getsLog _ fd hclient hr _ hans =>
      have htransfers : Transfers (receiveFd chunk) (sendFd fd) fd ∅ := transfers_receiveFd fd
      have htakes := htransfers.takes [] s.collector
      rw [List.append_nil, ← hans, hanswer] at htakes
      exact ⟨_, .inr (.log hclient hr htakes)⟩
    | getsOk hclient _ hans => exact ⟨_, .inr (.ok hclient (hanswer ▸ hans))⟩
    | isRefused hclient _ hans =>
      exact ⟨_, .inr (.ok hclient ((hanswer ▸ hans).trans (List.append_nil _).symm))⟩
    | getsConfig hclient _ htransfers =>
      have hrun := exec_recvConfig htransfers [] s.collector
      rw [List.append_nil, hanswer] at hrun
      exact ⟨_, .inr (.config hclient hrun)⟩

/-! ## Results -/

/-- A run of flowd in which nobody stops for good where one of the processes could go on. -/
structure FairRun (chunk : ℕ → ℕ) (mem : SenderMemory) (σ : ℕ → System) : Prop where
  start : (σ 0).Initial chunk mem
  run : Run (Step chunk mem) σ
  turns : TakesTurns (Work chunk mem) σ

/-- A monitor that runs behind such a step has run before it. -/
theorem runs_of_spontaneous (h : s.Spontaneous t) (ht : t.Runs) : s.Runs := by
  cases h with
  | monitorKilled hruns => exact hruns
  | reopen | request | filters | reconfigure | clientEnds => exact ht

/-- A monitor that has exited does not come back. -/
theorem not_runs_of_step (hs : ¬ s.Runs) (h : s.Step chunk mem t) : ¬ t.Runs := by
  intro ht
  rcases h with (hmonitor | hclient) | hspontaneous
  · exact hs hmonitor.runs
  · exact hs fun unlinked => hclient.monitor_eq ▸ ht unlinked
  · exact hs (runs_of_spontaneous hspontaneous ht)

/-- A client that has exited does not come back. -/
theorem exited_of_step (hs : s.client = .exited) (h : s.Step chunk mem t) : t.client = .exited := by
  rcases h with (hmonitor | hclient) | hspontaneous
  · exact hmonitor.client_eq.trans hs
  · exact absurd hs hclient.client_ne
  · exact client_of_spontaneous hspontaneous hs

/-- The monitor refuses a configuration. -/
def Refuses (s : System) : Prop := ∃ rest, s.monitor = .writes rest none

/-- The monitor that refuses a configuration goes on doing so until it exits. -/
theorem MonitorStep.refuses (h : s.MonitorStep chunk mem t) (hs : s.Refuses) :
    ¬ t.Runs ∨ t.Refuses ∧ t.monitorToGo < s.monitorToGo := by
  obtain ⟨bs, hbs⟩ := hs
  cases h with
  | logFails | logExits | sendStops | readExits | writeFails | pidFileFails | refused | eof =>
    exact .inl fun hruns => hruns _ rfl
  | passLog hat | unknown hat | reconfigure hat | badConfig hat | badListener hat | replace hat
  | replacePidFile hat =>
    rw [hbs] at hat
    cases hat
  | @write cs rest newconf hcs hat =>
    rw [hbs] at hat
    obtain ⟨rfl, rfl⟩ := MonitorAt.writes.inj hat
    have hpos := List.length_pos_iff.mpr hcs
    refine .inr ⟨⟨rest, rfl⟩, ?_⟩
    simp only [monitorToGo, hbs, List.length_append]
    omega

namespace FairRun

variable {σ : ℕ → System}

/-- The invariant holds all along a fair run. -/
theorem inv (h : FairRun chunk mem σ) (i : ℕ) : (σ i).Inv chunk :=
  h.run.always (.initial h.start) (fun _ _ hinv hstep => hinv.step hstep) i

/-- Work that lowers a measure, which nothing else raises, leads to its goal. -/
theorem leads {α : Type*} [Preorder α] [WellFoundedLT α] (h : FairRun chunk mem σ)
    (P Q : System → Prop) (μ : System → α)
    (hwork : ∀ s t, P s → s.Work chunk mem t → Q t ∨ P t ∧ μ t < μ s)
    (hspontaneous : ∀ s t, P s → s.Spontaneous t → Q t ∨ P t ∧ μ t ≤ μ s)
    (hcan : ∀ s, P s → ∃ t, s.Work chunk mem t) {i : ℕ} (hi : P (σ i)) : ∃ j ≥ i, Q (σ j) := by
  refine h.run.leads h.turns μ (fun s t hs hstep => ?_) hwork hcan hi
  rcases hstep with hstep | hstep
  · exact (hwork s t hs hstep).imp_right fun ⟨ht, hlt⟩ => ⟨ht, hlt.le⟩
  · exact hspontaneous s t hs hstep

/-- When the monitor has exited, the client exits: it reads what is left, and finds the end. -/
theorem client_exits (h : FairRun chunk mem σ) {i : ℕ} (hend : ¬ (σ i).Runs) :
    ∃ j ≥ i, (σ j).client = .exited := by
  by_cases hnow : (σ i).client = .exited
  · exact ⟨i, le_rfl, hnow⟩
  refine h.leads (fun s => ¬ s.Runs ∧ s.client ≠ .exited) (fun s => s.client = .exited) clientLeft
    ?_ ?_ ?_ ⟨hend, hnow⟩
  · rintro s t ⟨hs, -⟩ hwork
    have ht := not_runs_of_step hs (.inl hwork)
    rcases hwork with hmonitor | hclient
    · exact absurd hmonitor.runs hs
    · by_cases hexited : t.client = .exited
      · exact .inl hexited
      · exact .inr ⟨⟨ht, hexited⟩, hclient.clientLeft_lt.resolve_left hexited⟩
  · rintro s t ⟨hs, -⟩ hspontaneous
    by_cases hexited : t.client = .exited
    · exact .inl hexited
    · exact .inr ⟨⟨fun ht => hs (runs_of_spontaneous hspontaneous ht), hexited⟩,
        clientLeft_le_of_spontaneous hspontaneous⟩
  · rintro s ⟨hs, hclient⟩
    obtain ⟨unlinked, hat⟩ : ∃ unlinked, s.monitor = .exited unlinked := by
      simpa only [Runs, not_forall, not_not] using hs
    exact (exists_clientReads_of_exited hat hclient).imp fun _ => .inr

/-- When the client has exited, the monitor exits: it answers what is left, and finds the end. -/
theorem monitor_exits (h : FairRun chunk mem σ) {i : ℕ} (hend : (σ i).client = .exited) :
    ∃ j ≥ i, ¬ (σ j).Runs := by
  by_cases hnow : ¬ (σ i).Runs
  · exact ⟨i, le_rfl, hnow⟩
  refine h.leads (fun s => s.client = .exited ∧ s.Runs) (fun s => ¬ s.Runs) toGo ?_ ?_ ?_
    ⟨hend, not_not.mp hnow⟩
  · rintro s t ⟨hs, -⟩ hwork
    have ht := exited_of_step hs (.inl hwork)
    rcases hwork with hmonitor | hclient
    · exact (em t.Runs).symm.imp_right fun hruns => ⟨⟨ht, hruns⟩, hmonitor.toGo_lt⟩
    · exact absurd hs hclient.client_ne
  · rintro s t ⟨hs, -⟩ hspontaneous
    have hloops : s.client ≠ .loops := by
      rw [hs]
      nofun
    exact (em t.Runs).symm.imp_right fun hruns => ⟨⟨client_of_spontaneous hspontaneous hs, hruns⟩,
      (toGo_le_of_spontaneous hspontaneous hloops).2⟩
  · rintro s ⟨hs, hruns⟩
    match hat : s.monitor with
    | .exited unlinked => exact absurd hat (hruns unlinked)
    | .writes _ _ => exact (exists_monitorStep_of_writes hat).imp fun _ => .inl
    | .reads => exact ⟨_, .inl (.eof hat hs)⟩

/-- When the monitor refuses a configuration, it exits, or the client does. -/
theorem refuses_exits (h : FairRun chunk mem σ) {i : ℕ} (hrefuses : (σ i).Refuses) :
    ∃ j ≥ i, ¬ (σ j).Runs ∨ (σ j).client = .exited := by
  refine h.leads Refuses (fun s => ¬ s.Runs ∨ s.client = .exited)
    (fun s => toLex (s.monitorToGo, s.clientLeft)) ?_ ?_ ?_ hrefuses
  · rintro s t hs (hmonitor | hclient)
    · obtain hruns | ⟨ht, hlt⟩ := hmonitor.refuses hs
      · exact .inl (.inl hruns)
      · exact .inr ⟨ht, Prod.Lex.toLex_lt_toLex.mpr (.inl hlt)⟩
    · have hmonitor := hclient.monitor_eq
      obtain hexited | hlt := hclient.clientLeft_lt
      · exact .inl (.inr hexited)
      · -- what the client reads does not change what the monitor has to write
        refine .inr ⟨hs.imp fun rest => hmonitor.trans,
          Prod.Lex.toLex_lt_toLex.mpr (.inr ⟨?_, hlt⟩)⟩
        rw [monitorToGo, monitorToGo, hmonitor]
  · intro s t hs hspontaneous
    have hle := clientLeft_le_of_spontaneous hspontaneous
    cases hspontaneous with
    | monitorKilled => exact .inl (.inl fun hruns => hruns _ rfl)
    | reopen | request | filters | reconfigure | clientEnds =>
      exact .inr ⟨hs, Prod.Lex.toLex_le_toLex.mpr (.inr ⟨rfl, hle⟩)⟩
  · rintro s ⟨rest, hat⟩
    exact (exists_monitorStep_of_writes hat).imp fun _ => .inl

end FairRun

variable {σ : ℕ → System}

/-- **No request is forgotten.** A client that waits for an answer comes back to its main loop, or
exits. -/
theorem FairRun.request_answered (h : FairRun chunk mem σ) (i : ℕ) :
    ∃ j ≥ i, (σ j).client = .loops ∨ (σ j).client = .exited := by
  by_cases hnow : (σ i).client = .loops ∨ (σ i).client = .exited
  · exact ⟨i, le_rfl, hnow⟩
  refine h.leads (fun s => s.Inv chunk ∧ ¬ (s.client = .loops ∨ s.client = .exited))
    (fun s => s.client = .loops ∨ s.client = .exited) toGo ?_ ?_ ?_ ⟨h.inv i, hnow⟩
  · rintro s t ⟨hs, hwaits⟩ hwork
    have ht := hs.step (.inl hwork)
    rcases hwork with hmonitor | hclient
    · exact .inr ⟨⟨ht, hmonitor.client_eq ▸ hwaits⟩, hmonitor.toGo_lt⟩
    · refine hclient.toGo_lt.imp_right fun ⟨hat, hlt⟩ => ⟨⟨ht, ?_⟩, hlt⟩
      rw [hat]
      simp
  · rintro s t ⟨hs, hwaits⟩ hspontaneous
    obtain ⟨hexited | hclient, hle⟩ :=
      toGo_le_of_spontaneous hspontaneous fun hat => hwaits (.inl hat)
    · exact .inl (.inr hexited)
    · exact .inr ⟨⟨hs.spontaneous hspontaneous, hclient ▸ hwaits⟩, hle⟩
  · rintro s ⟨hs, hwaits⟩
    exact hs.exists_work (fun hat => hwaits (.inl hat)) fun hat => hwaits (.inr hat)

/-- A run in which the client asks for its log, which the monitor cannot open. -/
def sampleRun : ℕ → System
  | 0 => sampleSystem
  | 1 => { sampleSystem with client := .awaits .openLog, toMonitor := Request.openLog.bytes }
  | 2 => monitorExits
      { sampleSystem with client := .awaits .openLog, toMonitor := Request.openLog.bytes } true
  | _ + 3 =>
    { monitorExits { sampleSystem with toMonitor := Request.openLog.bytes } true with
      client := .exited }

/-- The states of the run follow each other. -/
theorem sampleRun_step (i : ℕ) : sampleRun (i + 1) = sampleRun i ∨
    Step (fun _ => 1) zeroMemory (sampleRun i) (sampleRun (i + 1)) := by
  match i with
  | 0 => exact .inr (.inr (.request rfl nofun rfl))
  | 1 => exact .inr (.inl (.inl (.logFails rfl (List.append_nil _).symm nofun)))
  | 2 =>
    -- there is no descriptor to receive
    have hreceive : Transfers (receiveFd fun _ => 1) (sendFd 0) 0 ∅ := transfers_receiveFd 0
    obtain ⟨stop, rest, hstop⟩ :=
      hreceive.halts (n := 0) (Nat.zero_lt_succ _) (sampleRun 2).collector
    exact .inr (.inl (.inr (.eof rfl ⟨stop, _, hstop⟩)))
  | _ + 3 => exact .inl rfl

/-- The run is fair. -/
theorem fairRun_sampleRun : FairRun (fun _ => 1) zeroMemory sampleRun where
  start := initial_sampleSystem
  run := sampleRun_step
  turns i := by
    refine ⟨i + 3, Nat.le_add_right i 3, .inr fun t hwork => ?_⟩
    rcases hwork with hmonitor | hclient
    · exact hmonitor.runs true rfl
    · exact hclient.client_ne rfl

/-- The request of the run is answered. -/
theorem request_answered_sample :
    ∃ j ≥ 1, (sampleRun j).client = .loops ∨ (sampleRun j).client = .exited :=
  fairRun_sampleRun.request_answered 1

/-- **flowd ends as a whole.** When one of the processes has exited, or the monitor refuses a
configuration, the time comes from which on both have exited. -/
theorem FairRun.both_exit (h : FairRun chunk mem σ) {i : ℕ}
    (hend : ¬ (σ i).Runs ∨ (σ i).client = .exited ∨ (σ i).Refuses) :
    ∃ j ≥ i, ∀ k ≥ j, ¬ (σ k).Runs ∧ (σ k).client = .exited := by
  -- one of the processes exits first, the other one behind it
  obtain ⟨j, hij, hfirst⟩ : ∃ j ≥ i, ¬ (σ j).Runs ∨ (σ j).client = .exited := by
    rcases hend with hruns | hclient | hrefuses
    · exact ⟨i, le_rfl, .inl hruns⟩
    · exact ⟨i, le_rfl, .inr hclient⟩
    · exact h.refuses_exits hrefuses
  have hgone {k l : ℕ} (hkl : k ≤ l) : ¬ (σ k).Runs → ¬ (σ l).Runs :=
    h.run.keeps (P := fun s => ¬ s.Runs) (fun _ _ hs hstep => not_runs_of_step hs hstep) hkl
  have hleft {k l : ℕ} (hkl : k ≤ l) : (σ k).client = .exited → (σ l).client = .exited :=
    h.run.keeps (P := fun s => s.client = .exited) (fun _ _ hs hstep => exited_of_step hs hstep) hkl
  rcases hfirst with hruns | hclient
  · obtain ⟨k, hjk, hclient⟩ := h.client_exits hruns
    exact ⟨k, hij.trans hjk, fun l hkl => ⟨hgone (hjk.trans hkl) hruns, hleft hkl hclient⟩⟩
  · obtain ⟨k, hjk, hruns⟩ := h.monitor_exits hclient
    exact ⟨k, hij.trans hjk, fun l hkl => ⟨hgone hkl hruns, hleft (hjk.trans hkl) hclient⟩⟩

/-- The client exits behind the monitor. -/
theorem both_exit_sample :
    ∃ j ≥ 2, ∀ k ≥ j, ¬ (sampleRun k).Runs ∧ (sampleRun k).client = .exited :=
  fairRun_sampleRun.both_exit (.inl fun hruns => hruns true rfl)

end System

end Flowd.Privsep
