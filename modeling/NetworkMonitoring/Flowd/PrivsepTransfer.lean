import Mathlib.Data.List.TakeWhile
import NetworkMonitoring.Flowd.Privsep

/-!
# flowd — the configuration arrives as it was sent

What `send_config` writes is what `recv_config` reads: the memory of every element is read back,
whatever its padding and links hold, a string ends where its length says, and a list has as many
elements as its number. When the socket is closed before all of it has arrived, `recv_config`
fails, and nothing is replaced before everything has been read.

## Main result

* `recvConfig_sendConfig`: the collector has the configuration of the monitor, or its old one.
-/

namespace Flowd.Privsep

open Bytes Receivers

/-! ## The memory of an element -/

/-- A gap has as many bytes as it is asked for. -/
@[simp]
theorem Slack.length_gap (slack : Slack) (k n : ℕ) : (slack.gap k n).length = n :=
  List.length_ofFn

/-- An `int` has four bytes. -/
@[simp]
theorem length_leInt (v : Int32) : (leInt v).length = 4 := length_le32 v.toUInt32

/-- An `int` is read back. -/
@[simp]
theorem run_readInt (v : Int32) (bs : List UInt8) : readInt.run (leInt v ++ bs) = pure (v, bs) := by
  simp only [readInt, leInt, StateT.run_bind, StateT.run_pure, run_read32, pure_bind,
    Int32.toInt32_toUInt32]

/-- The bytes of a gap are passed over. -/
@[simp]
theorem run_skip (slack : Slack) (k n : ℕ) (bs : List UInt8) :
    (skip n).run (slack.gap k n ++ bs) = pure ((), bs) := by
  simp only [skip, Slack.gap, StateT.run_bind, StateT.run_pure, run_readOctets, pure_bind]

/-- The size of a `struct xaddr`. -/
@[simp]
theorem length_xaddrMemory (slack : Slack) (k : ℕ) (a : Xaddr) :
    (xaddrMemory (slack.gap k 2) a).length = 24 := by
  simp [xaddrMemory]

/-- An address is read back, whatever its gap holds. -/
@[simp]
theorem run_readXaddr (slack : Slack) (k : ℕ) (a : Xaddr) (bs : List UInt8) :
    readXaddr.run (xaddrMemory (slack.gap k 2) a ++ bs) = pure (a, bs) := by
  simp only [readXaddr, xaddrMemory, List.append_assoc, StateT.run_bind, StateT.run_pure,
    run_read16, run_skip, run_readOctets, run_read32, pure_bind]

/-- The size of a `struct listen_addr`. -/
@[simp]
theorem ListenAddr.length_memory (slack : Slack) (la : ListenAddr) :
    (la.memory slack).length = 56 := by
  simp [memory]

/-- An address to listen on is read back. -/
theorem ListenAddr.run_read (slack : Slack) (la : ListenAddr) :
    (ListenAddr.read.run (la.memory slack)).1 = la := by
  simp only [ListenAddr.read, memory, StateT.run_bind, StateT.run_pure, run_readXaddr, run_read16,
    run_skip, run_readInt, run_read64, pure_bind]
  rfl

/-- The size of a `struct join_group`. -/
@[simp]
theorem JoinGroup.length_memory (slack : Slack) (jg : JoinGroup) :
    (jg.memory slack).length = 40 := by
  simp [memory]

/-- A multicast group is read back. -/
theorem JoinGroup.run_read (slack : Slack) (jg : JoinGroup) :
    (JoinGroup.read.run (jg.memory slack)).1 = jg := by
  simp only [JoinGroup.read, memory, StateT.run_bind, StateT.run_pure, run_readXaddr, pure_bind]
  rfl

end Flowd.Privsep

namespace Flowd

open Bytes Privsep

/-- The size of a `struct allowed_device`. -/
@[simp]
theorem AllowedDevice.length_memory (slack : Slack) (ad : AllowedDevice) :
    (ad.memory slack).length = 48 := by
  simp [memory]

/-- An allowed device is read back. -/
theorem AllowedDevice.run_read (slack : Slack) (ad : AllowedDevice) :
    (AllowedDevice.read.run (ad.memory slack)).1 = ad := by
  simp only [AllowedDevice.read, memory, StateT.run_bind, StateT.run_pure, run_readXaddr,
    run_read32, pure_bind]
  rfl

/-- The size of a `struct filter_match`. -/
@[simp]
theorem FilterMatch.length_memory (slack : Slack) (m : FilterMatch) :
    (m.memory slack).length = 148 := by
  simp [memory]

/-- What a rule matches is read back. -/
@[simp]
theorem FilterMatch.run_read (slack : Slack) (m : FilterMatch) (bs : List UInt8) :
    FilterMatch.read.run (m.memory slack ++ bs) = pure (m, bs) := by
  simp only [FilterMatch.read, memory, List.append_assoc, StateT.run_bind, StateT.run_pure,
    run_readXaddr, run_read32, run_readInt, pure_bind]

/-- The size of a `struct filter_rule`. -/
@[simp]
theorem FilterRule.length_memory (slack : Slack) (fr : FilterRule) :
    (fr.memory slack).length = 200 := by
  simp [memory]

/-- A filter rule is read back with its counters. -/
theorem FilterRule.run_read (slack : Slack) (fr : FilterRule) :
    (FilterRule.read.run (fr.memory slack)).1 = fr := by
  have hlast : le64 fr.wins = le64 fr.wins ++ [] := (List.append_nil _).symm
  simp only [FilterRule.read, memory, StateT.run_bind, StateT.run_pure, run_skip, run_readInt,
    run_read32, FilterMatch.run_read, run_read64, pure_bind]
  rw [hlast]
  simp only [run_read64, pure_bind]
  rfl

end Flowd

namespace Flowd.Privsep

open Bytes Receivers

/-! ## Reads from the socket -/

variable {chunk : ℕ → ℕ}

/-- A read of bytes gives what `atomicio` has got, and leaves the rest. -/
theorem exec_recvBytes (n : ℕ) (input : List UInt8) (s : Collector) :
    (recvBytes chunk n).exec input s =
      (.ok (atomicioRead chunk n [] input), ((atomicioRead chunk n [] input).rest, s)) := rfl

/-- Bytes that are there are read. -/
theorem exec_recvBytes_append {n : ℕ} {bs : List UInt8} (h : bs.length = n) (rest : List UInt8)
    (s : Collector) :
    (recvBytes chunk n).exec (bs ++ rest) s = (.ok ⟨n, bs, rest⟩, (rest, s)) := by
  rw [exec_recvBytes, atomicioRead_eq, if_pos (by rw [List.length_append]; omega),
    List.length_nil, Nat.zero_add, List.nil_append, List.take_left' h, List.drop_left' h]

/-- When they are not all there, the input is used up. -/
theorem exec_recvBytes_short {n : ℕ} {bs : List UInt8} (h : bs.length < n) (s : Collector) :
    (recvBytes chunk n).exec bs s = (.ok ⟨0, bs, []⟩, ([], s)) := by
  rw [exec_recvBytes, atomicioRead_eq, if_neg (by omega), List.nil_append]

/-- Bytes that are read as a whole arrive as they are. -/
theorem transfers_recvAll {n : ℕ} {bs : List UInt8} (stop : Stop) (h : bs.length = n) :
    Transfers (recvAll chunk n stop) bs bs ∅ where
  takes rest s := by
    rw [recvAll, Receiver.exec_bind_ok (exec_recvBytes_append h rest s), if_neg (not_not.mpr rfl),
      Receiver.exec_pure]
  cut k hk s := by
    have hshort : (bs.take k).length < n := by
      rw [List.length_take]
      omega
    have hne : 0 ≠ n := by omega
    rw [recvAll, Receiver.exec_bind_ok (exec_recvBytes_short hshort s), if_pos hne,
      Receiver.exec_throw]
    exact .inl ⟨stop, [], rfl⟩

/-- A variable arrives when its bytes are read back to its value. -/
theorem transfers_recvVar {α : Type} {n : ℕ} {read : StateM (List UInt8) α} {bs : List UInt8}
    {a : α} (h : bs.length = n) (hread : (read.run bs).1 = a) :
    Transfers (recvVar chunk n read) bs a ∅ :=
  hread ▸ (transfers_recvAll .fails h).map fun bs => (read.run bs).1

/-- Four bytes alone are read back. -/
theorem run_read32_le32 (v : UInt32) : (read32.run (le32 v)).1 = v := by
  have hread := run_read32 v []
  rw [List.append_nil] at hread
  rw [hread]
  rfl

/-- Eight bytes alone are read back. -/
theorem run_read64_le64 (v : UInt64) : (read64.run (le64 v)).1 = v := by
  have hread := run_read64 v []
  rw [List.append_nil] at hread
  rw [hread]
  rfl

/-! ## Strings -/

/-- A string that can be sent with its length. -/
def CString.Fits (s : CString) : Prop := s.bytes ≠ [] ∧ s.bytes.length < 8192

instance (s : CString) : Decidable s.Fits := instDecidableAnd

/-- The bytes of a string with its length in front. -/
def CString.sent (s : CString) : List UInt8 := le64 (UInt64.ofNat s.bytes.length) ++ s.bytes

/-- A string has no zero byte, so `strdup` takes all of it. -/
theorem CString.strdup_bytes (s : CString) : strdup s.bytes = s := by
  have hall : s.bytes.takeWhile (· != 0) = s.bytes := by
    refine List.takeWhile_eq_self_iff.mpr fun b hb => ?_
    rw [bne_iff_ne]
    rintro rfl
    exact s.nonzero hb
  rw [strdup]
  simp only [hall]

/-- A string that fits is written with its length. -/
theorem privsepWriteString_some {s : CString} (h : s.Fits) (nullok : Bool) :
    privsepWriteString (some s) nullok = .ok s.sent := by
  have hlen := List.length_pos_iff.mpr h.1
  rw [privsepWriteString, if_neg (by omega)]
  rfl

/-- The bytes of a string are read up to its length, and not at all when some are missing. -/
theorem transfers_recvStringBytes (s : CString) :
    Transfers (recvStringBytes chunk s.bytes.length) s.bytes (some s) {none} where
  takes rest st := by
    rw [recvStringBytes, Receiver.exec_bind_ok (exec_recvBytes_append rfl rest st),
      if_neg (not_not.mpr rfl), Receiver.exec_pure, s.strdup_bytes]
  cut k hk st := by
    have hshort : (s.bytes.take k).length < s.bytes.length := by
      rw [List.length_take]
      omega
    have hne : 0 ≠ s.bytes.length := by omega
    rw [recvStringBytes, Receiver.exec_bind_ok (exec_recvBytes_short hshort st), if_pos hne,
      Receiver.exec_pure]
    exact .inr ⟨none, rfl, rfl⟩

/-- What `privsep_read_string` does once it has read a length. -/
theorem privsepReadString_eq (nullok : Bool) : privsepReadString chunk nullok = (do
    let bs ← recvAll chunk 8 .exits
    if nullok = true ∧ (read64.run bs).1.toNat = 0 then return none
    else if (read64.run bs).1.toNat ≤ 0 ∨ 8192 ≤ (read64.run bs).1.toNat then throw .exits
    else recvStringBytes chunk (read64.run bs).1.toNat) := rfl

/-- A string is read, or NULL when the input ends in it. -/
theorem transfers_privsepReadString {s : CString} (h : s.Fits) (nullok : Bool) :
    Transfers (privsepReadString chunk nullok) s.sent (some s) {none} := by
  have hpos := List.length_pos_iff.mpr h.1
  have hlen : (UInt64.ofNat s.bytes.length).toNat = s.bytes.length :=
    UInt64.toNat_ofNat_of_lt' (lt_trans h.2 (by decide))
  rw [privsepReadString_eq]
  refine (transfers_recvAll .exits (length_le64 _)).bind_strict ?_
  rw [run_read64_le64, hlen, if_neg (by omega), if_neg (by have := h.2; omega)]
  exact transfers_recvStringBytes s

/-- NULL is sent as the length 0. -/
theorem transfers_privsepReadString_null :
    Transfers (privsepReadString chunk true) (le64 0) none ∅ := by
  have hread : Transfers (privsepReadString chunk true) (le64 0 ++ []) none ∅ := by
    rw [privsepReadString_eq]
    refine (transfers_recvAll .exits (length_le64 0)).bind_strict ?_
    rw [run_read64_le64, if_pos ⟨rfl, rfl⟩]
    exact Transfers.pure none
  rwa [List.append_nil] at hread

/-- A string that may be NULL. -/
def sentString (s : Option CString) : List UInt8 := s.elim (le64 0) CString.sent

/-- Where NULL is allowed, it is written as the length 0. -/
theorem privsepWriteString_nullok {s : Option CString} (h : ∀ t ∈ s, t.Fits) :
    privsepWriteString s true = .ok (sentString s) := by
  cases s with
  | none => rfl
  | some s => exact privsepWriteString_some (h s rfl) true

/-- A string that may be NULL arrives. -/
theorem transfers_nullok {s : Option CString} (h : ∀ t ∈ s, t.Fits) :
    Transfers (privsepReadString chunk true) (sentString s) s {none} := by
  cases s with
  | none =>
    refine ⟨transfers_privsepReadString_null.takes, fun n hn st => .inl ?_⟩
    exact transfers_privsepReadString_null.halts hn st
  | some s => exact transfers_privsepReadString (h s rfl) true

/-- Without any input a length cannot be read. -/
theorem halts_privsepReadString (nullok : Bool) :
    Halts (privsepReadString chunk nullok : Recv (Option CString)) [] := by
  have hfirst : Transfers (recvAll chunk 8 .exits) (le64 0) (le64 0) ∅ :=
    transfers_recvAll .exits (length_le64 0)
  rw [privsepReadString_eq]
  refine (hfirst.halts_nil fun hnil => ?_).bind _
  exact absurd (congrArg List.length hnil) (by decide)

/-- The name of the pid file arrives. -/
theorem transfers_recvPidFile {s : CString} (h : s.Fits) :
    Transfers (recvPidFile chunk) s.sent s ∅ := by
  have hread : Transfers (recvPidFile chunk) (s.sent ++ []) s ∅ := by
    rw [recvPidFile]
    refine (transfers_privsepReadString h false).bind (Transfers.pure s) fun r hr => ?_
    obtain rfl := hr
    exact halts_throw Stop.fails []
  rwa [List.append_nil] at hread

/-! ## Lists -/

/-- A count that is not silly arrives. -/
theorem transfers_recvCount {silly : ℕ → Bool} {n : ℕ} (hn : n < 2 ^ 32) (h : silly n = false) :
    Transfers (recvCount chunk silly) (le32 (UInt32.ofNat n)) n ∅ := by
  have htoNat : (UInt32.ofNat n).toNat = n := UInt32.toNat_ofNat_of_lt' hn
  have hcount : Transfers (recvCount chunk silly) (le32 (UInt32.ofNat n) ++ []) n ∅ := by
    rw [recvCount]
    refine (transfers_recvVar (length_le32 _) (run_read32_le32 _)).bind_strict ?_
    rw [htoNat, if_neg (by rw [h]; decide)]
    exact Transfers.pure n
  rwa [List.append_nil] at hcount

/-- A queue is read when its elements are. -/
theorem transfers_recvList {α : Type} {silly : ℕ → Bool} {element : Recv α}
    {memory : Slack → α → List UInt8} {slack : ℕ → Slack} {xs : List α}
    (hn : xs.length < 2 ^ 32) (hsilly : silly xs.length = false)
    (h : ∀ x ∈ xs, ∀ slack, Transfers element (memory slack x) x ∅) :
    Transfers (recvList chunk silly element)
      (writeCount xs ++ writeElements memory slack xs) xs ∅ := by
  set ps := xs.zipIdx.map fun p => (memory (slack p.2) p.1, p.1) with hps
  have hlen : ps.length = xs.length := by simp [hps]
  have hfst : ps.flatMap Prod.fst = writeElements memory slack xs := by
    rw [hps, List.flatMap_map]
    rfl
  have hsnd : ps.map Prod.snd = xs := by
    rw [hps, List.map_map]
    exact List.zipIdx_map_fst 0 xs
  have helements : ∀ p ∈ ps, Transfers element p.1 p.2 ∅ := by
    intro p hp
    obtain ⟨q, hq, rfl⟩ := List.mem_map.mp hp
    exact h q.1 (List.fst_mem_of_mem_zipIdx hq) (slack q.2)
  have hcollect := Transfers.collect helements []
  rw [hlen, hfst, hsnd, List.nil_append] at hcollect
  exact (transfers_recvCount hn hsilly).bind_strict hcollect

/-- A listening address without a descriptor is read. -/
theorem transfers_recvListenAddr (receiveFd : Recv Int32) {la : ListenAddr} (hfd : la.fd = -1)
    (slack : Slack) :
    Transfers (recvListenAddr chunk receiveFd) (la.memory slack) la ∅ := by
  have hread : Transfers (recvListenAddr chunk receiveFd) (la.memory slack ++ []) la ∅ := by
    rw [recvListenAddr]
    refine (transfers_recvVar (la.length_memory slack) (la.run_read slack)).bind_strict ?_
    rw [if_neg (not_not.mpr hfd)]
    exact Transfers.pure la
  rwa [List.append_nil] at hread

/-! ## Configurations -/

/-- A configuration that the monitor sends: its strings are neither empty nor too long, there is
a name for the file of the process id, and the numbers of elements are not silly. -/
structure FlowdConfig.Sendable (conf : FlowdConfig) : Prop where
  log_file : ∀ s ∈ conf.logFile, s.Fits
  log_socket : ∀ s ∈ conf.logSocket, s.Fits
  pid_file : ∃ s, conf.pidFile = some s ∧ s.Fits
  listen_addrs : 1 ≤ conf.listenAddrs.length ∧ conf.listenAddrs.length ≤ 8192
  no_descriptors : ∀ la ∈ conf.listenAddrs, la.fd = -1
  filter_list : conf.filterList.length ≤ 2 ^ 20
  allowed_devices : conf.allowedDevices.length ≤ 2 ^ 20
  join_groups : conf.joinGroups.length ≤ 2 ^ 20

/-- Without descriptors the listening addresses are written like the other elements. -/
theorem writeListenAddrs_eq (sendFd : Int32 → Except Stop (List UInt8)) (slack : ℕ → Slack)
    {las : List ListenAddr} (h : ∀ la ∈ las, la.fd = -1) :
    writeListenAddrs sendFd slack las = .ok (writeElements ListenAddr.memory slack las) := by
  have hpieces : las.zipIdx.mapM (fun p => do
      let passed ← passFd sendFd p.1.fd
      return p.1.memory (slack p.2) ++ passed) =
        .ok (las.zipIdx.map fun p => p.1.memory (slack p.2)) := by
    refine ErrorLoops.mapM_eq_ok fun p hp => ?_
    rw [passFd, if_neg (not_not.mpr (h p.1 (List.fst_mem_of_mem_zipIdx hp))), ErrorLoops.ok_bind,
      List.append_nil]
    rfl
  rw [writeListenAddrs, hpieces, writeElements, List.flatMap_def]
  rfl

/-- The bytes of a configuration. -/
def FlowdConfig.sent (mem : SenderMemory) (conf : FlowdConfig) (pidFile : CString) : List UInt8 :=
  sentString conf.logFile ++ (sentString conf.logSocket ++ (le64 conf.logSocketBufsiz ++
    (pidFile.sent ++ (le32 conf.storeMask ++ (le32 conf.opts ++
    ((writeCount conf.listenAddrs ++
      writeElements ListenAddr.memory mem.listenAddrs conf.listenAddrs) ++
    ((writeCount conf.filterList ++
      writeElements FilterRule.memory mem.filterList conf.filterList) ++
    ((writeCount conf.allowedDevices ++
      writeElements AllowedDevice.memory mem.allowedDevices conf.allowedDevices) ++
    (writeCount conf.joinGroups ++
      writeElements JoinGroup.memory mem.joinGroups conf.joinGroups)))))))))

/-- The bytes of a configuration, with those of the listening addresses and their number given. -/
def FlowdConfig.sentAround (mem : SenderMemory) (conf : FlowdConfig) (pidFile : CString)
    (listens : List UInt8) : List UInt8 :=
  sentString conf.logFile ++ (sentString conf.logSocket ++ (le64 conf.logSocketBufsiz ++
    (pidFile.sent ++ (le32 conf.storeMask ++ (le32 conf.opts ++ (listens ++
    ((writeCount conf.filterList ++
      writeElements FilterRule.memory mem.filterList conf.filterList) ++
    ((writeCount conf.allowedDevices ++
      writeElements AllowedDevice.memory mem.allowedDevices conf.allowedDevices) ++
    (writeCount conf.joinGroups ++
      writeElements JoinGroup.memory mem.joinGroups conf.joinGroups)))))))))

/-- A configuration is written when its strings and its listening addresses are. -/
theorem sendConfig_of_listens {sendFd : Int32 → Except Stop (List UInt8)} (mem : SenderMemory)
    {conf : FlowdConfig} (hlog : ∀ s ∈ conf.logFile, s.Fits) (hsock : ∀ s ∈ conf.logSocket, s.Fits)
    {pidFile : CString} (hpid : conf.pidFile = some pidFile) (hfits : pidFile.Fits)
    {listens : List UInt8}
    (hlistens : writeListenAddrs sendFd mem.listenAddrs conf.listenAddrs = .ok listens) :
    sendConfig sendFd mem conf =
      .ok (conf.sentAround mem pidFile (writeCount conf.listenAddrs ++ listens)) := by
  rw [sendConfig, privsepWriteString_nullok hlog, privsepWriteString_nullok hsock, hpid,
    privsepWriteString_some hfits, hlistens, FlowdConfig.sentAround]
  simp only [ErrorLoops.ok_bind, List.append_assoc]
  rfl

/-- What is sent of a configuration that can be sent. -/
theorem sendConfig_eq (sendFd : Int32 → Except Stop (List UInt8)) (mem : SenderMemory)
    {conf : FlowdConfig} (h : conf.Sendable) {pidFile : CString}
    (hpid : conf.pidFile = some pidFile) (hfits : pidFile.Fits) :
    sendConfig sendFd mem conf = .ok (conf.sent mem pidFile) :=
  sendConfig_of_listens mem h.log_file h.log_socket hpid hfits
    (writeListenAddrs_eq sendFd mem.listenAddrs h.no_descriptors)

/-- The count of the listeners is one that the receiver takes. -/
theorem sillyListens_eq_false {n : ℕ} (h : 1 ≤ n ∧ n ≤ 8192) :
    (fun n : ℕ => n == 0 || n > 8192) n = false := by
  simp only [Bool.or_eq_false_iff, beq_eq_false_iff_ne, decide_eq_false_iff_not]
  omega

/-- The collector reads the whole configuration, when it reads the listening addresses. -/
theorem transfers_recvNewconf_of_listens {receiveFd : Recv Int32} (mem : SenderMemory)
    {conf : FlowdConfig} (h : conf.Sendable) {pidFile : CString}
    (hpid : conf.pidFile = some pidFile) (hfits : pidFile.Fits) {las : List ListenAddr}
    {listens : List UInt8}
    (hlistens : Transfers (recvList chunk (fun n => n == 0 || n > 8192)
      (recvListenAddr chunk receiveFd)) listens las ∅) :
    Transfers (recvNewconf chunk receiveFd) (conf.sentAround mem pidFile listens)
      { conf with listenAddrs := las } ∅ := by
  have hsilly : ∀ {n : ℕ}, n ≤ 2 ^ 20 → sillyList n = false := by
    intro n hn
    simp [sillyList]
    omega
  have hfilters := h.filter_list
  have hdevices := h.allowed_devices
  have hgroups := h.join_groups
  have hvar64 : ∀ v : UInt64, Transfers (recvVar chunk 8 read64) (le64 v) v ∅ :=
    fun v => transfers_recvVar (length_le64 v) (run_read64_le64 v)
  have hvar32 : ∀ v : UInt32, Transfers (recvVar chunk 4 read32) (le32 v) v ∅ :=
    fun v => transfers_recvVar (length_le32 v) (run_read32_le32 v)
  rw [recvNewconf, FlowdConfig.sentAround]
  -- a string that ends early leaves nothing for the read behind it
  refine (transfers_nullok h.log_file).bind ?_ fun _ _ => (halts_privsepReadString true).bind _
  refine (transfers_nullok h.log_socket).bind ?_ fun _ _ => ?_
  · refine (hvar64 _).bind_strict <| (transfers_recvPidFile hfits).bind_strict <|
      (hvar32 _).bind_strict <| (hvar32 _).bind_strict ?_
    -- the four lists
    refine hlistens.bind_strict ?_
    refine (transfers_recvList (by omega) (hsilly hfilters) fun fr _ slack =>
      transfers_recvVar (fr.length_memory slack) (fr.run_read slack)).bind_strict ?_
    refine (transfers_recvList (by omega) (hsilly hdevices) fun ad _ slack =>
      transfers_recvVar (ad.length_memory slack) (ad.run_read slack)).bind_strict ?_
    have hlast : Transfers (recvList chunk sillyList (recvVar chunk 40 JoinGroup.read))
        (writeCount conf.joinGroups ++
          writeElements JoinGroup.memory mem.joinGroups conf.joinGroups) conf.joinGroups ∅ :=
      transfers_recvList (by omega) (hsilly hgroups) fun jg _ slack =>
        transfers_recvVar (jg.length_memory slack) (jg.run_read slack)
    rw [hpid]
    exact hlast.map fun groups : List JoinGroup =>
      ({ conf with pidFile := some pidFile, listenAddrs := las, joinGroups := groups } :
        FlowdConfig)
  · refine ((hvar64 0).halts_nil fun hnil => ?_).bind _
    exact absurd (congrArg List.length hnil) (by decide)

/-- The collector reads the whole configuration before it replaces its own. -/
theorem transfers_recvNewconf (receiveFd : Recv Int32) (mem : SenderMemory) {conf : FlowdConfig}
    (h : conf.Sendable) {pidFile : CString} (hpid : conf.pidFile = some pidFile)
    (hfits : pidFile.Fits) :
    Transfers (recvNewconf chunk receiveFd) (conf.sent mem pidFile) conf ∅ := by
  have hle := h.listen_addrs.2
  refine transfers_recvNewconf_of_listens mem h hpid hfits ?_
  exact transfers_recvList (by omega) (sillyListens_eq_false h.listen_addrs) fun la hla slack =>
    transfers_recvListenAddr receiveFd (h.no_descriptors la hla) slack

/-! ## The replacement -/

/-- All elements move to the front of the other queue, in their order. -/
theorem moveQueue_eq {α : Type} (src dst : List α) : moveQueue src dst = ([], src ++ dst) := by
  induction src using List.reverseRecOn generalizing dst with
  | nil =>
    rw [moveQueue]
    rfl
  | append_singleton src x ih =>
    rw [moveQueue]
    split
    case h_1 hnone => exact absurd hnone (by simp)
    case h_2 y hlast =>
      rw [List.getLast?_concat, Option.some_inj] at hlast
      subst hlast
      rw [List.dropLast_concat, ih, List.append_assoc]
      rfl

/-- The descriptors of the old listeners are closed, those that are open. -/
theorem freeListenAddrs_eq (las : List ListenAddr) (closed : List Int32) :
    freeListenAddrs las closed = closed ++ (las.map ListenAddr.fd).filter (· != -1) := by
  induction las generalizing closed with
  | nil => exact (List.append_nil closed).symm
  | cons la las ih =>
    rw [freeListenAddrs, ih, List.map_cons]
    by_cases hfd : la.fd = -1
    · rw [if_neg (not_not.mpr hfd), List.filter_cons_of_neg (by simpa using hfd)]
    · rw [if_pos hfd, List.filter_cons_of_pos (by simpa using hfd), List.append_assoc]
      rfl

/-- The collector has the new configuration, and its old sockets are closed. -/
theorem replaceConf_eq (s : Collector) (newconf : FlowdConfig) :
    replaceConf s newconf =
      { conf := newconf
        closed := s.closed ++ (s.conf.listenAddrs.map ListenAddr.fd).filter (· != -1) } := by
  rw [replaceConf]
  simp only [moveQueue_eq, List.append_nil, freeListenAddrs_eq]

/-- `recv_config` on what `send_config` writes returns 0 and leaves the configuration of the sender
behind. When the input ends earlier, it does not return 0 and leaves the collector as it is. -/
theorem recvConfig_sendConfig (sendFd : Int32 → Except Stop (List UInt8)) (mem : SenderMemory)
    {conf : FlowdConfig} (h : conf.Sendable) (chunk : ℕ → ℕ) (receiveFd : Recv Int32) :
    ∃ sent, sendConfig sendFd mem conf = .ok sent ∧
      (∀ (rest : List UInt8) (s : Collector),
        (recvConfig chunk receiveFd).exec (sent ++ rest) s =
          (.ok 0, (rest, {
            conf := conf
            closed := s.closed ++ (s.conf.listenAddrs.map ListenAddr.fd).filter (· != -1) }))) ∧
      ∀ input, input <+: sent → input ≠ sent → ∀ s : Collector,
        ∃ stop rest, (recvConfig chunk receiveFd).exec input s = (.error stop, (rest, s)) := by
  obtain ⟨pidFile, hpid, hfits⟩ := h.pid_file
  have htransfers : Transfers (recvNewconf chunk receiveFd) (conf.sent mem pidFile) conf ∅ :=
    transfers_recvNewconf receiveFd mem h hpid hfits
  refine ⟨conf.sent mem pidFile, sendConfig_eq sendFd mem h hpid hfits, fun rest s => ?_, ?_⟩
  · rw [recvConfig, Receiver.exec_bind_ok (htransfers.takes rest s), ← replaceConf_eq]
    rfl
  · intro input hpre hne
    obtain ⟨n, hn, rfl⟩ : ∃ n, n < (conf.sent mem pidFile).length ∧
        input = (conf.sent mem pidFile).take n := by
      refine ⟨input.length, ?_, List.prefix_iff_eq_take.mp hpre⟩
      exact lt_of_le_of_ne hpre.length_le fun hlen => hne (hpre.eq_of_length hlen)
    exact (htransfers.halts hn).bind _

/-- A configuration with one listening address and one allowed device. -/
def sampleConf : FlowdConfig where
  logFile := some ⟨[0x66], by decide⟩
  pidFile := some ⟨[0x70, 0x69, 0x64], by decide⟩
  storeMask := storeFieldAll
  listenAddrs := [
    { addr := Xaddr.copy {} [0, 0, 0, 0] afInet, port := 9995, fd := -1, bufsiz := 0 }]
  allowedDevices := [{ addr := Xaddr.copy {} [10, 0, 0, 1] afInet, masklen := 8 }]

/-- The sample configuration can be sent. -/
theorem sampleConf_sendable : sampleConf.Sendable where
  log_file s hs := by
    obtain rfl := Option.some.inj hs
    decide
  log_socket s hs := nomatch hs
  pid_file := ⟨⟨[0x70, 0x69, 0x64], by decide⟩, rfl, by decide⟩
  listen_addrs := by decide
  no_descriptors la hla := by
    rw [List.mem_singleton.mp hla]
  filter_list := by decide
  allowed_devices := by decide
  join_groups := by decide

/-- The padding and the links of a monitor that happen to be zero. -/
def zeroMemory : SenderMemory := ⟨fun _ _ => 0, fun _ _ => 0, fun _ _ => 0, fun _ _ => 0⟩

/-- A collector with one open socket gets the configuration, read a byte at a time. -/
theorem recvConfig_sampleConf :
    ∃ sent, sendConfig (fun _ => .error .exits) zeroMemory sampleConf = .ok sent ∧
      (recvConfig (fun _ => 1) (throw .exits)).exec sent
          { conf := { listenAddrs := [{ addr := {}, port := 9995, fd := 4, bufsiz := 0 }] } } =
        (.ok 0, ([], { conf := sampleConf, closed := [4] })) := by
  obtain ⟨sent, hsent, hread, -⟩ := recvConfig_sendConfig (fun _ => .error .exits) zeroMemory
    sampleConf_sendable (fun _ => 1) (throw .exits)
  have hrun := hread []
    { conf := { listenAddrs := [{ addr := {}, port := 9995, fd := 4, bufsiz := 0 }] } }
  rw [List.append_nil] at hrun
  exact ⟨sent, hsent, hrun⟩

end Flowd.Privsep
