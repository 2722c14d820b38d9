import Mathlib.Logic.Function.Basic
import Mathlib.Data.Fin.VecNotation
import Mathlib.Data.Fintype.Pi
import Mathlib.Data.UInt
import NetworkMonitoring.Foundations.InetText
import NetworkMonitoring.Foundations.LittleEndian
import NetworkMonitoring.Foundations.OrderedSet

/-!
# softflowd — flows, expiry events and their order

The records of `softflowd.h` and the two comparison functions of `softflowd.c`. A C array of `n`
elements is a function from `Fin n`; the two slots of the per-direction arrays are indexed by
`Dir`, and `d.other` is the source's `ndx ^ 1`. A pointer is the number of the node it designates
(`Flow.ptr`, `Expiry.ptr`), and NULL is `none`.

A use of memory that C leaves undefined ends the call in a `Fault`.

The two trees are the lists of their nodes in traversal order (`Foundations.OrderedSet`). An
expiry node is compared through its flow pointer, so `expiryCompare` also takes the flow tree.
-/

namespace Softflowd

open InetText OrderedSet

/-! ## Records -/

/-- The index `ndx` of the per-direction arrays. -/
abbrev Dir := Fin 2

/-- The numerals `0` and `1` of `Dir` rest on this instance. -/
instance Dir.neZero_two : NeZero 2 := ⟨Nat.succ_ne_zero 1⟩

/-- The opposite direction, `ndx ^ 1`. -/
def Dir.other (d : Dir) : Dir := 1 - d

@[simp]
theorem Dir.other_zero : Dir.other 0 = 1 := rfl

@[simp]
theorem Dir.other_one : Dir.other 1 = 0 := rfl

@[simp]
theorem Dir.other_ne (d : Dir) : d.other ≠ d := by
  fin_cases d <;> decide

@[simp]
theorem Dir.ne_other (d : Dir) : d ≠ d.other := (Dir.other_ne d).symm

@[simp]
theorem Dir.other_other (d : Dir) : d.other.other = d := by
  fin_cases d <;> rfl

/-- A direction is the given one or the other one. -/
theorem Dir.eq_or_eq_other (ndx d : Dir) : d = ndx ∨ d = ndx.other := by
  revert ndx d
  decide

/-- `AF_INET` on Linux. -/
def afInet : ℤ := 2

/-- `AF_INET6` on Linux. -/
def afInet6 : ℤ := 10

/-- `IPPROTO_ICMP`. -/
def ipprotoIcmp : UInt8 := 1

/-- `IPPROTO_TCP`. -/
def ipprotoTcp : UInt8 := 6

/-- `IPPROTO_UDP`. -/
def ipprotoUdp : UInt8 := 17

/-- `IPPROTO_ICMPV6`. -/
def ipprotoIcmpv6 : UInt8 := 58

/-- `DEFAULT_MAXIMUM_NUMBER_OF_EMULATORS`, the size of every monitor table. -/
abbrev maxEmulators : ℕ := 50

/-- `struct timeval`. -/
structure Timeval where
  sec : ℤ := 0
  usec : ℤ := 0
  deriving DecidableEq, Repr

/-- `struct PER_MONITOR_STAT`. -/
structure PerMonitorStat where
  octets : UInt32 := 0
  packets : UInt32 := 0
  deriving DecidableEq, Repr

/-- The address union of a flow, by its 16 bytes. -/
abbrev FlowAddr := Fin 16 → UInt8

/-- The `v4` member of the address union. -/
def FlowAddr.v4 (a : FlowAddr) : InAddr := fun i => a (i.castLE InAddr.size_le)

/-- Assign the `v4` member of the address union; the other twelve bytes stay. -/
def FlowAddr.setV4 (a : FlowAddr) (x : InAddr) : FlowAddr :=
  fun i => if h : i.val < 4 then x ⟨i.val, h⟩ else a i

@[simp]
theorem FlowAddr.v4_setV4 (a : FlowAddr) (x : InAddr) : (a.setV4 x).v4 = x := by
  ext i
  simp [FlowAddr.v4, FlowAddr.setV4]

/-- `struct FLOW`. Its default value is the record after `memset (&tmp, 0, sizeof tmp)`. -/
structure Flow where
  /-- The address of the record. -/
  ptr : ℕ := 0
  /-- Pointer to the expiry record. -/
  expiry : Option ℕ := none
  af : ℤ := 0
  ip6Flowlabel : Dir → UInt32 := fun _ => 0
  /-- Endpoint addresses, in network byte order. -/
  addr : Dir → FlowAddr := fun _ _ => 0
  /-- Endpoint ports, as stored: a big-endian port loaded on a little-endian host. -/
  port : Dir → UInt16 := fun _ => 0
  tcpFlags : Dir → UInt8 := fun _ => 0
  protocol : UInt8 := 0
  flowSeq : UInt64 := 0
  flowStart : Timeval := {}
  flowLast : Timeval := {}
  octets : Dir → UInt32 := fun _ => 0
  packets : Dir → UInt32 := fun _ => 0
  /-- `monitor_stat_0` and `monitor_stat_1`. -/
  monitorStat : Dir → Fin maxEmulators → PerMonitorStat := fun _ _ => {}
  /-- `emulator_monitor_adr_0` and `emulator_monitor_adr_1`. -/
  emulatorMonitorAdr : Dir → Fin maxEmulators → InAddr := fun _ _ _ => 0
  selectedMonitor : InAddr := fun _ => 0
  selectedMonitorIndex : UInt16 := 0
  numberOfMonitors : Dir → UInt32 := fun _ => 0
  asSrc : Dir → UInt32 := fun _ => 0
  asDst : Dir → UInt32 := fun _ => 0

/-- The `reason` of an expiry event. -/
inductive Reason where
  | general | tcp | tcpRst | tcpFin | udp | icmp | maxlife | overbytes | overflows | flush
  deriving DecidableEq, Repr

/-- `struct EXPIRY`. -/
structure Expiry where
  /-- The address of the record. -/
  ptr : ℕ
  /-- Pointer to the flow. -/
  flow : ℕ
  expiresAt : UInt32
  reason : Reason
  deriving DecidableEq, Repr

/-- What keeps a call from returning: undefined behaviour, or a loop without end. -/
inductive Fault where
  /-- A text is copied into a buffer that is too small for it. -/
  | textBuffer
  /-- A monitor table is accessed outside its bounds. -/
  | monitorTable
  /-- A NULL or dangling pointer is followed. -/
  | pointer
  /-- A loop does not end. -/
  | noReturn
  deriving DecidableEq, Repr

/-! ## Comparison functions -/

/-- `memcmp`, by the sign of its result. -/
def memcmp {n : ℕ} (a b : Fin n → UInt8) : Ordering := compare (List.ofFn a) (List.ofFn b)

/-- `flow_compare`. -/
def flowCompare (a b : Flow) : Ordering :=
  if a.af ≠ b.af then (if a.af > b.af then .gt else .lt)
  else if memcmp (a.addr 0) (b.addr 0) ≠ .eq then memcmp (a.addr 0) (b.addr 0)
  else if memcmp (a.addr 1) (b.addr 1) ≠ .eq then memcmp (a.addr 1) (b.addr 1)
  else if a.protocol ≠ b.protocol then (if a.protocol > b.protocol then .gt else .lt)
  else if a.port 0 ≠ b.port 0 then
    (if Bytes.htons (a.port 0) > Bytes.htons (b.port 0) then .gt else .lt)
  else if a.port 1 ≠ b.port 1 then
    (if Bytes.htons (a.port 1) > Bytes.htons (b.port 1) then .gt else .lt)
  else .eq

/-- The `flow_seq` of the flow at address `p`. -/
def flowSeqAt (flows : List Flow) (p : ℕ) : UInt64 :=
  ((flows.find? fun f => f.ptr == p).map Flow.flowSeq).getD 0

/-- `expiry_compare`; `flows` is the flow tree the flow pointers of `a` and `b` point into. -/
def expiryCompare (flows : List Flow) (a b : Expiry) : Ordering :=
  if a.expiresAt ≠ b.expiresAt then (if a.expiresAt > b.expiresAt then .gt else .lt)
  -- Make expiry entries unique by comparing flow sequence
  else if flowSeqAt flows a.flow ≠ flowSeqAt flows b.flow then
    (if flowSeqAt flows a.flow > flowSeqAt flows b.flow then .gt else .lt)
  else .eq

/-! ## The comparison functions are lexicographic orders -/

/-- A C comparison of two ports, falling through to `k` when they are equal. -/
theorem ite_port_eq_then (x y : UInt16) (k : Ordering) :
    (if x ≠ y then (if Bytes.htons x > Bytes.htons y then .gt else .lt) else k) =
      (compare (Bytes.htons x) (Bytes.htons y)).then k := by
  have hinj : x ≠ y ↔ Bytes.htons x ≠ Bytes.htons y := by
    refine not_congr ⟨congrArg _, fun h => ?_⟩
    simpa using congrArg Bytes.htons h
  simp only [hinj]
  exact ite_ne_eq_then _ _ k

/-- A C comparison of two byte arrays, falling through to `k` when they are equal. -/
theorem ite_memcmp_eq_then {n : ℕ} (x y : Fin n → UInt8) (k : Ordering) :
    (if memcmp x y ≠ .eq then memcmp x y else k) = (memcmp x y).then k := by
  cases memcmp x y <;> rfl

/-- `flow_compare` is the lexicographic order on family, addresses, protocol and ports. -/
theorem flowCompare_eq_compareLex :
    flowCompare = compareLex (compareOn Flow.af)
      (compareLex (compareOn fun f => List.ofFn (f.addr 0))
        (compareLex (compareOn fun f => List.ofFn (f.addr 1))
          (compareLex (compareOn Flow.protocol)
            (compareLex (compareOn fun f => Bytes.htons (f.port 0))
              (compareOn fun f => Bytes.htons (f.port 1)))))) := by
  ext a b
  have hthen : ∀ o : Ordering, o.then .eq = o := by decide
  rw [flowCompare, ite_ne_eq_then, ite_memcmp_eq_then, ite_memcmp_eq_then, ite_ne_eq_then,
    ite_port_eq_then, ite_port_eq_then, hthen]
  rfl

/-- `expiry_compare` is the lexicographic order on expiry time and flow sequence number. -/
theorem expiryCompare_eq_compareLex (flows : List Flow) :
    expiryCompare flows = compareLex (compareOn Expiry.expiresAt)
      (compareOn fun e => flowSeqAt flows e.flow) := by
  ext a b
  have hthen : ∀ o : Ordering, o.then .eq = o := by decide
  rw [expiryCompare, ite_ne_eq_then, ite_ne_eq_then, hthen]
  rfl

instance : Std.TransCmp flowCompare := by
  rw [flowCompare_eq_compareLex]
  infer_instance

instance (flows : List Flow) : Std.TransCmp (expiryCompare flows) := by
  rw [expiryCompare_eq_compareLex]
  infer_instance

/-- The identity of a flow: what `flow_compare` looks at. -/
def Flow.key (f : Flow) : ℤ × FlowAddr × FlowAddr × UInt8 × UInt16 × UInt16 :=
  (f.af, f.addr 0, f.addr 1, f.protocol, f.port 0, f.port 1)

/-- Two flows compare equal exactly when their identities agree. -/
theorem flowCompare_eq_iff {a b : Flow} : flowCompare a b = .eq ↔ a.key = b.key := by
  have hport : ∀ x y : UInt16, Bytes.htons x = Bytes.htons y ↔ x = y := fun x y =>
    ⟨fun h => by simpa using congrArg Bytes.htons h, congrArg _⟩
  simp only [flowCompare_eq_compareLex, compareLex, compareOn, Ordering.then_eq_eq,
    Std.compare_eq_iff_eq, hport, List.ofFn_injective.eq_iff, Flow.key, Prod.mk.injEq]

/-- Two expiry events compare equal exactly when time and flow sequence number agree. -/
theorem expiryCompare_eq_iff {flows : List Flow} {a b : Expiry} :
    expiryCompare flows a b = .eq ↔
      a.expiresAt = b.expiresAt ∧ flowSeqAt flows a.flow = flowSeqAt flows b.flow := by
  simp only [expiryCompare_eq_compareLex, compareLex, compareOn, Ordering.then_eq_eq,
    Std.compare_eq_iff_eq]

end Softflowd
