import NetworkMonitoring.Flowd.Store
import NetworkMonitoring.Foundations.MaskedBytes

/-!
# flowd — swapping the bytes of a record

`store_swab_flow` brings the words of a record from network to host order or back, by a list of its
fields with their widths. What the swaps do depends on the byte order of the host; the one for
64-bit words is written out in `store.c`.

* `swap64_eq`: the swap that is written out reverses the bytes of a word.
* `storeSwabFlow_storeSwabFlow`: swapping to one order and back gives the record with its source
  identifier cut to 16 bits, which is the width it has in the list.
* `storeSwabFlow_invertible_iff`: so the record is given back when its source identifier fits.
-/

namespace Flowd

open Bytes

/-- The byte order of the host. -/
inductive HostOrder where
  | little | big
  deriving DecidableEq

/-- The expression for the bytes of `v` in the opposite order, in `store_ntohll` and
`store_htonll`. -/
def swap64 (v : UInt64) : UInt64 :=
  (v &&& 0xff) <<< 56 |||
  (v &&& 0xff00) <<< 40 |||
  (v &&& 0xff0000) <<< 24 |||
  (v &&& 0xff000000) <<< 8 |||
  (v &&& 0xff00000000) >>> 8 |||
  (v &&& 0xff0000000000) >>> 24 |||
  (v &&& 0xff000000000000) >>> 40 |||
  (v &&& 0xff00000000000000) >>> 56

/-- The swap that is written out is that of a 64-bit `htonl`. -/
theorem swap64_eq (v : UInt64) : swap64 v = htonll v := by
  have h₀ : ((v &&& 0xff) <<< 56).toNat = v.toNat / 2 ^ 0 % 256 * 2 ^ 56 :=
    toNat_up (k := 0) (j := 56) rfl rfl (by decide)
  have h₁ : ((v &&& 0xff00) <<< 40).toNat = v.toNat / 2 ^ 8 % 256 * 2 ^ 48 :=
    toNat_up (k := 8) (j := 40) rfl rfl (by decide)
  have h₂ : ((v &&& 0xff0000) <<< 24).toNat = v.toNat / 2 ^ 16 % 256 * 2 ^ 40 :=
    toNat_up (k := 16) (j := 24) rfl rfl (by decide)
  have h₃ : ((v &&& 0xff000000) <<< 8).toNat = v.toNat / 2 ^ 24 % 256 * 2 ^ 32 :=
    toNat_up (k := 24) (j := 8) rfl rfl (by decide)
  have h₄ : ((v &&& 0xff00000000) >>> 8).toNat = v.toNat / 2 ^ 32 % 256 * 2 ^ 24 :=
    toNat_down (k := 24) (j := 8) rfl rfl (by decide)
  have h₅ : ((v &&& 0xff0000000000) >>> 24).toNat = v.toNat / 2 ^ 40 % 256 * 2 ^ 16 :=
    toNat_down (k := 16) (j := 24) rfl rfl (by decide)
  have h₆ : ((v &&& 0xff000000000000) >>> 40).toNat = v.toNat / 2 ^ 48 % 256 * 2 ^ 8 :=
    toNat_down (k := 8) (j := 40) rfl rfl (by decide)
  have h₇ : ((v &&& 0xff00000000000000) >>> 56).toNat = v.toNat / 2 ^ 56 % 256 * 2 ^ 0 :=
    toNat_down (k := 0) (j := 56) rfl rfl (by decide)
  have hmod : ∀ n, n % 256 < 256 := fun n => Nat.mod_lt n (by decide)
  apply UInt64.toNat_inj.mp
  rw [toNat_htonll, swap64]
  simp only [UInt64.toNat_or, h₀, h₁, h₂, h₃, h₄, h₅, h₆, h₇]
  -- the pieces are put together from the upper end of the word on
  rw [or_byte (j := 56) (k := 48) rfl (hmod _), or_byte (j := 48) (k := 40) rfl (hmod _),
    or_byte (j := 40) (k := 32) rfl (hmod _), or_byte (j := 32) (k := 24) rfl (hmod _),
    or_byte (j := 24) (k := 16) rfl (hmod _), or_byte (j := 16) (k := 8) rfl (hmod _),
    or_byte (j := 8) (k := 0) rfl (hmod _)]
  simp only [swapBytes, leBytes, leNat, List.reverse_cons, List.reverse_nil, List.nil_append,
    List.cons_append, UInt8.toNat_ofNat', Nat.div_div_eq_div_mul]
  clear h₀ h₁ h₂ h₃ h₄ h₅ h₆ h₇ hmod
  norm_num

section
variable (host : HostOrder)

/-- `ntohs` and `htons` of the host. -/
def HostOrder.swap16 (v : UInt16) : UInt16 :=
  match host with
  | .little => htons v
  | .big => v

/-- `ntohl` and `htonl` of the host. -/
def HostOrder.swap32 (v : UInt32) : UInt32 :=
  match host with
  | .little => htonl v
  | .big => v

/-- `store_ntohll`; the build has no `betoh64`. -/
def storeNtohll (v : UInt64) : UInt64 :=
  match host with
  | .little => swap64 v
  | .big => v

/-- `store_htonll` on either host; `storeHtonll` is the one of a little-endian host. -/
def storeHtonllOn (v : UInt64) : UInt64 :=
  match host with
  | .little => swap64 v
  | .big => v

def storeSwpNtoh64 (v : UInt64) : UInt64 := storeNtohll host v
def storeSwpNtoh32 (v : UInt32) : UInt32 := host.swap32 v
def storeSwpNtoh16 (v : UInt16) : UInt16 := host.swap16 v
def storeSwpHton64 (v : UInt64) : UInt64 := storeHtonllOn host v
def storeSwpHton32 (v : UInt32) : UInt32 := host.swap32 v
def storeSwpHton16 (v : UInt16) : UInt16 := host.swap16 v

/-- `store_swab_flow`. The padding of a part and its fields of one byte are not in the list. -/
def storeSwabFlow (toNet : Bool) (flow : StoreFlowComplete) : StoreFlowComplete :=
  let sw64 := if toNet then storeSwpHton64 host else storeSwpNtoh64 host
  let sw32 := if toNet then storeSwpHton32 host else storeSwpNtoh32 host
  let sw16 := if toNet then storeSwpHton16 host else storeSwpNtoh16 host
  { flow with
    fields := sw32 flow.fields
    tag := sw32 flow.tag
    recvSec := sw32 flow.recvSec
    recvUsec := sw32 flow.recvUsec
    srcPort := sw16 flow.srcPort
    dstPort := sw16 flow.dstPort
    flowPackets := sw64 flow.flowPackets
    flowOctets := sw64 flow.flowOctets
    ifIndexIn := sw32 flow.ifIndexIn
    ifIndexOut := sw32 flow.ifIndexOut
    sysUptimeMs := sw32 flow.sysUptimeMs
    timeSec := sw32 flow.timeSec
    timeNanosec := sw32 flow.timeNanosec
    netflowVersion := sw16 flow.netflowVersion
    flowStart := sw32 flow.flowStart
    flowFinish := sw32 flow.flowFinish
    srcAs := sw32 flow.srcAs
    dstAs := sw32 flow.dstAs
    engineType := sw16 flow.engineType
    engineId := sw16 flow.engineId
    flowSequence := sw32 flow.flowSequence
    -- the word is 32 bits wide; the argument of the 16-bit swap is its lower half, and the result
    -- is widened again
    sourceId := (sw16 flow.sourceId.toUInt16).toUInt32
    crc32 := sw32 flow.crc32 }

/-! ## Swapping twice -/

section
variable {host} (toNet : Bool)

/-- The 16-bit swaps of the two directions are inverse. -/
theorem sw16_sw16 (v : UInt16) :
    (if !toNet then storeSwpHton16 host else storeSwpNtoh16 host)
      ((if toNet then storeSwpHton16 host else storeSwpNtoh16 host) v) = v := by
  have hswap : host.swap16 (host.swap16 v) = v := by
    cases host with
    | little => exact htons_htons v
    | big => rfl
  cases toNet with
  | false => exact hswap
  | true => exact hswap

/-- The 32-bit swaps of the two directions are inverse. -/
theorem sw32_sw32 (v : UInt32) :
    (if !toNet then storeSwpHton32 host else storeSwpNtoh32 host)
      ((if toNet then storeSwpHton32 host else storeSwpNtoh32 host) v) = v := by
  have hswap : host.swap32 (host.swap32 v) = v := by
    cases host with
    | little => exact htonl_htonl v
    | big => rfl
  cases toNet with
  | false => exact hswap
  | true => exact hswap

/-- The 64-bit swaps of the two directions are inverse. -/
theorem sw64_sw64 (v : UInt64) :
    (if !toNet then storeSwpHton64 host else storeSwpNtoh64 host)
      ((if toNet then storeSwpHton64 host else storeSwpNtoh64 host) v) = v := by
  have hswap : storeHtonllOn host (storeNtohll host v) = v := by
    cases host with
    | little => rw [storeHtonllOn, storeNtohll, swap64_eq, swap64_eq, htonll_htonll]
    | big => rfl
  have hsame : storeHtonllOn host = storeNtohll host := by cases host <;> rfl
  cases toNet with
  | false => exact hswap
  | true =>
    show storeNtohll host (storeHtonllOn host v) = v
    rw [← hsame]
    rwa [← hsame] at hswap

/-- Swapping to one order and then to the other gives the record back, but for the upper half of its
source identifier. -/
theorem storeSwabFlow_storeSwabFlow (flow : StoreFlowComplete) :
    storeSwabFlow host (!toNet) (storeSwabFlow host toNet flow)
      = { flow with sourceId := flow.sourceId.toUInt16.toUInt32 } := by
  -- the words are given back one by one; the second swap of the identifier takes the lower half of
  -- what the first has widened
  simp only [storeSwabFlow, UInt16.toUInt16_toUInt32, sw16_sw16, sw32_sw32, sw64_sw64]

end

/-- **Swapping the bytes of a record.** On both hosts, and whichever order comes first, swapping a
record to one order and then to the other gives back the same value in every field exactly when its
source identifier fits in 16 bits. -/
theorem storeSwabFlow_invertible_iff (toNet : Bool) (flow : StoreFlowComplete) :
    storeSwabFlow host (!toNet) (storeSwabFlow host toNet flow) = flow
      ↔ flow.sourceId.toNat < 2 ^ 16 := by
  rw [storeSwabFlow_storeSwabFlow]
  have hlow : flow.sourceId.toUInt16.toUInt32.toNat = flow.sourceId.toNat % 2 ^ 16 := by
    rw [UInt16.toNat_toUInt32, UInt32.toNat_toUInt16]
  constructor
  · intro h
    have hsource : flow.sourceId.toUInt16.toUInt32 = flow.sourceId :=
      congrArg StoreFlowComplete.sourceId h
    rw [hsource] at hlow
    omega
  · intro hlt
    have hsource : flow.sourceId.toUInt16.toUInt32 = flow.sourceId := by
      apply UInt32.toNat_inj.mp
      rw [hlow, Nat.mod_eq_of_lt hlt]
    rw [hsource]

end

/-- The observation domain 65536 is lost on the way to host order and back. -/
theorem storeSwabFlow_not_invertible :
    storeSwabFlow .little true (storeSwabFlow .little false { sourceId := 0x10000 })
      ≠ { sourceId := 0x10000 } := by
  intro h
  have hsource : (0 : UInt32) = 0x10000 := congrArg StoreFlowComplete.sourceId h
  exact absurd hsource (by decide)

end Flowd
