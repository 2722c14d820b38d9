import NetworkMonitoring.Flowd.Store
import NetworkMonitoring.Softflowd.Export

/-!
# What a stored record reports

The collector keeps a flow as a `store_flow_complete` in network byte order; `Report` is the same
information in the exporter's terms, so that the two ends can be compared.
-/

namespace Flowd

open Bytes Softflowd

/-- The address an `xaddr` holds. -/
def Xaddr.address (a : Xaddr) : Address := if a.af = Flowd.afInet then .v4 a.v4 else .v6 a.addr8

theorem Xaddr.address_copy_v4 (a : Xaddr) (x : InetText.InAddr) :
    (a.copy (List.ofFn x) Flowd.afInet).address = .v4 x := by
  have haf : (a.copy (List.ofFn x) Flowd.afInet).af = Flowd.afInet := rfl
  rw [Xaddr.address, if_pos haf]
  congr 1
  ext i
  simp [Xaddr.v4, Xaddr.copy, List.getD_eq_getElem?_getD, -List.ofFn_succ]

theorem Xaddr.address_copy_v6 (a : Xaddr) (x : FlowAddr) :
    (a.copy (List.ofFn x) Flowd.afInet6).address = .v6 x := by
  have haf : ¬ (a.copy (List.ofFn x) Flowd.afInet6).af = Flowd.afInet := by
    change ¬ Flowd.afInet6 = Flowd.afInet
    decide
  rw [Xaddr.address, if_neg haf]
  congr 1
  ext i
  simp [Xaddr.copy, List.getD_eq_getElem?_getD, -List.ofFn_succ]

/-- What a store record says about a flow. -/
def StoreFlowComplete.report (r : StoreFlowComplete) : FlowReport where
  src := r.srcAddr.address
  dst := r.dstAddr.address
  srcPort := r.srcPort
  dstPort := r.dstPort
  protocol := r.protocol
  tcpFlags := r.tcpFlags
  packets := (storeHtonll r.flowPackets).toNat
  octets := (storeHtonll r.flowOctets).toNat
  start := htonl r.flowStart
  finish := htonl r.flowFinish

end Flowd
