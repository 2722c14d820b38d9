import NetworkMonitoring.Flowd.Addr
import NetworkMonitoring.Softflowd.Flow

/-!
# The comparison functions of the trees

The red-black and splay trees of softflowd and flowd are instantiated with `flow_compare`,
`expiry_compare` and `addr_cmp`. A tree behaves as an ordered set (`OrderedSet`) when its comparison
is a strict total order (`OrderedSet.OrdersBy`), and it tells two elements apart by what the
comparison looks at: `Flow.key`, the time and the flow sequence number of an expiry event, and
`Xaddr.identity`.
-/

namespace Flowd

open InetText OrderedSet

/-- What `addr_cmp` looks at: the family and the address, and the scope of an IPv6 address. -/
def Xaddr.identity (a : Xaddr) : UInt16 × (InAddr ⊕ (Fin 16 → UInt8) × UInt32) :=
  (a.af, if a.af = afInet then .inl a.v4 else .inr (a.addr8, a.scopeId))

theorem Xaddr.identity_v4 {a : Xaddr} (h : a.af = afInet) :
    a.identity = (afInet, .inl a.v4) := by
  rw [identity, if_pos h, h]

theorem Xaddr.identity_v6 {a : Xaddr} (h : a.af = afInet6) :
    a.identity = (afInet6, .inr (a.addr8, a.scopeId)) := by
  rw [identity, if_neg (by rw [h]; decide), h]

/-- Addresses of the two families compare equal exactly when their identities agree. -/
theorem addrCmp_eq_zero_iff_identity {a b : Xaddr} (ha : a.Valid) (hb : b.Valid) :
    addrCmp a b = 0 ↔ a.identity = b.identity := by
  constructor
  · intro h
    rcases eq_of_addrCmp ha hb h with ⟨hafa, hafb, hv4⟩ | rfl
    · rw [Xaddr.identity_v4 hafa, Xaddr.identity_v4 hafb, hv4]
    · rfl
  · intro h
    rw [(addrCmp_eq ha hb).1]
    have haf : a.af = b.af := congrArg Prod.fst h
    rcases ha with ha | ha
    · have hb : b.af = afInet := haf.symm.trans ha
      rw [Xaddr.identity_v4 ha, Xaddr.identity_v4 hb] at h
      have hv4 : a.v4 = b.v4 := Sum.inl.inj (Prod.mk.inj h).2
      rw [Xaddr.key_v4 ha, Xaddr.key_v4 hb]
      exact Xaddr.hostOrder_inj.mpr hv4
    · have hb : b.af = afInet6 := haf.symm.trans ha
      rw [Xaddr.identity_v6 ha, Xaddr.identity_v6 hb] at h
      obtain ⟨haddr8, hscope⟩ := Prod.mk.inj (Sum.inr.inj (Prod.mk.inj h).2)
      rw [Xaddr.key_v6 ha, Xaddr.key_v6 hb, haddr8, hscope]

/-- `addr_cmp` on the addresses of the two families, by the sign of its result. -/
def addrOrder (a b : { a : Xaddr // a.Valid }) : Ordering := compare (addrCmp a b) 0

/-- It is the order of the keys. -/
theorem addrOrder_eq_compareOn : addrOrder = compareOn fun a => a.val.key := by
  ext a b
  obtain ⟨hzero, hneg⟩ := addrCmp_eq a.property b.property
  rw [addrOrder, compareOn]
  -- the three cases of the keys give the sign of the result
  rcases lt_trichotomy a.val.key b.val.key with hlt | heq | hgt
  · rw [compare_lt_iff_lt.mpr hlt, compare_lt_iff_lt.mpr (hneg.mpr hlt)]
  · rw [compare_eq_iff_eq.mpr heq, compare_eq_iff_eq.mpr (hzero.mpr heq)]
  · have hpos : 0 < addrCmp a b := (addrCmp_pos a.property b.property).mpr hgt
    rw [compare_gt_iff_gt.mpr hgt, compare_gt_iff_gt.mpr hpos]

instance : Std.TransCmp addrOrder := by
  rw [addrOrder_eq_compareOn]
  infer_instance

theorem addrOrder_eq_iff (a b : { a : Xaddr // a.Valid }) :
    addrOrder a b = .eq ↔ a.val.identity = b.val.identity := by
  rw [addrOrder, compare_eq_iff_eq]
  exact addrCmp_eq_zero_iff_identity a.property b.property

/-- Two IPv4 addresses that differ in the scope alone are one address to `addr_cmp`. -/
theorem addrCmp_v4_scope :
    addrCmp { af := afInet, scopeId := 1 } { af := afInet, scopeId := 2 } = 0 ∧
      ¬ OrdersBy addrOrder fun a => (a.val.af, a.val.addr8, a.val.scopeId) := by
  refine ⟨by decide, ?_⟩
  intro h
  have hkey := (h.eq_iff ⟨{ af := afInet, scopeId := 1 }, .inl rfl⟩
    ⟨{ af := afInet, scopeId := 2 }, .inl rfl⟩).mp (by decide)
  exact absurd (congrArg (·.2.2) hkey) (by decide)

end Flowd

namespace Pipeline

open OrderedSet Softflowd

/-- Each of the three comparison functions is a strict total order, and returns 0 exactly when the
elements agree in what it looks at. -/
theorem comparators_orderBy :
    OrdersBy flowCompare Flow.key ∧
      (∀ flows, OrdersBy (expiryCompare flows) fun e => (e.expiresAt, flowSeqAt flows e.flow)) ∧
      OrdersBy Flowd.addrOrder fun a => a.val.identity := by
  refine ⟨?_, ?_, ?_⟩
  · exact .of_transCmp fun _ _ => flowCompare_eq_iff
  · intro flows
    apply OrdersBy.of_transCmp
    intro a b
    rw [expiryCompare_eq_iff, Prod.mk.injEq]
  · exact .of_transCmp Flowd.addrOrder_eq_iff

end Pipeline
