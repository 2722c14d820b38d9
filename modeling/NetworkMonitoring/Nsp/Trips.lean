import NetworkMonitoring.Nsp.Forwarding

/-!
# NSP — packets on their way

The loops of `TransitNetwork::ForwardPacketE`, `ShowPathFromTo` and
`GetInterfaceBasedPathPathFromTo` in a well-formed network whose routing tables have been filled.
Each of them follows the hops, so it ends exactly when they come to no cycle
(`WellFormed.forwarding_ends_iff`). A packet crosses the link it is charged to exactly when each
router on its way that has a link to the destination sends it over that link
(`WellFormed.monitors_iff`).

Both fail in the network `diamond`: its first two routers send a packet for the last one to each
other, and each of them is charged with its own link to the last one.
-/

namespace Nsp

open CText ErrorLoops FueledLoops ShortestPaths Chains

/-- The number of an AS fits the array it is printed into. -/
def Printable (number : ℤ) : Prop := (decimal number).length < 10

instance (number : ℤ) : Decidable (Printable number) := inferInstanceAs (Decidable (_ < 10))

/-- The name of an AS whose number fits. -/
theorem Printable.asName_eq {number : ℤ} (h : Printable number) :
    asName number = .ok (ascii "As" ++ decimal number) := if_pos h

/-- The number of an AS that does not fit overflows its buffer. -/
theorem asName_eq_error {number : ℤ} (h : ¬ Printable number) : asName number = .error .overflow :=
  if_neg h

/-- A name with `As` in front is that of an AS. -/
theorem namesAs_ascii_append (s : Text) : namesAs (ascii "As" ++ s) = true := rfl

namespace TransitNetwork

variable {R : Type} [DecidableEq R] {net : TransitNetwork R}

/-- The edge router of an AS has a link to it. -/
def EdgeLinks (net : TransitNetwork R) : Prop :=
  ∀ r ∈ net.ptrListOfRouters, namesAs (net.router r).edgeAs = true →
    ∃ l ∈ net.ptrListOfLinks, ∃ e ∈ l.ends, e.1 ∈ (net.router r).lIps ∧ e.2 = (net.router r).edgeAs

instance (net : TransitNetwork R) : Decidable net.EdgeLinks :=
  inferInstanceAs (Decidable (∀ r ∈ _, _))

/-! ## The loop of `ForwardPacketE` -/

section Trip

variable {st : R → RouterState R} {pPacket : Packet} {c d srcR dstR : R} {t : Trip R}
  {sFinalDest : Text}

/-- The packet is at a router, and has not left the network. -/
structure IsAt (net : TransitNetwork R) (sFinalDest : Text) (t : Trip R) (c : R) : Prop where
  mem : c ∈ net.ptrListOfRouters
  current : t.currentR = some c
  inside : t.inInterface ≠ sFinalDest

namespace WellFormed

variable (h : net.WellFormed) (hst : ∀ r ∈ net.ptrListOfRouters, net.Routed r (st r))

include h

/-- Before the first iteration the packet is at its first router. -/
theorem isAt_start {n : ℤ} {inInterface : Text} (hc : c ∈ net.ptrListOfRouters)
    (hin : inInterface ∈ (net.router c).lIps) :
    net.IsAt (ascii "As" ++ decimal n) ⟨inInterface, some c, []⟩ c := by
  refine ⟨hc, rfl, fun hname => ?_⟩
  have hip := h.adapter_ip c hc inInterface hin
  rw [show inInterface = _ from hname, namesAs_ascii_append] at hip
  cases hip

include hst

/-- An iteration away from the destination: the packet crosses a link, and the router on the hop is
the next one. -/
theorem tripStep_go (hd : d ∈ net.ptrListOfRouters) (hsource : Printable pPacket.iAsSourceNumber)
    (hdest : Printable pPacket.iAsDestNumber)
    (ht : net.IsAt (ascii "As" ++ decimal pPacket.iAsDestNumber) t c) (hne : c ≠ d) :
    ∃ out n, net.hop d c = some n ∧
      net.tripStep st pPacket d (ascii "As" ++ decimal pPacket.iAsDestNumber) t =
        .ok (.inr (t.after ⟨c, t.inInterface, out⟩ (some n))) ∧
      net.IsAt (ascii "As" ++ decimal pPacket.iAsDestNumber)
        (t.after ⟨c, t.inInterface, out⟩ (some n)) n ∧
      ∃ x ∈ net.ptrListOfRouters, net.Crosses x ⟨c, t.inInterface, out⟩ ∧
        ((net.linkCost c d).isSome → x = d) ∧ (net.linkCost c d = none → x = n) := by
  obtain ⟨n, hn, hhop, -⟩ := h.exists_hop ht.mem hd hne
  obtain ⟨out, hout, x, hx, hcross, hdirect, hindirect⟩ :=
    h.routerForwardPacketE_eq hst ht.mem hd hne hsource.asName_eq hdest.asName_eq t.inInterface
  have hnext : (st c).nextRouter d = some n :=
    (hst c ht.mem).nextRouter_eq (h.routable.mem_others.mpr ⟨hd, hne.symm⟩)
      (hop_eq_some_iff.mp hhop).2
  refine ⟨out, n, hhop, ?_, ⟨hn, rfl, fun heq => ?_⟩, x, hx, hcross, hdirect, fun hnone => ?_⟩
  · rw [tripStep, if_neg ht.inside, ht.current]
    simp only [hout, ok_bind, hnext]
    rfl
  · -- the interface of a router does not have the name of an AS
    obtain ⟨l, -, e, -, -, hown, hin, -⟩ := hcross
    have hname : e.2 = ascii "As" ++ decimal pPacket.iAsDestNumber := hin.symm.trans heq
    have hip := h.adapter_ip x hx e.2 ((h.routable.isItYourAdapter_iff hx).mp hown)
    rw [hname, namesAs_ascii_append] at hip
    cases hip
  · exact Option.some.inj ((hindirect hnone).symm.trans hhop)

/-- The loop follows the hops to the destination, where the packet leaves the network. -/
theorem tripStep_follows (hd : d ∈ net.ptrListOfRouters)
    (hsource : Printable pPacket.iAsSourceNumber) (hdest : Printable pPacket.iAsDestNumber) :
    Follows (net.hop d)
      (net.tripStep st pPacket d (ascii "As" ++ decimal pPacket.iAsDestNumber)) .noReturn
      (fun pre c t => net.IsAt (ascii "As" ++ decimal pPacket.iAsDestNumber) t c ∧
        t.calls.map Call.router = pre)
      (fun l t => t.calls.map Call.router = l) := by
  constructor
  case go =>
    rintro pre c n t ⟨ht, rfl⟩ hn
    obtain ⟨out, n', hhop, hstep, hat, -⟩ :=
      h.tripStep_go hst hd hsource hdest ht (hop_eq_some_iff.mp hn).1
    obtain rfl := Option.some.inj (hhop.symm.trans hn)
    exact ⟨_, hstep, hat, Trip.routers_after _ _ _⟩
  case stop =>
    -- at the destination the packet is forwarded once more, out of the network
    rintro pre c t ⟨ht, rfl⟩ hnone
    obtain rfl := h.eq_of_hop_eq_none ht.mem hd hnone
    obtain ⟨out, hout, hleave⟩ := routerForwardPacketE_self net c (st c)
      hsource.asName_eq hdest.asName_eq t.inInterface
    have hfirst : net.tripStep st pPacket c (ascii "As" ++ decimal pPacket.iAsDestNumber) t =
        .ok (.inr (t.after ⟨c, t.inInterface, out⟩ ((st c).nextRouter c))) := by
      rw [tripStep, if_neg ht.inside, ht.current]
      simp only [hout, ok_bind]
      rfl
    have hsecond : net.tripStep st pPacket c (ascii "As" ++ decimal pPacket.iAsDestNumber)
        (t.after ⟨c, t.inInterface, out⟩ ((st c).nextRouter c)) =
        .ok (.inl (t.after ⟨c, t.inInterface, out⟩ ((st c).nextRouter c))) := if_pos hleave
    refine ⟨2, t.after ⟨c, t.inInterface, out⟩ ((st c).nextRouter c), ?_, Trip.routers_after t _ _⟩
    rw [iterate_succ_inr (orFail_eq_inr.mpr hfirst),
      iterate_succ_inl (orFail_eq_inl_ok.mpr hsecond)]

omit hst in
/-- The edge router of an AS comes in at one of its interfaces from there. -/
theorem exists_inInterface (hedges : net.EdgeLinks) {as : Text} (has : namesAs as = true)
    (hsrc : net.getTheEdgeRouterOf as = some srcR) :
    srcR ∈ net.ptrListOfRouters ∧ ∃ l, net.getLink srcR as = some l ∧
      ∃ a ∈ (net.router srcR).lIps, l.getTheOppositeAdapter as = .ok a := by
  have hmem : srcR ∈ net.ptrListOfRouters := List.mem_of_find?_eq_some hsrc
  have hedge : (net.router srcR).edgeAs = as := by simpa using List.find?_some hsrc
  refine ⟨hmem, ?_⟩
  obtain ⟨l, hl, e, he, hip, hname⟩ := hedges srcR hmem (by rw [hedge]; exact has)
  rw [hedge] at hname
  have hle : l.isItOneOfTheAdapters as = true :=
    isItOneOfTheAdapters_iff.mpr ⟨(e.2, e.1), swap_mem_ends he, hname⟩
  obtain ⟨l', hfind, hmem', hle'⟩ := exists_find? (p := fun l : Link => l.isItOneOfTheAdapters as)
    ((h.routable.mem_linksOf_iff hmem).mpr ⟨hl, e, he, hip⟩) hle
  -- the other end of the link found is at the router
  obtain ⟨-, e', he', hip'⟩ := (h.routable.mem_linksOf_iff hmem).mp hmem'
  have hother : e'.1 ≠ as := by
    rintro rfl
    rw [h.adapter_ip srcR hmem _ hip'] at has
    cases has
  obtain ⟨e'', he'', rfl⟩ := isItOneOfTheAdapters_iff.mp hle'
  refine ⟨l', hfind, e''.2, ?_, getTheOppositeAdapter_eq he''⟩
  rcases List.mem_pair.mp he' with rfl | rfl <;> rcases List.mem_pair.mp he'' with rfl | rfl
  · exact absurd rfl hother
  · exact hip'
  · exact hip'
  · exact absurd rfl hother

/-- A packet that can be forwarded comes in at an interface of its first router. -/
theorem departure_eq (hedges : net.EdgeLinks) (hsource : Printable pPacket.iAsSourceNumber)
    (hdest : Printable pPacket.iAsDestNumber)
    (hsrc : net.getTheEdgeRouterOf (ascii "As" ++ decimal pPacket.iAsSourceNumber) = some srcR)
    (hdst : net.getTheEdgeRouterOf (ascii "As" ++ decimal pPacket.iAsDestNumber) = some dstR) :
    ∃ nextR, ∃ inInterface ∈ (net.router srcR).lIps,
      net.departure st pPacket = .ok (srcR, dstR, nextR, inInterface) ∧
      (srcR = dstR → nextR = dstR) := by
  obtain ⟨hmem, l, hlink, a, ha, hopposite⟩ :=
    h.exists_inInterface hedges (namesAs_ascii_append _) hsrc
  have hdmem : dstR ∈ net.ptrListOfRouters := List.mem_of_find?_eq_some hdst
  have hnext : ∃ nextR, net.getNextRouterToward (st srcR) srcR dstR = .ok nextR ∧
      (srcR = dstR → nextR = dstR) := by
    by_cases heq : srcR = dstR
    · exact ⟨srcR, by rw [getNextRouterToward, if_pos heq.symm], fun heq => heq⟩
    · have hd := h.routable.mem_others.mpr ⟨hdmem, Ne.symm heq⟩
      obtain ⟨n, -, hentry, -⟩ := h.routable.exists_entry hmem hd
      exact ⟨n, h.routable.getNextRouterToward_eq hmem (hst srcR hmem).toSearched hd hentry,
        fun h => absurd h heq⟩
  obtain ⟨nextR, hnextR, hself⟩ := hnext
  refine ⟨nextR, a, ha, ?_, hself⟩
  rw [departure, hsource.asName_eq, hdest.asName_eq]
  simp only [ok_bind, hsrc, hdst, hnextR, hlink, hopposite]
  rfl

omit h hst in
/-- A packet leaves only if the numbers of its ASs fit. -/
theorem printable_of_departure {x : R × R × R × Text} (hx : net.departure st pPacket = .ok x) :
    Printable pPacket.iAsSourceNumber ∧ Printable pPacket.iAsDestNumber := by
  obtain ⟨source, hsource, hx⟩ := bind_eq_ok.mp hx
  obtain ⟨dest, hdest, -⟩ := bind_eq_ok.mp hx
  constructor
  · by_contra hlong
    exact error_ne_ok ((asName_eq_error hlong).symm.trans hsource)
  · by_contra hlong
    exact error_ne_ok ((asName_eq_error hlong).symm.trans hdest)

variable (pPacket) in
/-- `ForwardPacketE` ends at the destination, with one call for each router on the way, exactly when
the names of the ASs can be printed and the hops come to no cycle. -/
theorem forwardPacketE_iff (hedges : net.EdgeLinks)
    (hsrc : net.getTheEdgeRouterOf (ascii "As" ++ decimal pPacket.iAsSourceNumber) = some srcR)
    (hdst : net.getTheEdgeRouterOf (ascii "As" ++ decimal pPacket.iAsDestNumber) = some dstR) :
    (∃ fuel calls, net.forwardPacketE fuel st pPacket = .ok calls ∧
        (calls.map Call.router).Nodup ∧ (calls.map Call.router).getLast? = some dstR) ↔
      Printable pPacket.iAsSourceNumber ∧ Printable pPacket.iAsDestNumber ∧
        net.Acyclic srcR dstR := by
  have hsmem : srcR ∈ net.ptrListOfRouters := List.mem_of_find?_eq_some hsrc
  have hdmem : dstR ∈ net.ptrListOfRouters := List.mem_of_find?_eq_some hdst
  rw [← h.exists_path_iff hsmem hdmem]
  by_cases hprint : Printable pPacket.iAsSourceNumber ∧ Printable pPacket.iAsDestNumber
  swap
  -- a name that cannot be printed ends the call before the loop
  · refine iff_of_false ?_ fun hall => hprint ⟨hall.1, hall.2.1⟩
    rintro ⟨fuel, calls, hcalls, -⟩
    obtain ⟨x, hx, -⟩ := bind_eq_ok.mp hcalls
    exact hprint (printable_of_departure hx)
  obtain ⟨hsource, hdest⟩ := hprint
  obtain ⟨nextR, inInterface, hin, hdeparture, hself⟩ :=
    h.departure_eq hst hedges hsource hdest hsrc hdst
  simp only [forwardPacketE, hdeparture, hdest.asName_eq, ok_bind, hsource, hdest, true_and]
  -- in the source's own AS there is no loop
  by_cases heq : srcR = dstR
  · obtain rfl := heq
    obtain rfl := hself rfl
    obtain ⟨out, hout, -⟩ := routerForwardPacketE_self net nextR (st nextR)
      hsource.asName_eq hdest.asName_eq inInterface
    refine iff_of_true ⟨0, [⟨nextR, inInterface, out⟩], ?_, List.nodup_singleton _, rfl⟩
      ⟨[nextR], .stop (hop_self nextR)⟩
    simp only [if_true, hout, ok_bind]
    rfl
  · simp only [if_neg heq]
    have hfollows := h.tripStep_follows hst hdmem hsource hdest
    have hat := h.isAt_start (n := pPacket.iAsDestNumber) hsmem hin
    constructor
    · rintro ⟨fuel, calls, hcalls, -⟩
      obtain ⟨t, ht, -⟩ := bind_eq_ok.mp hcalls
      exact hfollows.exists_path ⟨hat, rfl⟩ ht
    · rintro ⟨l, hpath⟩
      obtain ⟨fuel, t, ht, hroute⟩ := hfollows.returns ⟨hat, rfl⟩ hpath
      refine ⟨fuel, t.calls, ?_, ?_⟩
      · rw [ht]
        rfl
      · rw [show t.calls.map Call.router = l from hroute]
        exact ⟨hpath.nodup, h.getLast?_of_path hsmem hdmem hpath⟩

end WellFormed

/-- An iteration for a packet at `currentR`: it has come in at an interface of the router, and,
except at the destination, the call crosses the link to the router that becomes the next one. -/
def Monitors (net : TransitNetwork R) (st : R → RouterState R) (pPacket : Packet) (dstR : R)
    (sFinalDest : Text) (t : Trip R) (currentR : R) : Prop :=
  net.isItYourAdapter currentR t.inInterface = true ∧
    (currentR ≠ dstR → ∃ t' next call,
      net.tripStep st pPacket dstR sFinalDest t = .ok (.inr t') ∧ t'.currentR = some next ∧
      t'.calls = t.calls ++ [call] ∧ call.router = currentR ∧ call.inInterface = t.inInterface ∧
      net.Crosses next call)

/-- The packet leaves, and each iteration of the loop monitors what the packet crosses. -/
def MonitorsTraversed (net : TransitNetwork R) (st : R → RouterState R) (pPacket : Packet) : Prop :=
  ∃ srcR dstR nextR inInterface sFinalDest,
    net.departure st pPacket = .ok (srcR, dstR, nextR, inInterface) ∧
    asName pPacket.iAsDestNumber = .ok sFinalDest ∧
    (srcR ≠ dstR → ∀ t,
      Reaches (orFail (net.tripStep st pPacket dstR sFinalDest)) ⟨inInterface, some srcR, []⟩ t →
      t.inInterface ≠ sFinalDest → ∀ currentR, t.currentR = some currentR →
      net.Monitors st pPacket dstR sFinalDest t currentR)

/-- The packet has left, or it is where the hops lead, at an interface of the router. -/
def OnItsWay (net : TransitNetwork R) (srcR dstR : R) (sFinalDest : Text) (t : Trip R) : Prop :=
  t.inInterface = sFinalDest ∨ ∃ c, net.IsAt sFinalDest t c ∧ Leads (net.hop dstR) srcR c ∧
    net.isItYourAdapter c t.inInterface = true

/-- An adapter belongs to one router, so a call crosses a link to one router. -/
theorem Crosses.unique (h : net.WellFormed) {x x' : R} (hx : x ∈ net.ptrListOfRouters)
    (hx' : x' ∈ net.ptrListOfRouters) {call : Call R} (hc : net.Crosses x call)
    (hc' : net.Crosses x' call) : x = x' := by
  obtain ⟨l, -, e, -, -, hown, hin, -⟩ := hc
  obtain ⟨l', -, e', -, -, hown', hin', -⟩ := hc'
  rw [← hin] at hown
  rw [← hin'] at hown'
  exact h.adapter_inj x hx x' hx' _ ((h.routable.isItYourAdapter_iff hx).mp hown)
    ((h.routable.isItYourAdapter_iff hx').mp hown')

namespace WellFormed

variable (h : net.WellFormed) (hst : ∀ r ∈ net.ptrListOfRouters, net.Routed r (st r))

include h

/-- The hop over the direct link is taken exactly when that link is a best path. -/
theorem hop_eq_dest_iff (hc : c ∈ net.ptrListOfRouters) (hd : d ∈ net.ptrListOfRouters)
    (hne : c ≠ d) {k : ℕ} (hk : net.linkCost c d = some k) :
    net.hop d c = some d ↔ k = dist net.linkCost c d := by
  have hnone := (h.routable.rooted hc).firstImprover_eq_none_iff
    (h.routable.mem_others.mpr ⟨hd, hne.symm⟩)
  rw [hk, Option.some_inj] at hnone
  rw [hop_eq_some_iff, ← hnone]
  exact ⟨fun hhop => hhop.2.2, fun hfirst => ⟨hne, .refl d, hfirst⟩⟩

include hst

/-- Where every direct link to the destination is a best path, the packet crosses the link to the
next router. -/
theorem tripStep_crosses (hd : d ∈ net.ptrListOfRouters) (hsource : Printable pPacket.iAsSourceNumber)
    (hdest : Printable pPacket.iAsDestNumber)
    (ht : net.IsAt (ascii "As" ++ decimal pPacket.iAsDestNumber) t c) (hne : c ≠ d)
    (hbest : ∀ k, net.linkCost c d = some k → k = dist net.linkCost c d) :
    ∃ out n, net.hop d c = some n ∧
      net.tripStep st pPacket d (ascii "As" ++ decimal pPacket.iAsDestNumber) t =
        .ok (.inr (t.after ⟨c, t.inInterface, out⟩ (some n))) ∧
      net.IsAt (ascii "As" ++ decimal pPacket.iAsDestNumber)
        (t.after ⟨c, t.inInterface, out⟩ (some n)) n ∧
      net.Crosses n ⟨c, t.inInterface, out⟩ := by
  obtain ⟨out, n, hhop, hstep, hat, x, -, hcross, hdirect, hindirect⟩ :=
    h.tripStep_go hst hd hsource hdest ht hne
  have hxn : x = n := by
    cases hk : net.linkCost c d with
    | none => exact hindirect hk
    | some k =>
      have hhopd := (h.hop_eq_dest_iff ht.mem hd hne hk).mpr (hbest k hk)
      rw [hdirect (by rw [hk]; rfl)]
      exact Option.some.inj (hhopd.symm.trans hhop)
  exact ⟨out, n, hhop, hstep, hat, hxn ▸ hcross⟩

variable (pPacket) in
/-- The packet is monitored where it passes exactly when the names of the ASs can be printed, and
every router on the way that has a link to the destination has no better path to it. -/
theorem monitorsTraversed_iff (hedges : net.EdgeLinks)
    (hsrc : net.getTheEdgeRouterOf (ascii "As" ++ decimal pPacket.iAsSourceNumber) = some srcR)
    (hdst : net.getTheEdgeRouterOf (ascii "As" ++ decimal pPacket.iAsDestNumber) = some dstR) :
    net.MonitorsTraversed st pPacket ↔
      Printable pPacket.iAsSourceNumber ∧ Printable pPacket.iAsDestNumber ∧
        ∀ c, Leads (net.hop dstR) srcR c → c ≠ dstR →
          ∀ k, net.linkCost c dstR = some k → k = dist net.linkCost c dstR := by
  have hsmem : srcR ∈ net.ptrListOfRouters := List.mem_of_find?_eq_some hsrc
  have hdmem : dstR ∈ net.ptrListOfRouters := List.mem_of_find?_eq_some hdst
  by_cases hprint : Printable pPacket.iAsSourceNumber ∧ Printable pPacket.iAsDestNumber
  swap
  · refine iff_of_false ?_ fun hall => hprint ⟨hall.1, hall.2.1⟩
    rintro ⟨srcR', dstR', nextR, inInterface, sFinalDest, hdeparture, -⟩
    exact hprint (printable_of_departure hdeparture)
  obtain ⟨hsource, hdest⟩ := hprint
  obtain ⟨nextR, inInterface, hin, hdeparture, -⟩ :=
    h.departure_eq hst hedges hsource hdest hsrc hdst
  have hfollows := h.tripStep_follows hst hdmem hsource hdest
  have hat := h.isAt_start (n := pPacket.iAsDestNumber) hsmem hin
  constructor
  · rintro ⟨srcR', dstR', nextR', inInterface', sFinalDest, hdeparture', hname, hmonitors⟩
    obtain ⟨rfl, rfl, -, rfl⟩ : srcR' = srcR ∧ dstR' = dstR ∧ nextR' = nextR ∧
        inInterface' = inInterface := by
      simpa using hdeparture'.symm.trans hdeparture
    obtain rfl : sFinalDest = _ := Except.ok.inj (hname.symm.trans hdest.asName_eq)
    refine ⟨hsource, hdest, fun c hlead hne k hk => ?_⟩
    have hsd : srcR' ≠ dstR' := by
      rintro rfl
      rcases hlead.cases with rfl | ⟨m, hm, -⟩
      · exact hne rfl
      · exact absurd (hm.symm.trans (hop_self srcR')) (Option.some_ne_none m)
    obtain ⟨-, t, hreach, ht, -⟩ := hfollows.reaches ⟨hat, rfl⟩ hlead
    obtain ⟨out, n, hhop, hstep, -, x, hx, hcross, hdirect, -⟩ :=
      h.tripStep_go hst hdmem hsource hdest ht hne
    -- the call crosses the direct link, and it is to cross the link to the next router
    obtain ⟨t', next, call, hstep', hnext, hcalls, -, -, hcross'⟩ :=
      (hmonitors hsd t hreach ht.inside c ht.current).2 hne
    obtain rfl : t.after ⟨c, t.inInterface, out⟩ (some n) = t' := by
      simpa using hstep.symm.trans hstep'
    obtain rfl : n = next := Option.some.inj hnext
    obtain rfl : call = ⟨c, t.inInterface, out⟩ := by
      simpa [Trip.after] using hcalls.symm
    have hn := h.mem_of_hop ht.mem hdmem hhop
    obtain rfl := hdirect (by rw [hk]; rfl)
    rw [Crosses.unique h hn hx hcross' hcross] at hhop
    exact (h.hop_eq_dest_iff ht.mem hdmem hne hk).mp hhop
  · rintro ⟨-, -, hbest⟩
    refine ⟨srcR, dstR, nextR, inInterface, _, hdeparture, hdest.asName_eq, fun _ t hreach => ?_⟩
    have hway : net.OnItsWay srcR dstR (ascii "As" ++ decimal pPacket.iAsDestNumber) t := by
      refine hreach.invariant (I := net.OnItsWay srcR dstR _)
        (.inr ⟨srcR, hat, .refl srcR, (h.routable.isItYourAdapter_iff hsmem).mpr hin⟩) ?_
      rintro t t' - hwhere hstep
      rw [orFail_eq_inr] at hstep
      rcases hwhere with hleft | ⟨c, ht, hlead, -⟩
      · rw [tripStep, if_pos hleft] at hstep
        cases hstep
      by_cases hne : c = dstR
      · obtain rfl := hne
        obtain ⟨out, hout, hleave⟩ := routerForwardPacketE_self net c (st c)
          hsource.asName_eq hdest.asName_eq t.inInterface
        rw [tripStep, if_neg ht.inside, ht.current] at hstep
        simp only [hout, ok_bind] at hstep
        cases hstep
        exact .inl hleave
      · obtain ⟨out, n, hhop, hstep', hat', l, -, e, -, -, hown, hin', -⟩ :=
          h.tripStep_crosses hst hdmem hsource hdest ht hne (hbest c hlead hne)
        obtain rfl : t.after ⟨c, t.inInterface, out⟩ (some n) = t' := by
          simpa using hstep'.symm.trans hstep
        exact .inr ⟨n, hat', hlead.tail hhop, by rw [Trip.after, hin', hown]⟩
    intro hinside currentR hcurrent
    obtain ⟨c, ht, hlead, hown⟩ := hway.resolve_left hinside
    obtain rfl := Option.some.inj (ht.current.symm.trans hcurrent)
    refine ⟨hown, fun hne => ?_⟩
    obtain ⟨out, n, -, hstep, -, hcross⟩ :=
      h.tripStep_crosses hst hdmem hsource hdest ht hne (hbest c hlead hne)
    exact ⟨_, n, ⟨c, t.inInterface, out⟩, hstep, rfl, rfl, rfl, rfl, hcross⟩

end WellFormed

end Trip

/-! ## The loops that show a path -/

namespace WellFormed

variable {st : R → RouterState R} {r c d : R}

/-- A router is found by its number. -/
theorem getRouterFromId_eq (h : net.WellFormed) (hr : r ∈ net.ptrListOfRouters) :
    net.getRouterFromId (net.getRouterId r) = some r := by
  obtain ⟨r', hfind, hr', hid⟩ := exists_find?
    (p := fun x : R => (net.router x).iRouterNumber == net.getRouterId r) hr (beq_self_eq_true _)
  rw [getRouterFromId, hfind, h.number_inj r' hr' r hr (eq_of_beq hid)]

variable (h : net.WellFormed) (hst : ∀ r ∈ net.ptrListOfRouters, net.Routed r (st r))

include h hst

/-- `GetNextRouterToward` returns the hop. -/
theorem getNextRouterToward_hop (hc : c ∈ net.ptrListOfRouters) (hd : d ∈ net.ptrListOfRouters)
    {n : R} (hn : net.hop d c = some n) : net.getNextRouterToward (st c) c d = .ok n := by
  obtain ⟨hne, hentry⟩ := hop_eq_some_iff.mp hn
  exact h.routable.getNextRouterToward_eq hc (hst c hc).toSearched
    (h.routable.mem_others.mpr ⟨hd, hne.symm⟩) hentry

/-- `GetLinkTowards` finds a link to any router, and one of its own for the router itself. -/
theorem exists_getLinkTowards (hc : c ∈ net.ptrListOfRouters) (hd : d ∈ net.ptrListOfRouters) :
    ∃ found, net.getLinkTowards (st c) c (net.ptrListOfRouters.length + 1) d = .ok found := by
  by_cases hne : c = d
  · obtain rfl := hne
    obtain ⟨a, ha⟩ := List.exists_mem_of_ne_nil _ (h.lIps_ne_nil c hc)
    obtain ⟨l, hl, hla⟩ := h.exists_link c hc a ha
    obtain ⟨e, he, rfl⟩ := isItOneOfTheAdapters_iff.mp hla
    have hmem : l ∈ net.linksOf c := (h.routable.mem_linksOf_iff hc).mpr ⟨hl, e, he, ha⟩
    have hsome : (net.adapterOn c l).isSome :=
      adapterOn_isSome (swap_mem_ends he) ((h.routable.isItYourAdapter_iff hc).mpr ha)
    obtain ⟨found, hfound⟩ := Option.isSome_iff_exists.mp
      (List.findSome?_isSome_iff.mpr ⟨l, hmem, hsome⟩)
    exact ⟨found, by rw [getLinkTowards, hfound]⟩
  · obtain ⟨x, -, l, e, -, hlink, -⟩ := h.getLinkTowards_eq hst hc hd hne
    exact ⟨_, hlink⟩

/-- The loop of `ShowPathFromTo` follows the next hops. -/
theorem showStep_follows (hd : d ∈ net.ptrListOfRouters) :
    Follows (net.hop d) (net.showStep st d) .noReturn
      (fun _ c s => c ∈ net.ptrListOfRouters ∧ s.1 = c) (fun _ _ => True) := by
  constructor
  case go =>
    rintro pre c n s ⟨hc, rfl⟩ hn
    refine ⟨(n, s.2 ++ [net.getRouterId s.1]), ?_, h.mem_of_hop hc hd hn, rfl⟩
    rw [showStep, if_neg (hop_eq_some_iff.mp hn).1, h.getNextRouterToward_hop hst hc hd hn]
    rfl
  case stop =>
    rintro pre c s ⟨hc, rfl⟩ hnone
    refine ⟨1, s.2, iterate_succ_inl (orFail_eq_inl_ok.mpr ?_) 0, trivial⟩
    rw [showStep, if_pos (h.eq_of_hop_eq_none hc hd hnone)]

/-- So does that of `GetInterfaceBasedPathPathFromTo`. -/
theorem pathStep_follows (hd : d ∈ net.ptrListOfRouters) :
    Follows (net.hop d) (net.pathStep st d) .noReturn
      (fun _ c s => c ∈ net.ptrListOfRouters ∧ s.start = c) (fun _ _ => True) := by
  constructor
  case go =>
    rintro pre c n s ⟨hc, rfl⟩ hn
    have hmem := h.mem_of_hop hc hd hn
    obtain ⟨found, hfound⟩ := h.exists_getLinkTowards hst hc hmem
    refine ⟨⟨n, false, found.2, if n ≠ d then separate s.path ++ found.2 else s.path⟩, ?_, hmem, rfl⟩
    rw [pathStep, if_neg (hop_eq_some_iff.mp hn).1, h.getNextRouterToward_hop hst hc hd hn, ok_bind,
      hfound]
    rfl
  case stop =>
    rintro pre c s ⟨hc, rfl⟩ hnone
    refine ⟨1, s, iterate_succ_inl (orFail_eq_inl_ok.mpr ?_) 0, trivial⟩
    rw [pathStep, if_pos (h.eq_of_hop_eq_none hc hd hnone)]

/-- Both loops start behind the first hop, if there is one. -/
theorem exists_first (hc : c ∈ net.ptrListOfRouters) (hd : d ∈ net.ptrListOfRouters) :
    ∃ n ∈ net.ptrListOfRouters, net.getNextRouterToward (st c) c d = .ok n ∧
      ((∃ l, Path (net.hop d) n l) ↔ net.Acyclic c d) := by
  by_cases hne : c = d
  · obtain rfl := hne
    exact ⟨c, hc, if_pos rfl, h.exists_path_iff hc hc⟩
  obtain ⟨n, hn, hhop, -⟩ := h.exists_hop hc hd hne
  refine ⟨n, hn, h.getNextRouterToward_hop hst hc hd hhop, ?_⟩
  rw [← h.exists_path_iff hc hd]
  constructor
  · rintro ⟨l, hpath⟩
    exact ⟨c :: l, .step hhop hpath⟩
  · rintro ⟨l, hpath⟩
    cases hpath with
    | stop hnone => exact absurd (hhop.symm.trans hnone) (Option.some_ne_none n)
    | step hstep hrest => exact ⟨_, Option.some.inj (hstep.symm.trans hhop) ▸ hrest⟩

/-- `ShowPathFromTo` returns exactly when the next hops end. -/
theorem showPathFromTo_iff (hc : c ∈ net.ptrListOfRouters) (hd : d ∈ net.ptrListOfRouters) :
    (∃ fuel ids, net.showPathFromTo fuel st (net.getRouterId c) (net.getRouterId d) = .ok ids) ↔
      net.Acyclic c d := by
  obtain ⟨n, hn, hnext, hacyclic⟩ := h.exists_first hst hc hd
  have hfollows := h.showStep_follows hst hd
  have hat : n ∈ net.ptrListOfRouters ∧ (n, [net.getRouterId c]).1 = n := ⟨hn, rfl⟩
  simp only [showPathFromTo, h.getRouterFromId_eq hc, h.getRouterFromId_eq hd, hnext, ok_bind]
  rw [← hacyclic, ← hfollows.returns_iff [] hat]
  constructor
  · rintro ⟨fuel, ids, hids⟩
    obtain ⟨ids', hids', -⟩ := bind_eq_ok.mp hids
    exact ⟨fuel, ids', hids'⟩
  · rintro ⟨fuel, ids, hids⟩
    exact ⟨fuel, ids ++ [net.getRouterId d], congrArg (· >>= _) hids⟩

/-- So does `GetInterfaceBasedPathPathFromTo`, for two routers. -/
theorem interfaceBasedPath_iff (hc : c ∈ net.ptrListOfRouters) (hd : d ∈ net.ptrListOfRouters) :
    (∃ fuel path, net.interfaceBasedPath fuel st (net.getRouterId c) (net.getRouterId d) = .ok path) ↔
      net.Acyclic c d := by
  obtain ⟨n, hn, hnext, hacyclic⟩ := h.exists_first hst hc hd
  obtain ⟨found, hfound⟩ := h.exists_getLinkTowards hst hc hn
  have hfollows := h.pathStep_follows hst hd
  have hat : n ∈ net.ptrListOfRouters ∧
      (⟨n, true, found.2, separate [] ++ found.2⟩ : PathState R).start = n := ⟨hn, rfl⟩
  simp only [interfaceBasedPath, h.getRouterFromId_eq hc, h.getRouterFromId_eq hd, hnext, ok_bind,
    hfound]
  rw [← hacyclic, ← hfollows.returns_iff [] hat]
  constructor
  · rintro ⟨fuel, path, hpath⟩
    obtain ⟨s, hs, -⟩ := bind_eq_ok.mp hpath
    exact ⟨fuel, s, hs⟩
  · rintro ⟨fuel, s, hs⟩
    exact ⟨fuel, _, congrArg (· >>= _) hs⟩

omit h hst in
/-- More fuel does not change what is shown. -/
theorem showPathFromTo_add {fuel id1 id2 : ℕ} {ids : List ℕ}
    (hids : net.showPathFromTo fuel st id1 id2 = .ok ids) (extra : ℕ) :
    net.showPathFromTo (fuel + extra) st id1 id2 = .ok ids := by
  unfold showPathFromTo at hids ⊢
  cases hstart : net.getRouterFromId id1 with
  | none => exact (hstart ▸ hids :)
  | some start =>
    cases hfinish : net.getRouterFromId id2 with
    | none => exact (hstart ▸ hfinish ▸ hids :)
    | some finish =>
      rw [hstart, hfinish] at hids
      obtain ⟨n, hn, hids⟩ := bind_eq_ok.mp hids
      obtain ⟨ids', hids', hids⟩ := bind_eq_ok.mp hids
      dsimp only
      rw [hn, ok_bind, iterate_orFail_add hids' extra]
      exact hids

omit h hst in
/-- More fuel does not change the path. -/
theorem interfaceBasedPath_add {fuel id1 id2 : ℕ} {path : Text}
    (hpath : net.interfaceBasedPath fuel st id1 id2 = .ok path) (extra : ℕ) :
    net.interfaceBasedPath (fuel + extra) st id1 id2 = .ok path := by
  unfold interfaceBasedPath at hpath ⊢
  cases hstart : net.getRouterFromId id1 with
  | none => exact (hstart ▸ hpath :)
  | some start =>
    cases hfinish : net.getRouterFromId id2 with
    | none => exact (hstart ▸ hfinish ▸ hpath :)
    | some finish =>
      rw [hstart, hfinish] at hpath
      obtain ⟨n, hn, hpath⟩ := bind_eq_ok.mp hpath
      obtain ⟨found, hfound, hpath⟩ := bind_eq_ok.mp hpath
      obtain ⟨s, hs, hpath⟩ := bind_eq_ok.mp hpath
      dsimp only
      rw [hn, ok_bind, hfound, ok_bind, iterate_orFail_add hs extra]
      exact hpath

/-- The path is returned exactly when the next hops end. -/
theorem getInterfaceBasedPath_iff (hc : c ∈ net.ptrListOfRouters)
    (hd : d ∈ net.ptrListOfRouters) :
    (∃ fuel path, net.getInterfaceBasedPathPathFromTo fuel st (net.getRouterId c)
      (net.getRouterId d) = .ok path) ↔ net.Acyclic c d := by
  constructor
  · rintro ⟨fuel, path, hpath⟩
    obtain ⟨path', -, hpath⟩ := bind_eq_ok.mp hpath
    obtain ⟨ids, hids, -⟩ := bind_eq_ok.mp hpath
    exact (h.showPathFromTo_iff hst hc hd).mp ⟨fuel, ids, hids⟩
  · intro hacyclic
    obtain ⟨fuel, path, hpath⟩ := (h.interfaceBasedPath_iff hst hc hd).mpr hacyclic
    obtain ⟨fuel', ids, hids⟩ := (h.showPathFromTo_iff hst hc hd).mpr hacyclic
    refine ⟨fuel + fuel', path, ?_⟩
    rw [getInterfaceBasedPathPathFromTo, interfaceBasedPath_add hpath fuel', Nat.add_comm,
      showPathFromTo_add hids fuel]
    rfl

end WellFormed

/-! ## Where the packets of a network go -/

/-- After `ExploreGraph` a packet comes to its destination, with one call for each router on the
way, and the path between two routers can be shown, exactly when the hops come to no cycle. -/
theorem WellFormed.forwarding_ends_iff (h : net.WellFormed) (hedges : net.EdgeLinks)
    (memory : R → ℕ → Bool) :
    ∃ st, net.exploreGraph memory = .ok st ∧
      (∀ pPacket srcR dstR,
        net.getTheEdgeRouterOf (ascii "As" ++ decimal pPacket.iAsSourceNumber) = some srcR →
        net.getTheEdgeRouterOf (ascii "As" ++ decimal pPacket.iAsDestNumber) = some dstR →
        ((∃ fuel calls, net.forwardPacketE fuel st pPacket = .ok calls ∧
            (calls.map Call.router).Nodup ∧ (calls.map Call.router).getLast? = some dstR) ↔
          Printable pPacket.iAsSourceNumber ∧ Printable pPacket.iAsDestNumber ∧
            net.Acyclic srcR dstR)) ∧
      ∀ c ∈ net.ptrListOfRouters, ∀ d ∈ net.ptrListOfRouters,
        ((∃ fuel ids, net.showPathFromTo fuel st (net.getRouterId c) (net.getRouterId d) = .ok ids) ∧
          (∃ fuel path, net.getInterfaceBasedPathPathFromTo fuel st (net.getRouterId c)
            (net.getRouterId d) = .ok path) ↔ net.Acyclic c d) := by
  obtain ⟨st, hst, hrouted⟩ := h.exists_exploreGraph memory
  refine ⟨st, hst, fun pPacket srcR dstR hsrc hdst => ?_, fun c hc d hd => ?_⟩
  · exact h.forwardPacketE_iff pPacket hrouted hedges hsrc hdst
  · rw [h.showPathFromTo_iff hrouted hc hd, h.getInterfaceBasedPath_iff hrouted hc hd, and_self_iff]

/-- The diamond has its links to ASs. -/
theorem diamond_edgeLinks : diamond.EdgeLinks := by decide

/-- From the first router to the third one there is one hop. -/
theorem diamond_hop : diamond.hop 2 0 = some 2 := by
  refine hop_eq_some_iff.mpr ⟨by decide, .refl 2, diamond_not_improved (by decide) ?_⟩
  rw [diamond_dist, diamond_linkCost]
  decide

/-- The next hops from 0 to 2 end. -/
theorem diamond_acyclic : diamond.Acyclic 0 2 :=
  (diamond_wellFormed.exists_path_iff (by decide) (by decide)).mp
    ⟨[0, 2], .step diamond_hop (.stop (hop_self 2))⟩

/-- Towards the last router the hops go round between the first two. -/
theorem diamond_not_acyclic : ¬ diamond.Acyclic 0 3 := by
  have hforth : diamond.hop 3 0 = some 1 := hop_eq_some_iff.mpr ⟨by decide, diamond_entry⟩
  have hback : diamond.hop 3 1 = some 0 := hop_eq_some_iff.mpr ⟨by decide, diamond_entry_back⟩
  exact not_not_intro ⟨0, .refl 0, 1, hforth, (Leads.refl 0).head hback⟩

/-- A packet from the AS of the first router to the AS of the third one arrives. -/
theorem diamond_arrives : ∃ st, diamond.exploreGraph (fun _ _ => false) = .ok st ∧
    ∃ fuel calls,
      diamond.forwardPacketE fuel st { iAsSourceNumber := 1, iAsDestNumber := 3 } = .ok calls ∧
      (calls.map Call.router).Nodup ∧ (calls.map Call.router).getLast? = some 2 := by
  obtain ⟨st, hst, hpackets, -⟩ :=
    diamond_wellFormed.forwarding_ends_iff diamond_edgeLinks fun _ _ => false
  exact ⟨st, hst, (hpackets { iAsSourceNumber := 1, iAsDestNumber := 3 } 0 2 (by decide)
    (by decide)).mpr ⟨by decide, by decide, diamond_acyclic⟩⟩

/-- A packet from the AS of the first router to the AS of the last one does not, and the path
between the two routers cannot be shown. -/
theorem diamond_endless : diamond.WellFormed ∧ diamond.EdgeLinks ∧
    ∃ st, diamond.exploreGraph (fun _ _ => false) = .ok st ∧
      (¬ ∃ fuel calls,
        diamond.forwardPacketE fuel st { iAsSourceNumber := 1, iAsDestNumber := 4 } = .ok calls ∧
        (calls.map Call.router).Nodup ∧ (calls.map Call.router).getLast? = some 3) ∧
      ¬ ∃ fuel ids, diamond.showPathFromTo fuel st 1 4 = .ok ids := by
  obtain ⟨st, hst, hrouted⟩ := diamond_wellFormed.exists_exploreGraph fun _ _ => false
  refine ⟨diamond_wellFormed, diamond_edgeLinks, st, hst, fun hends => ?_, fun hends => ?_⟩
  · have hsrc : diamond.getTheEdgeRouterOf (ascii "As" ++ decimal 1) = some 0 := by decide
    exact diamond_not_acyclic ((diamond_wellFormed.forwardPacketE_iff
      { iAsSourceNumber := 1, iAsDestNumber := 4 } hrouted diamond_edgeLinks hsrc (by decide)).mp hends).2.2
  · exact diamond_not_acyclic
      ((diamond_wellFormed.showPathFromTo_iff hrouted (c := 0) (d := 3) (by decide)
        (by decide)).mp hends)

/-- After `ExploreGraph` a packet is monitored where it passes exactly when every router on the way
that has a link to the destination has no better path to it. -/
theorem WellFormed.monitors_iff (h : net.WellFormed) (hedges : net.EdgeLinks)
    (memory : R → ℕ → Bool) :
    ∃ st, net.exploreGraph memory = .ok st ∧ ∀ pPacket srcR dstR,
      net.getTheEdgeRouterOf (ascii "As" ++ decimal pPacket.iAsSourceNumber) = some srcR →
      net.getTheEdgeRouterOf (ascii "As" ++ decimal pPacket.iAsDestNumber) = some dstR →
      (net.MonitorsTraversed st pPacket ↔
        Printable pPacket.iAsSourceNumber ∧ Printable pPacket.iAsDestNumber ∧
          ∀ c, Leads (net.hop dstR) srcR c → c ≠ dstR →
            ∀ k, net.linkCost c dstR = some k → k = dist net.linkCost c dstR) := by
  obtain ⟨st, hst, hrouted⟩ := h.exists_exploreGraph memory
  exact ⟨st, hst, fun pPacket srcR dstR hsrc hdst =>
    h.monitorsTraversed_iff pPacket hrouted hedges hsrc hdst⟩

/-- A packet from the AS of the first router to the AS of the third one is. -/
theorem diamond_monitored : ∃ st, diamond.exploreGraph (fun _ _ => false) = .ok st ∧
    diamond.MonitorsTraversed st { iAsSourceNumber := 1, iAsDestNumber := 3 } := by
  obtain ⟨st, hst, hpackets⟩ := diamond_wellFormed.monitors_iff diamond_edgeLinks fun _ _ => false
  refine ⟨st, hst, (hpackets { iAsSourceNumber := 1, iAsDestNumber := 3 } 0 2 (by decide)
    (by decide)).mpr ⟨by decide, by decide, fun c hlead hne k hk => ?_⟩⟩
  rcases hlead.cases with rfl | ⟨m, hm, hlead⟩
  · refine (diamond_wellFormed.hop_eq_dest_iff (by decide) (by decide) (by decide) hk).mp diamond_hop
  · obtain rfl := Option.some.inj (hm.symm.trans diamond_hop)
    rcases hlead.cases with rfl | ⟨m, hm, -⟩
    · exact absurd rfl hne
    · exact absurd (hm.symm.trans (hop_self 2)) (Option.some_ne_none m)

/-- A packet from the AS of the first router to the AS of the last one is not: the first router is
charged with its own link to the last one, and the packet goes to the second one. -/
theorem diamond_not_monitored : diamond.WellFormed ∧ diamond.EdgeLinks ∧
    ∃ st, diamond.exploreGraph (fun _ _ => false) = .ok st ∧
      ¬ diamond.MonitorsTraversed st { iAsSourceNumber := 1, iAsDestNumber := 4 } := by
  obtain ⟨st, hst, hrouted⟩ := diamond_wellFormed.exists_exploreGraph fun _ _ => false
  refine ⟨diamond_wellFormed, diamond_edgeLinks, st, hst, fun hmonitors => ?_⟩
  have hsrc : diamond.getTheEdgeRouterOf (ascii "As" ++ decimal 1) = some 0 := by decide
  have hdst : diamond.getTheEdgeRouterOf (ascii "As" ++ decimal 4) = some 3 := by decide
  obtain ⟨-, -, hbest⟩ := (diamond_wellFormed.monitorsTraversed_iff
    { iAsSourceNumber := 1, iAsDestNumber := 4 } hrouted diamond_edgeLinks hsrc hdst).mp hmonitors
  have hlink := hbest 0 (.refl 0) (by decide) 10 (by rw [diamond_linkCost]; decide)
  rw [diamond_dist] at hlink
  revert hlink
  decide

end TransitNetwork

end Nsp
