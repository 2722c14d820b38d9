import NetworkMonitoring.Nsp.NextHops
import NetworkMonitoring.Nsp.Packet

/-!
# NSP — forwarding packets

`TransitNetwork::ForwardPacketE` carries a packet from the edge router of its source AS to the edge
router of its destination AS: it calls `Router::ForwardPacketE` for the router the packet is at,
which says at which interface the packet comes in next, and the routing table says which router is
next. `ShowPathFromTo` and `GetInterfaceBasedPathPathFromTo` walk through the network in the same
way.

The packets follow the hops: `hop d c` is the entry of `c` towards `d`. Each router on the way
chooses a link to the destination itself if there is one, and the link to the next router otherwise
(`WellFormed.routerForwardPacketE_eq`).
-/

namespace Nsp

open CText ErrorLoops FueledLoops ShortestPaths Chains

/-- `Router::GetInterfaceMonitoringStatus`; `inOut` is 0 for the input and 1 for the output. -/
def Router.getInterfaceMonitoringStatus (r : Router) (interface : Text) (inOut : ℤ) : ℤ :=
  match r.interfaceSamplingStatus.find? (·.1 == interface) with
  | some (_, s) => if inOut = 0 then s.inStatus else if inOut = 1 then s.outStatus else 0
  -- We dont found the interface
  | none => 0

/-- The interfaces at which a router samples a packet, before the packet leaves it. -/
def Router.sampled (r : Router) (inInterface oppositeInterface : Text) : List Text :=
  if r.iIsMonitor = 1 then
    (if r.getInterfaceMonitoringStatus inInterface 0 = 1 then [inInterface] else []) ++
      if r.getInterfaceMonitoringStatus oppositeInterface 1 = 1 then [oppositeInterface] else []
  else []

theorem Router.mem_sampled {r : Router} {inInterface oppositeInterface a : Text}
    (ha : a ∈ r.sampled inInterface oppositeInterface) : a = inInterface ∨ a = oppositeInterface := by
  rw [Router.sampled] at ha
  split_ifs at ha <;> simp_all

/-- The name of an AS, which is printed into `char szAsId[10]`. -/
def asName (number : ℤ) : Except Failure Text :=
  if (decimal number).length < 10 then .ok (ascii "As" ++ decimal number) else .error .overflow

/-- What a call of `Router::ForwardPacketE` leaves behind: the link it has chosen, the interface at
its other end, and the interfaces for which it has called `RandomPeriodicNodeSampling`. -/
structure Forwarded where
  pChoosedLink : Option Link
  interfaceOutIn : Text
  sampled : List Text

/-- A call of `Router::ForwardPacketE`. -/
structure Call (R : Type) where
  router : R
  inInterface : Text
  result : Forwarded

/-- The variables of the loop of `TransitNetwork::ForwardPacketE`, where `tmpDest` is the same as
`inInterface`, and the calls made so far. -/
structure Trip (R : Type) where
  inInterface : Text
  currentR : Option R
  calls : List (Call R)

/-- The variables after a call, when `next` is the next router. -/
def Trip.after {R : Type} (t : Trip R) (call : Call R) (next : Option R) : Trip R where
  inInterface := call.result.interfaceOutIn
  currentR := next
  calls := t.calls ++ [call]

theorem Trip.routers_after {R : Type} (t : Trip R) (call : Call R) (next : Option R) :
    (t.after call next).calls.map Call.router = t.calls.map Call.router ++ [call.router] :=
  List.map_append

namespace TransitNetwork

variable {R : Type} [DecidableEq R] (net : TransitNetwork R)

/-- The adapter of a router on a link, as the loop of `GetLinkTowards` looks for it. -/
def adapterOn (dest : R) (l : Link) : Option (Link × Text) :=
  if net.isItYourAdapter dest l.sAdapter1 then some (l, l.sAdapter1)
  else if net.isItYourAdapter dest l.sAdapter2 then some (l, l.sAdapter2)
  else none

/-- `Router::GetLinkTowards`: the link, and the adapter at its other end. A recursion deeper than
the number of routers has come to a router again. -/
def getLinkTowards (st : RouterState R) (this : R) : ℕ → R → Except Failure (Link × Text)
  | 0, _ => .error .noReturn
  | fuel + 1, dest =>
    match (net.linksOf this).findSome? (net.adapterOn dest) with
    | some found => .ok found
    -- Not a direct Node
    | none => do getLinkTowards st this fuel (← net.getNextRouterToward st this dest)

/-- The first part of `Router::ForwardPacketE`: the link, and the interface at its other end. -/
def chooseLink (st : RouterState R) (this destRouter : R) (sFinalDest : Text) :
    Except Failure (Option Link × Text) :=
  if destRouter ≠ this then
    (net.getLinkTowards st this (net.ptrListOfRouters.length + 1) destRouter).map
      fun found => (some found.1, found.2)
  else .ok (net.getLink this sFinalDest, sFinalDest)

/-- `Router::ForwardPacketE`, up to what happens to a packet that is sampled. The branches for
packets that stay within an AS and for others are the same. -/
def routerForwardPacketE (st : RouterState R) (this : R) (pPacket : Packet) (destRouter : R)
    (inInterface : Text) : Except Failure Forwarded := do
  let _sSource ← asName pPacket.iAsSourceNumber
  let sFinalDest ← asName pPacket.iAsDestNumber
  match ← net.chooseLink st this destRouter sFinalDest with
  -- the exception is caught
  | (none, interfaceWithinDest) => return ⟨none, interfaceWithinDest, []⟩
  | (some l, interfaceWithinDest) => do
    let oppositeInterface ← l.getTheOppositeAdapter interfaceWithinDest
    return ⟨some l, interfaceWithinDest, (net.router this).sampled inInterface oppositeInterface⟩

/-- `TransitNetwork::ForwardPacketE` before the packet leaves: the edge routers of the two ASs, the
next router, and the interface at which the packet comes in. -/
def departure (st : R → RouterState R) (pPacket : Packet) : Except Failure (R × R × R × Text) := do
  let sCurrentInterface ← asName pPacket.iAsSourceNumber
  let sFinalDest ← asName pPacket.iAsDestNumber
  match net.getTheEdgeRouterOf sCurrentInterface, net.getTheEdgeRouterOf sFinalDest with
  | some srcR, some dstR => do
    let nextR ← net.getNextRouterToward (st srcR) srcR dstR
    match net.getLink srcR sCurrentInterface with
    | none => .error .nullPointer
    | some l => return (srcR, dstR, nextR, ← l.getTheOppositeAdapter sCurrentInterface)
  | _, _ => .error .nullPointer

/-- One iteration of the loop of `TransitNetwork::ForwardPacketE`. -/
def tripStep (st : R → RouterState R) (pPacket : Packet) (dstR : R) (sFinalDest : Text)
    (t : Trip R) : Except Failure (Trip R ⊕ Trip R) :=
  if t.inInterface = sFinalDest then .ok (.inl t)
  else
    match t.currentR with
    -- the exception is caught
    | none => .ok (.inl t)
    | some currentR => do
      let out ← net.routerForwardPacketE (st currentR) currentR pPacket dstR t.inInterface
      return .inr (t.after ⟨currentR, t.inInterface, out⟩ ((st currentR).nextRouter dstR))

/-- `TransitNetwork::ForwardPacketE`; the result are the calls of `Router::ForwardPacketE`. -/
def forwardPacketE (fuel : ℕ) (st : R → RouterState R) (pPacket : Packet) :
    Except Failure (List (Call R)) := do
  let (srcR, dstR, nextR, inInterface) ← net.departure st pPacket
  let sFinalDest ← asName pPacket.iAsDestNumber
  -- Verfiying if the packet should stay or not with the current AS
  if srcR = dstR then do
    let out ← net.routerForwardPacketE (st nextR) nextR pPacket dstR inInterface
    return [⟨nextR, inInterface, out⟩]
  else do
    let t ← iterate (orFail (net.tripStep st pPacket dstR sFinalDest)) (.error .noReturn) fuel
      ⟨inInterface, some srcR, []⟩
    return t.calls

/-- One iteration of the loop of `ShowPathFromTo`; the identifiers are those printed so far. -/
def showStep (st : R → RouterState R) (finish : R) (s : R × List ℕ) :
    Except Failure (List ℕ ⊕ R × List ℕ) :=
  if s.1 = finish then .ok (.inl s.2)
  else do
    let next ← net.getNextRouterToward (st s.1) s.1 finish
    return .inr (next, s.2 ++ [net.getRouterId s.1])

/-- `TransitNetwork::ShowPathFromTo`; the result are the identifiers it prints. -/
def showPathFromTo (fuel : ℕ) (st : R → RouterState R) (id1 id2 : ℕ) : Except Failure (List ℕ) :=
  match net.getRouterFromId id1, net.getRouterFromId id2 with
  | some start, some finish => do
    let next ← net.getNextRouterToward (st start) start finish
    let ids ← iterate (orFail (net.showStep st finish)) (.error .noReturn) fuel
      (next, [net.getRouterId start])
    return ids ++ [net.getRouterId finish]
  | _, _ => .ok []

/-- The variables of the loop of `GetInterfaceBasedPathPathFromTo`. -/
structure PathState (R : Type) where
  start : R
  oneHop : Bool
  interfaceWithinDest : Text
  path : Text

/-- Append a `#` to a path that is not empty. -/
def separate (path : Text) : Text := if path.length > 0 then path ++ ascii "#" else path

/-- One iteration of the loop of `GetInterfaceBasedPathPathFromTo`. -/
def pathStep (st : R → RouterState R) (finish : R) (s : PathState R) :
    Except Failure (PathState R ⊕ PathState R) :=
  if s.start = finish then .ok (.inl s)
  else do
    let start ← net.getNextRouterToward (st s.start) s.start finish
    let (_, interfaceWithinDest) ←
      net.getLinkTowards (st s.start) s.start (net.ptrListOfRouters.length + 1) start
    return .inr {
      start := start
      oneHop := false
      interfaceWithinDest := interfaceWithinDest
      path := if start ≠ finish then separate s.path ++ interfaceWithinDest else s.path }

/-- The path that `GetInterfaceBasedPathPathFromTo` returns. -/
def interfaceBasedPath (fuel : ℕ) (st : R → RouterState R) (id1 id2 : ℕ) : Except Failure Text :=
  match net.getRouterFromId id1, net.getRouterFromId id2 with
  | some tmp, some finish => do
    let start ← net.getNextRouterToward (st tmp) tmp finish
    let (_, interfaceWithinDest) ←
      net.getLinkTowards (st tmp) tmp (net.ptrListOfRouters.length + 1) start
    let s ← iterate (orFail (net.pathStep st finish)) (.error .noReturn) fuel
      ⟨start, true, interfaceWithinDest, separate [] ++ interfaceWithinDest⟩
    return if s.oneHop then separate s.path
      else separate (separate s.path ++ s.interfaceWithinDest)
  | _, _ => .ok []

/-- `TransitNetwork::GetInterfaceBasedPathPathFromTo`, which shows the path as well. -/
def getInterfaceBasedPathPathFromTo (fuel : ℕ) (st : R → RouterState R) (id1 id2 : ℕ) :
    Except Failure Text := do
  let path ← net.interfaceBasedPath fuel st id1 id2
  let _ ← net.showPathFromTo fuel st id1 id2
  return path

/-! ## Hops -/

open Classical in
/-- The router that a packet for `d` is to be sent to when it is at `c`. -/
noncomputable def hop (d c : R) : Option R :=
  if h : c ≠ d ∧ ∃ n, net.Entry c d n then some h.2.choose else none

/-- The hops from `s` towards `d` come to no cycle. -/
def Acyclic (s d : R) : Prop := ¬ ∃ c, Leads (net.hop d) s c ∧ Returns (net.hop d) c

variable {net} {r d c n x : R}

theorem hop_eq_some_iff : net.hop d c = some n ↔ c ≠ d ∧ net.Entry c d n := by
  rw [hop]
  split_ifs with h
  · rw [Option.some_inj]
    refine ⟨fun heq => heq ▸ ⟨h.1, h.2.choose_spec⟩, fun hn => h.2.choose_spec.unique hn.2⟩
  · exact iff_of_false id fun hn => h ⟨hn.1, n, hn.2⟩

theorem hop_self (d : R) : net.hop d d = none := dif_neg fun h => h.1 rfl

namespace WellFormed

variable (h : net.WellFormed)

include h

/-- Away from the destination there is a hop, over a link that is a best path. -/
theorem exists_hop (hc : c ∈ net.ptrListOfRouters) (hd : d ∈ net.ptrListOfRouters) (hne : c ≠ d) :
    ∃ n ∈ net.ptrListOfRouters, net.hop d c = some n ∧
      net.linkCost c n = some (dist net.linkCost c n) := by
  obtain ⟨n, hn, hentry, hlink⟩ :=
    h.routable.exists_entry hc (h.routable.mem_others.mpr ⟨hd, hne.symm⟩)
  exact ⟨n, (h.routable.mem_others.mp hn).1, hop_eq_some_iff.mpr ⟨hne, hentry⟩, hlink⟩

/-- The hops end at the destination only. -/
theorem eq_of_hop_eq_none (hc : c ∈ net.ptrListOfRouters) (hd : d ∈ net.ptrListOfRouters)
    (hnone : net.hop d c = none) : c = d := by
  by_contra hne
  obtain ⟨n, -, hn, -⟩ := h.exists_hop hc hd hne
  rw [hnone] at hn
  cases hn

theorem mem_of_hop (hc : c ∈ net.ptrListOfRouters) (hd : d ∈ net.ptrListOfRouters)
    (hn : net.hop d c = some n) : n ∈ net.ptrListOfRouters := by
  obtain ⟨n', hn', hhop, -⟩ := h.exists_hop hc hd (hop_eq_some_iff.mp hn).1
  rwa [Option.some.inj (hn.symm.trans hhop)]

/-- The hops stay in the network. -/
theorem mem_of_leads (hc : c ∈ net.ptrListOfRouters) (hd : d ∈ net.ptrListOfRouters)
    (hlead : Leads (net.hop d) c x) : x ∈ net.ptrListOfRouters :=
  hlead.invariant (P := (· ∈ net.ptrListOfRouters)) hc fun _ _ _ hy hhop => h.mem_of_hop hy hd hhop

/-- There is a path of hops exactly when they come to no cycle. -/
theorem exists_path_iff (hc : c ∈ net.ptrListOfRouters) (hd : d ∈ net.ptrListOfRouters) :
    (∃ l, Path (net.hop d) c l) ↔ net.Acyclic c d :=
  Chains.exists_path_iff <| (List.finite_toSet net.ptrListOfRouters).subset
    fun _ hlead => h.mem_of_leads hc hd hlead

/-- It ends at the destination. -/
theorem getLast?_of_path (hc : c ∈ net.ptrListOfRouters) (hd : d ∈ net.ptrListOfRouters) {l : List R}
    (hpath : Path (net.hop d) c l) : l.getLast? = some d := by
  obtain ⟨b, hlast, hend⟩ := hpath.endsAt
  rw [hlast, h.eq_of_hop_eq_none (h.mem_of_leads hc hd hend.1) hd hend.2]

end WellFormed

/-! ## Links to the next router -/

omit [DecidableEq R] in
/-- The adapter found is on the link, opposite to the one of the router the link belongs to. -/
theorem adapterOn_eq_some {l : Link} {found : Link × Text} (hfound : net.adapterOn d l = some found) :
    ∃ e ∈ l.ends, found = (l, e.2) ∧ net.isItYourAdapter d e.2 = true := by
  rw [adapterOn] at hfound
  split_ifs at hfound with h1 h2
  · exact ⟨(l.sAdapter2, l.sAdapter1), by simp [Link.ends], (Option.some.inj hfound).symm, h1⟩
  · exact ⟨(l.sAdapter1, l.sAdapter2), by simp [Link.ends], (Option.some.inj hfound).symm, h2⟩

omit [DecidableEq R] in
theorem adapterOn_isSome {l : Link} {e : Text × Text} (he : e ∈ l.ends)
    (hown : net.isItYourAdapter d e.2 = true) : (net.adapterOn d l).isSome := by
  rw [adapterOn]
  split_ifs with h1 h2
  · rfl
  · rfl
  · rcases List.mem_pair.mp he with rfl | rfl
    · exact absurd hown h2
    · exact absurd hown h1

variable (net d) in
/-- At the destination a call leads out of the network. -/
theorem routerForwardPacketE_self (st : RouterState R) {pPacket : Packet}
    {sSource sFinalDest : Text} (hsource : asName pPacket.iAsSourceNumber = .ok sSource)
    (hdest : asName pPacket.iAsDestNumber = .ok sFinalDest) (inInterface : Text) :
    ∃ out, net.routerForwardPacketE st d pPacket d inInterface = .ok out ∧
      out.interfaceOutIn = sFinalDest := by
  rw [routerForwardPacketE, hsource, hdest, ok_bind, ok_bind, chooseLink, if_neg (not_not.mpr rfl)]
  cases hlink : net.getLink d sFinalDest with
  | none => exact ⟨_, rfl, rfl⟩
  | some l =>
    obtain ⟨e, he, rfl⟩ := isItOneOfTheAdapters_iff.mp
      (List.find?_some (p := fun l : Link => l.isItOneOfTheAdapters sFinalDest) hlink)
    refine ⟨⟨some l, e.1, (net.router d).sampled inInterface e.2⟩, ?_, rfl⟩
    simp only [ok_bind, getTheOppositeAdapter_eq he]
    rfl

/-- The router at `c` that makes the call chooses a link to `x`: the packet comes in at the adapter
of `x` on it, and it is sampled at interfaces of `c` only. -/
def Crosses (net : TransitNetwork R) (x : R) (call : Call R) : Prop :=
  ∃ l, call.result.pChoosedLink = some l ∧ ∃ e ∈ l.ends,
    net.isItYourAdapter call.router e.1 = true ∧ net.isItYourAdapter x e.2 = true ∧
    call.result.interfaceOutIn = e.2 ∧
    ∀ a ∈ call.result.sampled, a = call.inInterface ∨ a = e.1

namespace Wired

variable (h : net.Wired)

include h

/-- `GetLinkTowards` finds the link to a neighbour, and nothing for other routers. -/
theorem findSome?_adapterOn (hc : c ∈ net.ptrListOfRouters) (hd : d ∈ net.ptrListOfRouters)
    (hne : c ≠ d) :
    (net.linkCost c d = none ∧ (net.linksOf c).findSome? (net.adapterOn d) = none) ∨
      ((net.linkCost c d).isSome ∧ ∃ l, ∃ e ∈ l.ends,
        (net.linksOf c).findSome? (net.adapterOn d) = some (l, e.2) ∧
        e.1 ∈ (net.router c).lIps ∧ e.2 ∈ (net.router d).lIps) := by
  cases hfind : (net.linksOf c).findSome? (net.adapterOn d) with
  | some found =>
    obtain ⟨l, hl, hfound⟩ := List.exists_of_findSome?_eq_some hfind
    obtain ⟨e, he, rfl, hown⟩ := adapterOn_eq_some hfound
    obtain ⟨hlink, e', he', hip'⟩ := (h.mem_linksOf_iff hc).mp hl
    have hip := (h.isItYourAdapter_iff hd).mp hown
    -- the adapter of `c` is the other one
    obtain rfl : e' = e := by
      rcases List.mem_pair.mp he with rfl | rfl <;> rcases List.mem_pair.mp he' with rfl | rfl
      · rfl
      · exact absurd (h.adapter_inj c hc d hd _ hip' hip) hne
      · exact absurd (h.adapter_inj c hc d hd _ hip' hip) hne
      · rfl
    have hcost : net.linkCost c d = some l.uCost :=
      h.linkCost_eq_some_iff.mpr ⟨⟨hc, hd⟩, l, hlink, ⟨e', he, hip', hip⟩, rfl⟩
    exact .inr ⟨by rw [hcost]; rfl, l, e', he, rfl, hip', hip⟩
  | none =>
    cases hcost : net.linkCost c d with
    | none => exact .inl ⟨rfl, rfl⟩
    | some k =>
      obtain ⟨-, l, hl, ⟨e, he, hip, hip'⟩, -⟩ := h.linkCost_eq_some_iff.mp hcost
      have hmem : l ∈ net.linksOf c := (h.mem_linksOf_iff hc).mpr ⟨hl, e, he, hip⟩
      have hsome := adapterOn_isSome he ((h.isItYourAdapter_iff hd).mpr hip')
      rw [List.findSome?_eq_none_iff.mp hfind l hmem] at hsome
      cases hsome

end Wired

namespace WellFormed

variable (h : net.WellFormed) {st : R → RouterState R}

include h

/-- `GetLinkTowards` chooses a direct link if there is one, and the link to the next router
otherwise. -/
theorem getLinkTowards_eq (hst : ∀ r ∈ net.ptrListOfRouters, net.Routed r (st r))
    (hc : c ∈ net.ptrListOfRouters) (hd : d ∈ net.ptrListOfRouters) (hne : c ≠ d) :
    ∃ x ∈ net.ptrListOfRouters, ∃ l, ∃ e ∈ l.ends,
      net.getLinkTowards (st c) c (net.ptrListOfRouters.length + 1) d = .ok (l, e.2) ∧
      e.1 ∈ (net.router c).lIps ∧ e.2 ∈ (net.router x).lIps ∧
      ((net.linkCost c d).isSome → x = d) ∧ (net.linkCost c d = none → net.hop d c = some x) := by
  rcases h.wired.findSome?_adapterOn hc hd hne with
    ⟨hnone, hfind⟩ | ⟨hsome, l, e, he, hfind, hip, hip'⟩
  · obtain ⟨n, hn, hhop, hlink⟩ := h.exists_hop hc hd hne
    have hnc : c ≠ n := h.routable.ne_of_linkCost hlink
    obtain ⟨-, hentry⟩ := hop_eq_some_iff.mp hhop
    have hnext := h.routable.getNextRouterToward_eq hc (hst c hc).toSearched
      (h.routable.mem_others.mpr ⟨hd, hne.symm⟩) hentry
    -- there is no direct link, but there is one to the next router
    rcases h.wired.findSome?_adapterOn hc hn hnc with ⟨hnone', -⟩ | ⟨-, l, e, he, hfind', hip, hip'⟩
    · rw [hlink] at hnone'
      cases hnone'
    obtain ⟨k, hk⟩ := Nat.exists_eq_succ_of_ne_zero (List.length_pos_of_mem hc).ne'
    refine ⟨n, hn, l, e, he, ?_, hip, hip', fun hs => ?_, fun _ => hhop⟩
    · rw [hk, getLinkTowards, hfind, hnext]
      simp only [ok_bind, getLinkTowards, hfind']
    · rw [hnone] at hs
      cases hs
  · refine ⟨d, hd, l, e, he, ?_, hip, hip', fun _ => rfl, fun hnone => ?_⟩
    · rw [getLinkTowards, hfind]
    · rw [hnone] at hsome
      cases hsome

/-- Away from the destination a call crosses a link, to the destination itself if it is a neighbour
and along the hop otherwise. -/
theorem routerForwardPacketE_eq (hst : ∀ r ∈ net.ptrListOfRouters, net.Routed r (st r))
    (hc : c ∈ net.ptrListOfRouters) (hd : d ∈ net.ptrListOfRouters) (hne : c ≠ d) {pPacket : Packet}
    {sSource sFinalDest : Text} (hsource : asName pPacket.iAsSourceNumber = .ok sSource)
    (hdest : asName pPacket.iAsDestNumber = .ok sFinalDest) (inInterface : Text) :
    ∃ out, net.routerForwardPacketE (st c) c pPacket d inInterface = .ok out ∧
      ∃ x ∈ net.ptrListOfRouters, net.Crosses x ⟨c, inInterface, out⟩ ∧
        ((net.linkCost c d).isSome → x = d) ∧ (net.linkCost c d = none → net.hop d c = some x) := by
  obtain ⟨x, hx, l, e, he, hlink, hip, hip', hdirect, hindirect⟩ :=
    h.getLinkTowards_eq hst hc hd hne
  have hopposite : l.getTheOppositeAdapter e.2 = .ok e.1 :=
    getTheOppositeAdapter_eq (e := (e.2, e.1)) (swap_mem_ends he)
  rw [routerForwardPacketE, hsource, hdest, ok_bind, ok_bind, chooseLink, if_pos hne.symm, hlink]
  refine ⟨⟨some l, e.2, (net.router c).sampled inInterface e.1⟩, ?_, x, hx,
    ⟨l, rfl, e, he, (h.routable.isItYourAdapter_iff hc).mpr hip,
      (h.routable.isItYourAdapter_iff hx).mpr hip', rfl, fun a ha => Router.mem_sampled ha⟩,
    hdirect, hindirect⟩
  simp only [Except.map, ok_bind, hopposite]
  rfl

end WellFormed

end TransitNetwork

end Nsp
