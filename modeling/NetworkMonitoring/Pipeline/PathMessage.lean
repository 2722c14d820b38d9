import NetworkMonitoring.Estimation.Paths
import NetworkMonitoring.Nsp.Trips

/-!
# Paths between the emulator and the estimation

`GetInterfaceBasedPathPathFromTo` sends the interfaces at which a packet comes in on its way from
one router to another, and `Add_path` splits the message. The routing tables may be any tables that
lead from router to neighbouring router, and to the destination.

## Main result

* `pathMessage_roundTrip`: the path comes out as it is, for routes of one hop, of two hops and of
  more.

The tables that `ExploreGraph` fills in a well-formed network are such tables, where the hops come
to no cycle (`WellFormed.loopFree`).
-/

namespace Nsp

open CText ErrorLoops FueledLoops Chains Estimation

namespace TransitNetwork

variable {R : Type} [DecidableEq R] (net : TransitNetwork R)

/-! ## Routes -/

/-- The router that `c` sends a packet for `d` to. -/
def nextHop (st : R → RouterState R) (d c : R) : Option R :=
  if c = d then none else (net.getNextRouterToward (st c) c d).toOption

/-- The interface of `n` on the first link of `c` to it. -/
def inputInterface (c n : R) : Option Text :=
  ((net.linksOf c).findSome? (net.adapterOn n)).map Prod.snd

/-- The routing tables lead from every other router to a neighbour, and nowhere in a circle. -/
structure LoopFree (st : R → RouterState R) (d : R) : Prop where
  next : ∀ c ∈ net.ptrListOfRouters, c ≠ d → ∃ n ∈ net.ptrListOfRouters,
    net.nextHop st d c = some n ∧ (net.inputInterface c n).isSome
  acyclic : ∀ c ∈ net.ptrListOfRouters, ¬ Returns (net.nextHop st d) c

/-- No interface has an empty address, or an address with a `#`. -/
def Addressed : Prop := ∀ r ∈ net.ptrListOfRouters, ∀ a ∈ (net.router r).lIps, a ≠ [] ∧ 35 ∉ a

instance : Decidable net.Addressed := inferInstanceAs (Decidable (∀ r ∈ _, _))

/-- The input interfaces of the routers behind a router on the route to `d`. -/
inductive InputInterfaces (st : R → RouterState R) (d : R) : R → List Text → Prop
  | arrived : InputInterfaces st d d []
  | hop {c n : R} {i : Text} {is : List Text} : net.nextHop st d c = some n →
      net.inputInterface c n = some i → InputInterfaces st d n is → InputInterfaces st d c (i :: is)

variable {net} {st : R → RouterState R} {c d n : R} {i : Text} {is : List Text}

theorem nextHop_eq_some (h : net.nextHop st d c = some n) :
    c ≠ d ∧ net.getNextRouterToward (st c) c d = .ok n := by
  rw [nextHop] at h
  split_ifs at h with hne
  refine ⟨hne, ?_⟩
  cases hnext : net.getNextRouterToward (st c) c d with
  | ok n' =>
    rw [hnext] at h
    exact congrArg Except.ok (Option.some.inj h)
  | error e =>
    rw [hnext] at h
    cases h

theorem nextHop_self (st : R → RouterState R) (d : R) : net.nextHop st d d = none := if_pos rfl

omit [DecidableEq R] in
/-- The interface belongs to the router behind the link. -/
theorem mem_lIps_of_inputInterface (h : net.inputInterface c n = some i) :
    i ∈ (net.router n).lIps := by
  obtain ⟨found, hfound, rfl⟩ := Option.map_eq_some_iff.mp h
  obtain ⟨l, -, hl⟩ := List.exists_of_findSome?_eq_some hfound
  obtain ⟨e, -, rfl, hown⟩ := adapterOn_eq_some hl
  exact (List.mem_filter.mp (List.contains_iff_mem.mp hown)).1

/-- `GetLinkTowards` gives the interface of a neighbour. -/
theorem getLinkTowards_inputInterface (h : net.inputInterface c n = some i) (s : RouterState R)
    (fuel : ℕ) : ∃ l, net.getLinkTowards s c (fuel + 1) n = .ok (l, i) := by
  obtain ⟨found, hfound, rfl⟩ := Option.map_eq_some_iff.mp h
  exact ⟨found.1, by rw [getLinkTowards, hfound]⟩

/-- Loop-free tables lead to the destination. -/
theorem LoopFree.exists_inputInterfaces (h : net.LoopFree st d) (hc : c ∈ net.ptrListOfRouters) :
    ∃ is, net.InputInterfaces st d c is := by
  have hmem : ∀ x, Leads (net.nextHop st d) c x → x ∈ net.ptrListOfRouters := fun x hlead =>
    hlead.invariant (P := (· ∈ net.ptrListOfRouters)) hc fun y z _ hy hstep => by
      obtain ⟨n, hn, hnext, -⟩ := h.next y hy (nextHop_eq_some hstep).1
      rwa [Option.some.inj (hstep.symm.trans hnext)]
  have hfin : {x | Leads (net.nextHop st d) c x}.Finite :=
    (List.finite_toSet net.ptrListOfRouters).subset hmem
  obtain ⟨l, hpath⟩ := (Chains.exists_path_iff hfin).mpr fun ⟨x, hlead, hback⟩ =>
    h.acyclic x (hmem x hlead) hback
  clear hfin hmem
  induction hpath with
  | @stop c hnone =>
    by_cases hcd : c = d
    · exact ⟨[], hcd ▸ .arrived⟩
    · obtain ⟨n, -, hnext, -⟩ := h.next c hc hcd
      rw [hnone] at hnext
      cases hnext
  | @step c n l hstep _ ih =>
    obtain ⟨n', hn', hnext, hinput⟩ := h.next c hc (nextHop_eq_some hstep).1
    obtain rfl := Option.some.inj (hstep.symm.trans hnext)
    obtain ⟨i, hi⟩ := Option.isSome_iff_exists.mp hinput
    obtain ⟨is, his⟩ := ih hn'
    exact ⟨i :: is, .hop hstep hi his⟩

theorem Addressed.of_inputInterfaces (h : net.Addressed) (ht : net.LoopFree st d)
    (hc : c ∈ net.ptrListOfRouters) (his : net.InputInterfaces st d c is) :
    ∀ i ∈ is, i ≠ [] ∧ 35 ∉ i := by
  induction his with
  | arrived => simp
  | @hop c n i is hstep hi _ ih =>
    obtain ⟨n', hn', hnext, -⟩ := ht.next c hc (nextHop_eq_some hstep).1
    obtain rfl := Option.some.inj (hstep.symm.trans hnext)
    rintro j hj
    rcases List.mem_cons.mp hj with rfl | hj
    · exact h n hn' j (mem_lIps_of_inputInterface hi)
    · exact ih hn' j hj

/-! ## The loops on a route -/

/-- What `GetInterfaceBasedPathPathFromTo` makes of its variables behind the loop. -/
def PathState.message (s : PathState R) : Text :=
  if s.oneHop then separate s.path else separate (separate s.path ++ s.interfaceWithinDest)

theorem separate_of_ne_nil {path : Text} (h : path ≠ []) : separate path = path ++ ascii "#" :=
  if_pos (List.length_pos_of_ne_nil h)

/-- The loop adds the interfaces of the rest of the route to the path; at the destination it stops
at once. -/
theorem iterate_pathStep (his : net.InputInterfaces st d c is) (hne : ∀ i ∈ is, i ≠ [])
    {s : PathState R} (hs : s.start = c) (hpath : s.path ≠ []) :
    ∃ fuel t, iterate (orFail (net.pathStep st d)) (.error .noReturn) fuel s = .ok t ∧
      (is = [] → t = s) ∧ (is ≠ [] → t.message = separate s.path ++ closed is) := by
  induction his generalizing s with
  | arrived =>
    refine ⟨1, s, iterate_succ_inl (orFail_eq_inl_ok.mpr ?_) 0, fun _ => rfl, fun h => absurd rfl h⟩
    rw [pathStep, if_pos hs]
  | @hop c n i is hstep hi hrest ih =>
    obtain ⟨hcd, hnext⟩ := nextHop_eq_some hstep
    obtain ⟨l, hlink⟩ := getLinkTowards_inputInterface hi (st c) net.ptrListOfRouters.length
    have hsep : separate s.path ≠ [] := by
      rw [separate_of_ne_nil hpath]
      simp [ascii]
    have hgo : net.pathStep st d s =
        .ok (.inr ⟨n, false, i, if n ≠ d then separate s.path ++ i else s.path⟩) := by
      rw [pathStep, if_neg (hs ▸ hcd), hs, hnext, ok_bind, hlink]
      rfl
    obtain ⟨fuel, t, hiter, hstop, hmore⟩ := ih (fun j hj => hne j (List.mem_cons_of_mem i hj))
      (s := ⟨n, false, i, if n ≠ d then separate s.path ++ i else s.path⟩) rfl (by
        split_ifs
        · exact List.append_ne_nil_of_left_ne_nil hsep i
        · exact hpath)
    refine ⟨fuel + 1, t, ?_, fun h => absurd h (List.cons_ne_nil i is), fun _ => ?_⟩
    · rw [iterate_succ_inr (orFail_eq_inr.mpr hgo), hiter]
    cases hrest with
    | arrived =>
      -- the last interface is added behind the loop
      rw [hstop rfl, PathState.message, if_neg (by simp), if_neg (by simp), closed_cons, closed_nil,
        separate_of_ne_nil (List.append_ne_nil_of_left_ne_nil hsep i)]
      exact List.append_assoc _ _ _
    | @hop _ n' i' is' hstep' hi' hrest' =>
      have hnd : n ≠ d := (nextHop_eq_some hstep').1
      rw [hmore (List.cons_ne_nil i' is'), if_pos hnd, closed_cons i,
        separate_of_ne_nil (List.append_ne_nil_of_left_ne_nil hsep i)]
      simp [ascii]

/-- `ShowPathFromTo` ends at the destination. -/
theorem iterate_showStep (his : net.InputInterfaces st d c is) (ids : List ℕ) :
    ∃ fuel ids',
      iterate (orFail (net.showStep st d)) (.error .noReturn) fuel (c, ids) = .ok ids' := by
  induction his generalizing ids with
  | arrived =>
    refine ⟨1, ids, iterate_succ_inl (orFail_eq_inl_ok.mpr ?_) 0⟩
    rw [showStep, if_pos rfl]
  | @hop c n i is hstep _ _ ih =>
    obtain ⟨hcd, hnext⟩ := nextHop_eq_some hstep
    have hgo : net.showStep st d (c, ids) = .ok (.inr (n, ids ++ [net.getRouterId c])) := by
      rw [showStep, if_neg hcd, hnext]
      rfl
    obtain ⟨fuel, ids', hiter⟩ := ih (ids ++ [net.getRouterId c])
    exact ⟨fuel + 1, ids', by rw [iterate_succ_inr (orFail_eq_inr.mpr hgo), hiter]⟩

/-- The message holds the input interfaces of the route, each closed with a `#`. -/
theorem interfaceBasedPath_eq {id1 id2 : ℕ} (h1 : net.getRouterFromId id1 = some c)
    (h2 : net.getRouterFromId id2 = some d) (hcd : c ≠ d) (his : net.InputInterfaces st d c is)
    (hne : ∀ i ∈ is, i ≠ []) :
    ∃ fuel, net.interfaceBasedPath fuel st id1 id2 = .ok (closed is) := by
  cases his with
  | arrived => exact absurd rfl hcd
  | @hop _ n i is hstep hi hrest =>
    obtain ⟨-, hnext⟩ := nextHop_eq_some hstep
    obtain ⟨l, hlink⟩ := getLinkTowards_inputInterface hi (st c) net.ptrListOfRouters.length
    have hi_ne : i ≠ [] := hne i List.mem_cons_self
    obtain ⟨fuel, t, hiter, hstop, hmore⟩ := iterate_pathStep hrest
      (fun j hj => hne j (List.mem_cons_of_mem i hj)) (s := ⟨n, true, i, separate [] ++ i⟩) rfl
      hi_ne
    have hmessage : t.message = closed (i :: is) := by
      by_cases hone : is = []
      · rw [hstop hone, hone, closed_cons, closed_nil]
        exact separate_of_ne_nil hi_ne
      · rw [hmore hone, closed_cons]
        exact (congrArg (· ++ closed is) (separate_of_ne_nil hi_ne)).trans (List.append_assoc _ _ _)
    refine ⟨fuel, ?_⟩
    simp only [interfaceBasedPath, h1, h2, hnext, ok_bind, hlink, hiter]
    exact congrArg Except.ok hmessage

theorem exists_showPathFromTo {id1 id2 : ℕ} (h1 : net.getRouterFromId id1 = some c)
    (h2 : net.getRouterFromId id2 = some d) (hcd : c ≠ d) (his : net.InputInterfaces st d c is) :
    ∃ fuel ids, net.showPathFromTo fuel st id1 id2 = .ok ids := by
  cases his with
  | arrived => exact absurd rfl hcd
  | @hop _ n i is hstep hi hrest =>
    obtain ⟨-, hnext⟩ := nextHop_eq_some hstep
    obtain ⟨fuel, ids, hiter⟩ := iterate_showStep hrest [net.getRouterId c]
    refine ⟨fuel, ids ++ [net.getRouterId d], ?_⟩
    simp only [showPathFromTo, h1, h2, hnext, ok_bind, hiter]
    rfl

/-- `Add_path` gives back the input interfaces of the route from one router to another. -/
theorem pathMessage_roundTrip (hroutes : net.LoopFree st d) (haddr : net.Addressed) {id1 id2 : ℕ}
    (h1 : net.getRouterFromId id1 = some c) (h2 : net.getRouterFromId id2 = some d) (hcd : c ≠ d) :
    ∃ is, net.InputInterfaces st d c is ∧ ∃ fuel path,
      net.getInterfaceBasedPathPathFromTo fuel st id1 id2 = .ok path ∧ addPath path = some is := by
  have hc : c ∈ net.ptrListOfRouters := List.mem_of_find?_eq_some h1
  obtain ⟨is, his⟩ := hroutes.exists_inputInterfaces hc
  have hall := haddr.of_inputInterfaces hroutes hc his
  have hne : is ≠ [] := by
    rintro rfl
    cases his
    exact hcd rfl
  obtain ⟨fuel, hpath⟩ := interfaceBasedPath_eq h1 h2 hcd his fun i hi => (hall i hi).1
  obtain ⟨fuel', ids, hids⟩ := exists_showPathFromTo h1 h2 hcd his
  refine ⟨is, his, fuel + fuel', closed is, ?_, addPath_closed hne fun i hi => (hall i hi).2⟩
  rw [getInterfaceBasedPathPathFromTo, WellFormed.interfaceBasedPath_add hpath fuel', Nat.add_comm,
    WellFormed.showPathFromTo_add hids fuel]
  rfl

/-- Tables that lead from the first router over the second one to the last. -/
def detour : Fin 4 → RouterState (Fin 4) :=
  let router (i : ℕ) := diamond.ptrListOfRouters[i]?
  ![{ prevRouters := ![none, router 0, none, router 1] },
    { prevRouters := ![none, none, none, router 1] },
    { prevRouters := ![none, none, none, router 2] },
    {}]

theorem detour_loopFree : diamond.LoopFree detour 3 where
  next := by decide
  acyclic := by
    have hstop : Path (diamond.nextHop detour 3) 3 [3] := .stop (nextHop_self detour 3)
    have h1 : Path (diamond.nextHop detour 3) 1 [1, 3] := .step (by decide) hstop
    have h2 : Path (diamond.nextHop detour 3) 2 [2, 3] := .step (by decide) hstop
    have h0 : Path (diamond.nextHop detour 3) 0 [0, 1, 3] := .step (by decide) h1
    intro c _
    match c with
    | 0 => exact h0.not_returns (.refl 0)
    | 1 => exact h1.not_returns (.refl 1)
    | 2 => exact h2.not_returns (.refl 2)
    | 3 => exact hstop.not_returns (.refl 3)

/-- The two interfaces on the way come out. -/
theorem detour_roundTrip : ∃ is, diamond.InputInterfaces detour 3 0 is ∧ ∃ fuel path,
    diamond.getInterfaceBasedPathPathFromTo fuel detour 1 4 = .ok path ∧ addPath path = some is :=
  pathMessage_roundTrip detour_loopFree (by decide) (by decide) (by decide) (by decide)

/-! ## The tables that `ExploreGraph` fills -/

namespace WellFormed

variable (h : net.WellFormed)

include h

/-- In a well-formed network the input interface is the other end of the link between two
routers. -/
theorem inputInterface_eq (hc : c ∈ net.ptrListOfRouters) (hn : n ∈ net.ptrListOfRouters)
    {l : Link} (hl : l ∈ net.ptrListOfLinks) {e : Text × Text} (he : e ∈ l.ends)
    (hip : e.1 ∈ (net.router c).lIps) (hip' : e.2 ∈ (net.router n).lIps) :
    net.inputInterface c n = some e.2 := by
  have hcost : net.linkCost c n = some l.uCost :=
    h.routable.linkCost_eq_some_iff.mpr ⟨⟨hc, hn⟩, l, hl, ⟨e, he, hip, hip'⟩, rfl⟩
  have hne := h.routable.ne_of_linkCost hcost
  rcases h.wired.findSome?_adapterOn hc hn hne with ⟨hnone, -⟩ | ⟨-, l', e', he', hfind, hipc, hipn⟩
  · rw [hnone] at hcost
    cases hcost
  have hl' : l' ∈ net.ptrListOfLinks := by
    obtain ⟨l'', hl'', hfound⟩ := List.exists_of_findSome?_eq_some hfind
    obtain ⟨e'', -, hpair, -⟩ := adapterOn_eq_some hfound
    rw [(Prod.mk.inj hpair).1]
    exact ((h.routable.mem_linksOf_iff hc).mp hl'').1
  obtain rfl := h.one_link c hc n hn l hl l' hl' ⟨e, he, hip, hip'⟩ ⟨e', he', hipc, hipn⟩
  -- the two ends of the link are at different routers
  have hends : e' = e := by
    rcases List.mem_pair.mp he with rfl | rfl <;> rcases List.mem_pair.mp he' with rfl | rfl
    · rfl
    · exact absurd (h.adapter_inj c hc n hn _ hip hipn) hne
    · exact absurd (h.adapter_inj c hc n hn _ hip hipn) hne
    · rfl
  rw [inputInterface, hfind, hends]
  rfl

/-- The tables are loop-free where the hops come to no cycle. -/
theorem loopFree (hst : ∀ r ∈ net.ptrListOfRouters, net.Routed r (st r))
    (hd : d ∈ net.ptrListOfRouters) (hacyclic : ∀ c ∈ net.ptrListOfRouters, net.Acyclic c d) :
    net.LoopFree st d := by
  have hnextHop : ∀ c ∈ net.ptrListOfRouters, net.nextHop st d c = net.hop d c := by
    intro c hc
    by_cases hcd : c = d
    · rw [hcd, nextHop_self, hop_self]
    · obtain ⟨n, -, hhop, -⟩ := h.exists_hop hc hd hcd
      rw [nextHop, if_neg hcd, h.getNextRouterToward_hop hst hc hd hhop, hhop]
      rfl
  refine ⟨fun c hc hcd => ?_, fun c hc hback => ?_⟩
  · obtain ⟨n, hn, hhop, hlink⟩ := h.exists_hop hc hd hcd
    refine ⟨n, hn, (hnextHop c hc).trans hhop, ?_⟩
    obtain ⟨-, l, hl, ⟨e, he, hip, hip'⟩, -⟩ := h.routable.linkCost_eq_some_iff.mp hlink
    rw [h.inputInterface_eq hc hn hl he hip hip']
    rfl
  · have hleads : ∀ {x y}, x ∈ net.ptrListOfRouters → Leads (net.nextHop st d) x y →
        y ∈ net.ptrListOfRouters ∧ Leads (net.hop d) x y := fun {x y} hx hlead =>
      hlead.invariant (P := fun y => y ∈ net.ptrListOfRouters ∧ Leads (net.hop d) x y)
        ⟨hx, .refl x⟩ fun y z _ hy hstep => by
          rw [hnextHop y hy.1] at hstep
          exact ⟨h.mem_of_hop hy.1 hd hstep, hy.2.tail hstep⟩
    obtain ⟨n, hstep, hlead⟩ := hback
    rw [hnextHop c hc] at hstep
    exact hacyclic c hc ⟨c, .refl c, n, hstep, (hleads (h.mem_of_hop hc hd hstep) hlead).2⟩

end WellFormed

end TransitNetwork

end Nsp
