import NetworkMonitoring.Nsp.Forwarding

/-!
# NSP — the walk back through the previous routers

`Router::GetNextRouterToward` has no counter. It follows `prevRouters` until it comes to the router
itself or to one without an entry, and it would go on for ever on a cycle. There is none after
`Dijkstra`: a previous router has been settled before the router it is recorded for, and an entry is
never replaced, so each step of the walk comes nearer to the root in the order in which the routers
are settled (`Routable.rank_lt_of_prev`).

`Dijkstra` itself returns exactly when the other routers have identifiers of their own that fit its
array (`Routable.dijkstra_returns_iff`).
-/

namespace Nsp

open ErrorLoops FueledLoops ShortestPaths Chains

namespace TransitNetwork

variable {R : Type} [DecidableEq R] {net : TransitNetwork R}

/-- The states in which `ExploreGraph` calls `Dijkstra` for `r`: its maps are those of the first
loop, and the other routers have kept the costs of their links. -/
def Awaits (st₀ st : R → RouterState R) (r : R) : Prop :=
  st r = st₀ r ∧ ∀ d, (st d).directRoutersCosts = (st₀ d).directRoutersCosts

namespace Routable

variable (h : net.Routable) {r d m : R} {s : RouterState R}

include h

/-- A previous router is not the root, and it comes before the router it is recorded for. -/
theorem rank_lt_of_prev (hr : r ∈ net.ptrListOfRouters) (hs : net.Searched r s)
    (hrest : ∀ d, d ∉ net.others r → s.prevRouters d = none) (hprev : s.prevRouters d = some m) :
    m ∈ net.others r ∧
      rank (dist net.linkCost r) (net.others r) m <
        rank (dist net.linkCost r) (net.others r) d := by
  have hd : d ∈ net.others r := by
    by_contra hd
    rw [hrest d hd] at hprev
    cases hprev
  rw [hs.prev d hd] at hprev
  obtain ⟨hm, hbefore⟩ := (h.rooted hr).before_of_firstImprover hd hprev
  exact ⟨hm, rank_lt_rank hm hbefore⟩

/-- The previous routers come to no cycle. -/
theorem not_returns (hr : r ∈ net.ptrListOfRouters) (hs : net.Searched r s)
    (hrest : ∀ d, d ∉ net.others r → s.prevRouters d = none) : ¬ Returns s.prevRouters d := by
  rintro ⟨m, hm, hback⟩
  have hlt := (h.rank_lt_of_prev hr hs hrest hm).2
  -- on the way back the rank does not grow
  have hle := hback.invariant (P := fun x => rank (dist net.linkCost r) (net.others r) x ≤
    rank (dist net.linkCost r) (net.others r) m) le_rfl fun x y _ hx hstep =>
      ((h.rank_lt_of_prev hr hs hrest hstep).2.le).trans hx
  omega

/-- A router finds one of its own links towards itself. -/
theorem exists_link_self (hr : r ∈ net.ptrListOfRouters) :
    ∃ found, (net.linksOf r).findSome? (net.adapterOn r) = some found := by
  obtain ⟨a, ha⟩ := List.exists_mem_of_ne_nil _ (h.lIps_ne_nil r hr)
  obtain ⟨l, hl, hla⟩ := h.exists_link r hr a ha
  obtain ⟨e, he, rfl⟩ := isItOneOfTheAdapters_iff.mp hla
  have hmem : l ∈ net.linksOf r := (h.mem_linksOf_iff hr).mpr ⟨hl, e, he, ha⟩
  have hsome : (net.adapterOn r l).isSome :=
    adapterOn_isSome (swap_mem_ends he) ((h.isItYourAdapter_iff hr).mpr ha)
  obtain ⟨found, hfound⟩ := Option.isSome_iff_exists.mp hsome
  cases hfind : (net.linksOf r).findSome? (net.adapterOn r) with
  | some found => exact ⟨found, rfl⟩
  | none =>
    rw [List.findSome?_eq_none_iff.mp hfind l hmem] at hfound
    cases hfound

/-- `GetLinkTowards` finds a link, of the router itself or after one recursive call. -/
theorem getLinkTowards_two (hr : r ∈ net.ptrListOfRouters) (hd : d ∈ net.ptrListOfRouters)
    (hs : net.Searched r s) : ∃ found, net.getLinkTowards s r 2 d = .ok found := by
  rw [getLinkTowards]
  cases hfind : (net.linksOf r).findSome? (net.adapterOn d) with
  | some found => exact ⟨found, rfl⟩
  | none =>
    have hne : d ≠ r := by
      rintro rfl
      obtain ⟨found, hfound⟩ := h.exists_link_self hr
      rw [hfind] at hfound
      cases hfound
    -- not a direct node, but the next router towards it is one
    obtain ⟨n, hn, hentry, hlink⟩ := h.exists_entry hr (h.mem_others.mpr ⟨hd, hne⟩)
    obtain ⟨hn, hnr⟩ := h.mem_others.mp hn
    rcases h.findSome?_adapterOn hr hn hnr.symm with ⟨hnone, -⟩ | ⟨-, l, e, -, hfound, -⟩
    · rw [hlink] at hnone
      cases hnone
    · refine ⟨(l, e.2), ?_⟩
      rw [h.getNextRouterToward_eq hr hs (h.mem_others.mpr ⟨hd, hne⟩) hentry]
      simp only [ok_bind, getLinkTowards, hfound]

/-- `Dijkstra` returns exactly when the other routers have identifiers of their own, which fit its
array. -/
theorem dijkstra_returns_iff (hr : r ∈ net.ptrListOfRouters) {st : R → RouterState R}
    (hst : net.Explored r (st r)) (hdirect : ∀ d, (st d).directRoutersCosts = net.linkCost d)
    (memory : ℕ → Bool) :
    (∃ s, net.dijkstra memory st r = .ok s) ↔ net.IdsDiffer r ∧ net.IdsFit r := by
  constructor
  · rintro ⟨s, hs⟩
    exact ⟨h.idsDiffer_of_dijkstra hr hst hdirect hs, h.idsFit_of_dijkstra hst hdirect hs⟩
  · rintro ⟨hids, hfit⟩
    have hends : Ends _ _ (net.dijkstra memory st r) := h.dijkstra_ends hr hids hfit hst hdirect
    obtain ⟨s, hs, -⟩ := hends.exists_ok
    exact ⟨s, hs⟩

/-- What `Dijkstra` leaves when it returns. -/
theorem searched_of_dijkstra (hr : r ∈ net.ptrListOfRouters) {st : R → RouterState R}
    (hst : net.Explored r (st r)) (hdirect : ∀ d, (st d).directRoutersCosts = net.linkCost d)
    {memory : ℕ → Bool} (hs : net.dijkstra memory st r = .ok s) :
    net.Searched r s ∧ ∀ d, d ∉ net.others r → s.prevRouters d = none := by
  have hids := h.idsDiffer_of_dijkstra hr hst hdirect hs
  have hfit := h.idsFit_of_dijkstra hst hdirect hs
  have hends : Ends _ _ (net.dijkstra memory st r) := h.dijkstra_ends hr hids hfit hst hdirect
  rw [hs] at hends
  exact hends.1

/-- **The predecessor walk is well-founded.** `Dijkstra` returns for `r` exactly when the other
routers have identifiers of their own that fit its array. Then the previous routers have no cycle,
and `r` is none of them. Towards every other router `GetNextRouterToward` ends at a neighbour of
`r`, towards `r` it returns `r`, and `GetLinkTowards` calls itself at most once. -/
theorem predecessors_wellFounded (hr : r ∈ net.ptrListOfRouters) :
    ∃ st₀, net.exploreNodes = .ok st₀ ∧ ∀ memory st, Awaits st₀ st r →
      ((∃ s, net.dijkstra memory st r = .ok s) ↔ net.IdsDiffer r ∧ net.IdsFit r) ∧
      ∀ s, net.dijkstra memory st r = .ok s →
        (∀ d, s.prevRouters d ≠ some r) ∧ (∀ d, ¬ Returns s.prevRouters d) ∧
        (∀ d ∈ net.ptrListOfRouters, d ≠ r →
          ∃ n, net.getNextRouterToward s r d = .ok n ∧ (net.linkCost r n).isSome) ∧
        net.getNextRouterToward s r r = .ok r ∧
        ∀ d ∈ net.ptrListOfRouters, ∃ found, net.getLinkTowards s r 2 d = .ok found := by
  obtain ⟨st₀, hst₀, hexplored, hdirect⟩ := h.exploreNodes_ends.exists_ok
  refine ⟨st₀, hst₀, ?_⟩
  rintro memory st ⟨hsame, hkept⟩
  have hst : net.Explored r (st r) := hsame ▸ hexplored r hr
  have hcosts : ∀ d, (st d).directRoutersCosts = net.linkCost d :=
    fun d => (hkept d).trans (hdirect d)
  refine ⟨h.dijkstra_returns_iff hr hst hcosts memory, fun s hdijkstra => ?_⟩
  obtain ⟨hs, hrest⟩ := h.searched_of_dijkstra hr hst hcosts hdijkstra
  refine ⟨?_, fun d => h.not_returns hr hs hrest, ?_, if_pos rfl, ?_⟩
  · intro d hprev
    exact (h.mem_others.mp (h.rank_lt_of_prev hr hs hrest hprev).1).2 rfl
  · intro d hd hne
    have hmem : d ∈ net.others r := h.mem_others.mpr ⟨hd, hne⟩
    obtain ⟨n, -, hentry, hlink⟩ := h.exists_entry hr hmem
    exact ⟨n, h.getNextRouterToward_eq hr hs hmem hentry, by rw [hlink]; rfl⟩
  · intro d hd
    exact h.getLinkTowards_two hr hd hs

end Routable

/-- In the network of four routers `Dijkstra` returns for the first one. -/
theorem diamond_dijkstra : ∃ st₀ s, diamond.exploreNodes = .ok st₀ ∧
    diamond.dijkstra (fun _ => false) st₀ 0 = .ok s := by
  have hroutable := diamond_wellFormed.routable
  obtain ⟨st₀, hst₀, hexplored, hdirect⟩ := hroutable.exploreNodes_ends.exists_ok
  obtain ⟨s, hs⟩ := (hroutable.dijkstra_returns_iff (by decide) (hexplored 0 (by decide)) hdirect
    fun _ => false).mpr ⟨diamond_wellFormed.idsDiffer 0, diamond_wellFormed.idsFit 0⟩
  exact ⟨st₀, s, hst₀, hs⟩

/-- Its walk back from the last router ends, and no router is on a cycle. -/
theorem diamond_predecessors : ∃ st₀ s, diamond.exploreNodes = .ok st₀ ∧
    diamond.dijkstra (fun _ => false) st₀ 0 = .ok s ∧ (∀ d, ¬ Returns s.prevRouters d) ∧
    ∃ n, diamond.getNextRouterToward s 0 3 = .ok n ∧ (diamond.linkCost 0 n).isSome := by
  obtain ⟨st₀, s, hst₀, hs⟩ := diamond_dijkstra
  obtain ⟨st₀', hst₀', hwalk⟩ :=
    diamond_wellFormed.routable.predecessors_wellFounded (r := 0) (by decide)
  obtain rfl := Except.ok.inj (hst₀.symm.trans hst₀')
  obtain ⟨-, hacyclic, hnext, -, -⟩ := (hwalk _ _ ⟨rfl, fun _ => rfl⟩).2 s hs
  exact ⟨st₀, s, hst₀, hs, hacyclic, hnext 3 (by decide) (by decide)⟩

/-- Towards itself a router is the next one, and it has no link to itself. -/
theorem diamond_next_self : ∃ st₀ s, diamond.exploreNodes = .ok st₀ ∧
    diamond.dijkstra (fun _ => false) st₀ 0 = .ok s ∧
    diamond.getNextRouterToward s 0 0 = .ok 0 ∧ diamond.linkCost 0 0 = none := by
  obtain ⟨st₀, s, hst₀, hs⟩ := diamond_dijkstra
  exact ⟨st₀, s, hst₀, hs, if_pos rfl, diamond_wellFormed.routable.linkCost_self 0⟩

end TransitNetwork

end Nsp
