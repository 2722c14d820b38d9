import NetworkMonitoring.Foundations.FueledLoops
import NetworkMonitoring.Nsp.Dijkstra
import Mathlib.Data.Fin.VecNotation

/-!
# NSP — the routing tables

`Router::GetNextRouterToward`, which follows `prevRouters` from a destination back to a neighbour of
the router, `Router::DrawDifferentPaths`, which stores the results in `nextRouter`, and
`TransitNetwork::ExploreGraph`, which fills the maps of all routers.

In a well-formed network `ExploreGraph` ends, and `nextRouter` has the `Entry` for each destination:
the neighbour at which the first improvers of the destination end (`WellFormed.exploreGraph_ends`).
The costs are those of best paths (`WellFormed.exploreGraph_costs`). The entry need not be on a best
path: in the network `diamond` it leads away from the destination, and
`WellFormed.exploreGraph_next_iff` says when it is.
-/

namespace Nsp

open CText ErrorLoops FueledLoops ShortestPaths Chains

namespace TransitNetwork

variable {R : Type} [DecidableEq R] (net : TransitNetwork R)

/-- One iteration of the loop of `GetNextRouterToward`, where an entry that is missing is NULL. -/
def nextRouterStep (prevRouters : R → Option R) (this tmp : R) : Except Failure R ⊕ R :=
  match prevRouters tmp with
  | none => .inl (.ok tmp)
  | some next => if next = this then .inl (.ok tmp) else .inr next

/-- `Router::GetNextRouterToward`. A loop that goes on for more iterations than there are routers
has come to a router again. -/
def getNextRouterToward (st : RouterState R) (this r : R) : Except Failure R :=
  if r = this then .ok this
  else
    iterate (nextRouterStep st.prevRouters this) (.error .noReturn) net.ptrListOfRouters.length r

/-- `Router::DrawDifferentPaths`. -/
def drawDifferentPaths (this : R) (st : RouterState R) : Except Failure (RouterState R) :=
  (net.keys st.allRoutersCosts).foldlM (fun st k => do
    let next ← net.getNextRouterToward st this k
    return { st with nextRouter := Function.update st.nextRouter k (some next) }) st

/-- The first loop of `ExploreGraph`, without `UpdateLinksDests`, which changes the links only. -/
def exploreNodes : Except Failure (R → RouterState R) :=
  net.ptrListOfRouters.foldlM (fun st r =>
    return Function.update st r (← net.exploreNodeGraph r)) fun _ => {}

/-- `TransitNetwork::ExploreGraph`. The array `visited` of `Dijkstra` is `memory r` when it is
called
for `r`. -/
def exploreGraph (memory : R → ℕ → Bool) : Except Failure (R → RouterState R) := do
  let st ← net.exploreNodes
  net.ptrListOfRouters.foldlM (fun st r =>
    return Function.update st r (← net.dijkstra (memory r) st r >>= net.drawDifferentPaths r)) st

/-- `n` is the neighbour of `r` at which the first improvers of `d` end. -/
def Entry (r d n : R) : Prop :=
  EndsAt (firstImprover net.linkCost r infinity (net.others r)) d n

/-- What a router knows after `ExploreGraph`. -/
structure Routed (r : R) (st : RouterState R) : Prop extends net.Searched r st where
  next : ∀ d ∈ net.others r, ∃ n, net.Entry r d n ∧ st.nextRouter d = some n
  next_none : ∀ d, d ∉ net.others r → st.nextRouter d = none

variable {net} in
/-- `nextRouter` has the entry. -/
theorem Routed.nextRouter_eq {r d n : R} {st : RouterState R} (hst : net.Routed r st)
    (hd : d ∈ net.others r) (hn : net.Entry r d n) : st.nextRouter d = some n := by
  obtain ⟨n', hn', hnext⟩ := hst.next d hd
  rw [hnext, hn.unique hn']

namespace Routable

variable {net} (h : net.Routable) {r d : R} {st : RouterState R}

include h

/-- After the first loop of `ExploreGraph` all routers know their links. -/
theorem exploreNodes_ends :
    Ends (fun _ => False) (fun st => (∀ r ∈ net.ptrListOfRouters, net.Explored r (st r)) ∧
      ∀ r, (st r).directRoutersCosts = net.linkCost r) net.exploreNodes := by
  refine (Ends.foldlM_update (I := fun _ => True) (P := fun _ s => s = {})
    (Q := fun r s => net.Explored r s) h.routers_nodup ?_ trivial fun _ _ => rfl).imp
    (fun _ => id) ?_
  · intro _ r hr _ _
    exact (h.exploreNodeGraph_ends hr).imp (fun _ => id) fun s hs => ⟨hs, trivial⟩
  rintro st ⟨-, hexplored, hrest⟩
  refine ⟨hexplored, fun r => ?_⟩
  by_cases hr : r ∈ net.ptrListOfRouters
  · exact (hexplored r hr).direct
  · rw [hrest r hr]
    ext d : 1
    rw [linkCost, if_neg fun hmem => hr hmem.1]

/-- The first improvers of a router end at a neighbour, the link to which is a best path. -/
theorem exists_entry (hr : r ∈ net.ptrListOfRouters) (hd : d ∈ net.others r) :
    ∃ n ∈ net.others r, net.Entry r d n ∧ net.linkCost r n = some (dist net.linkCost r n) :=
  (h.rooted hr).exists_entry hd

/-- The loop follows the first improvers, each of which comes before the one it improves. -/
theorem nextRouterStep_cases (hr : r ∈ net.ptrListOfRouters) (hst : net.Searched r st) {tmp : R}
    (htmp : tmp ∈ net.others r) :
    (firstImprover net.linkCost r infinity (net.others r) tmp = none ∧
        nextRouterStep st.prevRouters r tmp = .inl (.ok tmp)) ∨
      ∃ m, firstImprover net.linkCost r infinity (net.others r) tmp = some m ∧
        m ∈ net.others r ∧
        rank (dist net.linkCost r) (net.others r) m < rank (dist net.linkCost r) (net.others r) tmp ∧
        nextRouterStep st.prevRouters r tmp = .inr m := by
  rw [nextRouterStep, hst.prev tmp htmp]
  cases hfirst : firstImprover net.linkCost r infinity (net.others r) tmp with
  | none => exact .inl ⟨rfl, rfl⟩
  | some m =>
    obtain ⟨hm, hbefore⟩ := (h.rooted hr).before_of_firstImprover htmp hfirst
    exact .inr ⟨m, rfl, hm, rank_lt_rank hm hbefore, if_neg (h.mem_others.mp hm).2⟩

/-- There are fewer other routers than routers. -/
theorem length_others_lt (hr : r ∈ net.ptrListOfRouters) :
    (net.others r).length < net.ptrListOfRouters.length := by
  rw [← h.addressOrder_perm.length_eq]
  exact List.length_filter_lt_length_iff_exists.mpr
    ⟨r, h.addressOrder_perm.mem_iff.mpr hr, by simp⟩

/-- `GetNextRouterToward` returns the entry. -/
theorem getNextRouterToward_eq (hr : r ∈ net.ptrListOfRouters) (hst : net.Searched r st)
    (hd : d ∈ net.others r) {n : R} (hn : net.Entry r d n) :
    net.getNextRouterToward st r d = .ok n := by
  have hfuel : rank (dist net.linkCost r) (net.others r) d < net.ptrListOfRouters.length :=
    (rank_le_length _ _ _).trans_lt (h.length_others_lt hr)
  rw [getNextRouterToward, if_neg (h.mem_others.mp hd).2]
  generalize net.ptrListOfRouters.length = fuel at hfuel ⊢
  induction fuel generalizing d with
  | zero => exact absurd hfuel (Nat.not_lt_zero _)
  | succ fuel ih =>
    rcases h.nextRouterStep_cases hr hst hd with ⟨hnone, hstep⟩ | ⟨m, hsome, hm, hlt, hstep⟩
    · rw [iterate_succ_inl hstep, hn.unique ⟨.refl d, hnone⟩]
    · rw [iterate_succ_inr hstep]
      refine ih hm ⟨?_, hn.2⟩ (by omega)
      rcases hn.1.cases with rfl | ⟨m', hm', hlead⟩
      · rw [hn.2] at hsome
        cases hsome
      · rwa [Option.some.inj (hsome.symm.trans hm')]

end Routable

namespace WellFormed

variable {net} (h : net.WellFormed) {r : R} {st : RouterState R}

include h

/-- `DrawDifferentPaths` stores the entries for the other routers. -/
theorem drawDifferentPaths_ends (hr : r ∈ net.ptrListOfRouters) (hst : net.Searched r st)
    (hnext : st.nextRouter = fun _ => none) :
    Ends (fun _ => False) (net.Routed r) (net.drawDifferentPaths r st) := by
  have hkeys : net.keys st.allRoutersCosts = net.others r := by
    refine h.routable.keys_eq fun k => ?_
    rw [hst.costs]
    split_ifs with hk
    · exact iff_of_true rfl hk
    · exact iff_of_false Bool.false_ne_true hk
  rw [drawDifferentPaths, hkeys]
  -- the entries of the routers handled so far have been stored
  let I (pre : List R) (st' : RouterState R) : Prop :=
    net.Searched r st' ∧ (∀ d ∈ pre, ∃ n, net.Entry r d n ∧ st'.nextRouter d = some n) ∧
      ∀ d, d ∉ pre → st'.nextRouter d = none
  refine Ends.imp (Ends.foldlM (I := I) ?_ ⟨hst, fun d hd => absurd hd List.not_mem_nil,
    fun d _ => by rw [hnext]⟩) (fun _ => id) ?_
  · rintro pre k post st' hothers ⟨hst', hstored, hrest⟩
    have hk : k ∈ net.others r := mem_of_eq_append hothers
    obtain ⟨n, -, hn, -⟩ := h.routable.exists_entry hr hk
    rw [h.routable.getNextRouterToward_eq hr hst' hk hn, ok_bind]
    refine ⟨⟨hst'.direct, hst'.costs, hst'.prev⟩, fun d hd => ?_, fun d hd => ?_⟩
    · dsimp only
      rw [Function.update_apply]
      split_ifs with heq
      · exact ⟨n, heq ▸ hn, rfl⟩
      · rcases List.mem_append.mp hd with hd | hd
        · exact hstored d hd
        · exact absurd (List.mem_singleton.mp hd) heq
    · rw [List.mem_append, List.mem_singleton, not_or] at hd
      dsimp only
      rw [Function.update_apply, if_neg hd.2]
      exact hrest d hd.1
  · rintro st' ⟨hst', hstored, hrest⟩
    exact ⟨hst', hstored, hrest⟩

/-- `ExploreGraph` ends, and every router has its routing table. -/
theorem exploreGraph_ends (memory : R → ℕ → Bool) :
    Ends (fun _ => False) (fun st => ∀ r ∈ net.ptrListOfRouters, net.Routed r (st r))
      (net.exploreGraph memory) := by
  rw [exploreGraph]
  refine Ends.bind h.routable.exploreNodes_ends ?_
  -- all routers know their links while the routing tables are filled
  rintro st ⟨hexplored, hdirect⟩
  refine (Ends.foldlM_update (I := fun st => ∀ r, (st r).directRoutersCosts = net.linkCost r)
    (P := fun r s => net.Explored r s) (Q := fun r s => net.Routed r s) h.routers_nodup ?_ hdirect
    hexplored).imp (fun _ => id) fun st hst => hst.2.1
  intro st r hr hdirect hex
  refine (h.routable.dijkstra_ends hr (h.idsDiffer r) (h.idsFit r) hex hdirect).bind ?_
  rintro s ⟨⟨hs, -⟩, hnext⟩
  refine (h.drawDifferentPaths_ends hr hs (hnext.trans hex.next)).imp (fun _ => id) fun s' hs' => ?_
  refine ⟨hs', fun r' => ?_⟩
  rw [Function.update_apply]
  split_ifs with heq
  · exact heq ▸ hs'.direct
  · exact hdirect r'

theorem exists_exploreGraph (memory : R → ℕ → Bool) : ∃ st, net.exploreGraph memory = .ok st ∧
    ∀ r ∈ net.ptrListOfRouters, net.Routed r (st r) :=
  (h.exploreGraph_ends memory).exists_ok

end WellFormed

/-! ## A network in which packets go astray -/

/-- The adapter of a router at its link to another router, or to an AS. -/
def adapter (i j : UInt8) : Text := [48 + i, 46, 48 + j]

/-- Four routers, each of which is the edge of an AS. The best path from the first to the last one
leads over the third, but the second is nearer to the first, and it has a link to the last. -/
def diamond : TransitNetwork (Fin 4) where
  ptrListOfLinks :=
    [⟨adapter 1 4, adapter 4 1, 10⟩, ⟨adapter 1 2, adapter 2 1, 1⟩, ⟨adapter 2 4, adapter 4 2, 8⟩,
      ⟨adapter 1 3, adapter 3 1, 2⟩, ⟨adapter 3 4, adapter 4 3, 3⟩,
      ⟨adapter 1 0, ascii "As1", 1⟩, ⟨adapter 2 0, ascii "As2", 1⟩,
      ⟨adapter 3 0, ascii "As3", 1⟩, ⟨adapter 4 0, ascii "As4", 1⟩]
  ptrListOfRouters := List.finRange 4
  addressOrder := List.finRange 4
  router := ![
    { iRouterNumber := 1
      edgeAs := ascii "As1"
      lIps := [adapter 1 4, adapter 1 2, adapter 1 3, adapter 1 0] },
    { iRouterNumber := 2
      edgeAs := ascii "As2"
      lIps := [adapter 2 1, adapter 2 4, adapter 2 0] },
    { iRouterNumber := 3
      edgeAs := ascii "As3"
      lIps := [adapter 3 1, adapter 3 4, adapter 3 0] },
    { iRouterNumber := 4
      edgeAs := ascii "As4"
      lIps := [adapter 4 1, adapter 4 2, adapter 4 3, adapter 4 0] }]

theorem diamond_linkCost : diamond.linkCost = fun u v => (![
    ![none, some 1, some 2, some 10],
    ![some 1, none, none, some 8],
    ![some 2, none, none, some 3],
    ![some 10, some 8, some 3, none]] : Fin 4 → Fin 4 → Option ℕ) u v := by
  decide +kernel

theorem diamond_joined_dist (u d : Fin 4) : Joined diamond.linkCost u d ∧
    dist diamond.linkCost u d =
      (![![0, 1, 2, 5], ![1, 0, 3, 6], ![2, 3, 0, 3], ![5, 6, 3, 0]] : Fin 4 → Fin 4 → ℕ) u d := by
  rw [diamond_linkCost]
  exact dist_eq_of_bellman (by decide) (by decide) (by decide) u d

theorem diamond_dist : dist diamond.linkCost =
    ![![0, 1, 2, 5], ![1, 0, 3, 6], ![2, 3, 0, 3], ![5, 6, 3, 0]] := by
  ext u d
  exact (diamond_joined_dist u d).2

theorem diamond_wellFormed : diamond.WellFormed where
  routers_nodup := by decide
  addressOrder_perm := .refl _
  number_lt := by decide
  number_inj := by decide
  lIps_ne_nil := by decide
  adapter_inj := by decide
  adapter_ip := by decide
  exists_link := by decide
  link_unique := by decide
  opposite := by decide
  one_link := by decide +kernel
  cost_pos := by decide
  cost_lt := by decide
  joined := fun r _ d _ => (diamond_joined_dist r d).1
  dist_lt := by
    rw [diamond_dist]
    decide

theorem diamond_rooted (r : Fin 4) : Rooted diamond.linkCost r infinity (diamond.others r) :=
  diamond_wellFormed.routable.rooted (by decide +revert)

/-- The first improver of a router is the nearest one that improves it. -/
theorem diamond_firstImprover {r d m : Fin 4} (hm : m ∈ diamond.others r ∧
      ∃ c ∈ diamond.linkCost m d,
        dist diamond.linkCost r m + c < initCost diamond.linkCost r infinity d)
    (hmin : ∀ k ∈ diamond.others r, (∃ c ∈ diamond.linkCost k d,
        dist diamond.linkCost r k + c < initCost diamond.linkCost r infinity d) → k ≠ m →
      dist diamond.linkCost r m < dist diamond.linkCost r k) :
    firstImprover diamond.linkCost r infinity (diamond.others r) d = some m :=
  firstImprover_eq_some (diamond_rooted r).nodup hm.1 hm.2
    fun k hk himp hne => .inl (hmin k hk himp hne)

/-- A router that nothing improves. -/
theorem diamond_not_improved {r d : Fin 4} (hd : d ∈ diamond.others r)
    (hdirect : diamond.linkCost r d = some (dist diamond.linkCost r d)) :
    firstImprover diamond.linkCost r infinity (diamond.others r) d = none :=
  ((diamond_rooted r).firstImprover_eq_none_iff hd).mpr hdirect

/-- The first router sends to the second one what is for the last one. -/
theorem diamond_entry : diamond.Entry 0 3 1 := by
  refine ⟨.head (diamond_firstImprover ?_ ?_) (.refl 1), diamond_not_improved (by decide) ?_⟩ <;>
    rw [diamond_dist, diamond_linkCost] <;> decide

/-- The second router sends it back. -/
theorem diamond_entry_back : diamond.Entry 1 3 0 := by
  refine ⟨.head (b := 2) (diamond_firstImprover ?_ ?_)
    (.head (diamond_firstImprover ?_ ?_) (.refl 0)), diamond_not_improved (by decide) ?_⟩ <;>
    rw [diamond_dist, diamond_linkCost] <;> decide

/-! ## Costs and next routers -/

/-- The next router towards `d` is a neighbour of `r` on a best path to `d`. -/
def NextOnBestPath (st : RouterState R) (r d : R) : Prop :=
  ∃ n c, net.getNextRouterToward st r d = .ok n ∧ st.nextRouter d = some n ∧
    net.linkCost r n = some c ∧ dist net.linkCost r d = c + dist net.linkCost n d

namespace WellFormed

variable {net} (h : net.WellFormed)

include h

/-- The costs a router knows are those of best paths to the other routers. -/
theorem exploreGraph_costs (memory : R → ℕ → Bool) :
    ∃ st, net.exploreGraph memory = .ok st ∧ ∀ r ∈ net.ptrListOfRouters, ∀ d,
      (d ∈ net.ptrListOfRouters ∧ d ≠ r → ∃ n, (st r).allRoutersCosts d = some n ∧
        IsLeast {m | Walk net.linkCost r d m} n) ∧
      (¬ (d ∈ net.ptrListOfRouters ∧ d ≠ r) → (st r).allRoutersCosts d = none) := by
  obtain ⟨st, hst, hrouted⟩ := h.exists_exploreGraph memory
  refine ⟨st, hst, fun r hr d => ?_⟩
  rw [(hrouted r hr).costs, ← h.routable.mem_others]
  refine ⟨fun hd => ?_, fun hd => if_neg hd⟩
  have hjoined := h.joined r hr d (h.routable.mem_others.mp hd).1
  exact ⟨_, if_pos hd, hjoined.walk_dist, fun m hm => Walk.dist_le hm⟩

end WellFormed

/-- In the network of four routers the first router knows that the last one is at distance 5. -/
theorem diamond_costs : ∃ st, diamond.exploreGraph (fun _ _ => false) = .ok st ∧
    (st 0).allRoutersCosts 3 = some 5 := by
  obtain ⟨st, hst, hcosts⟩ := diamond_wellFormed.exploreGraph_costs fun _ _ => false
  obtain ⟨n, hn, hleast⟩ := (hcosts 0 (by decide) 3).1 (by decide)
  refine ⟨st, hst, ?_⟩
  rw [hn, ← hleast.csInf_eq]
  exact congrArg some (diamond_joined_dist 0 3).2

namespace WellFormed

variable {net} (h : net.WellFormed)

include h

/-- The next router is on a best path exactly when the entry is. -/
theorem exploreGraph_next_iff (memory : R → ℕ → Bool) :
    ∃ st, net.exploreGraph memory = .ok st ∧ ∀ r ∈ net.ptrListOfRouters,
      ∀ d ∈ net.ptrListOfRouters, d ≠ r →
      (net.NextOnBestPath (st r) r d ↔ ∃ n, net.Entry r d n ∧
        dist net.linkCost r d = dist net.linkCost r n + dist net.linkCost n d) := by
  obtain ⟨st, hst, hrouted⟩ := h.exists_exploreGraph memory
  refine ⟨st, hst, fun r hr d hd hne => ?_⟩
  have hmem : d ∈ net.others r := h.routable.mem_others.mpr ⟨hd, hne⟩
  obtain ⟨n, -, hentry, hlink⟩ := h.routable.exists_entry hr hmem
  have hnext := (hrouted r hr).nextRouter_eq hmem hentry
  constructor
  · rintro ⟨n', c, -, hnext', hcost, hsum⟩
    obtain rfl := Option.some.inj (hnext.symm.trans hnext')
    obtain rfl := Option.some.inj (hlink.symm.trans hcost)
    exact ⟨n, hentry, hsum⟩
  · rintro ⟨n', hentry', hsum⟩
    obtain rfl := hentry.unique hentry'
    exact ⟨n, _, h.routable.getNextRouterToward_eq hr (hrouted r hr).toSearched hmem hentry, hnext,
      hlink, hsum⟩

end WellFormed

/-- It is for the third router, seen from the first one. -/
theorem diamond_next : ∃ st, diamond.exploreGraph (fun _ _ => false) = .ok st ∧
    diamond.NextOnBestPath (st 0) 0 2 := by
  obtain ⟨st, hst, hnext⟩ := diamond_wellFormed.exploreGraph_next_iff fun _ _ => false
  refine ⟨st, hst, (hnext 0 (by decide) 2 (by decide) (by decide)).mpr ⟨2, ⟨.refl 2, ?_⟩, ?_⟩⟩
  · apply diamond_not_improved (by decide)
    rw [diamond_dist, diamond_linkCost]
    decide
  · rw [dist_self, Nat.add_zero]

/-- It is not for the last router: a path over the second router has the cost 7, and the best path
has the cost 5. -/
theorem diamond_astray : diamond.WellFormed ∧ ∃ st, diamond.exploreGraph (fun _ _ => false) = .ok st ∧
    ¬ diamond.NextOnBestPath (st 0) 0 3 := by
  refine ⟨diamond_wellFormed, ?_⟩
  obtain ⟨st, hst, hrouted⟩ := diamond_wellFormed.exists_exploreGraph fun _ _ => false
  refine ⟨st, hst, ?_⟩
  rintro ⟨n, c, -, hnext, hcost, hsum⟩
  rw [(hrouted 0 (by decide)).nextRouter_eq (by decide) diamond_entry] at hnext
  obtain rfl := Option.some.inj hnext
  have hlink : diamond.linkCost 0 1 = some 1 := by
    rw [diamond_linkCost]
    decide
  obtain rfl := Option.some.inj (hlink.symm.trans hcost)
  rw [diamond_dist] at hsum
  revert hsum
  decide

end TransitNetwork

end Nsp
