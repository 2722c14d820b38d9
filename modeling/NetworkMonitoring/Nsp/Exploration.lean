import NetworkMonitoring.Nsp.TransitNetwork

/-!
# NSP — exploring the graph of a network

`TransitNetwork::ExploreNodeGraph`: behind each interface of a router, the program visits the
routers that are reached without coming back to it, depth first. `exploreBehind` are the recursive
calls and `exploreNodeGraph` is the call that `ExploreGraph` makes for a router.

In a well-formed network the router then knows the costs of its links, and it has visited every
other router (`Routable.exploreNodeGraph_ends`).
-/

namespace Nsp

open CText ErrorLoops ShortestPaths

/-- The maps of a `Router`. A map with routers as its keys is a function; `visitedRouters` has an
entry for each interface. -/
structure RouterState (R : Type) where
  visitedRouters : List (Text × List R) := []
  directRoutersCosts : R → Option ℕ := fun _ => none
  allRoutersCosts : R → Option ℕ := fun _ => none
  prevRouters : R → Option R := fun _ => none
  nextRouter : R → Option R := fun _ => none

/-- `map::insert`, which does not replace an entry. -/
def mapInsert {K A : Type} [DecidableEq K] (m : K → Option A) (k : K) (v : A) : K → Option A :=
  if (m k).isSome then m else Function.update m k (some v)

theorem mapInsert_apply {K A : Type} [DecidableEq K] (m : K → Option A) (k : K) (v : A) (x : K) :
    mapInsert m k v x = if x = k then some ((m k).getD v) else m x := by
  rw [mapInsert]
  cases hk : m k with
  | none =>
    rw [if_neg (by simp), Function.update_apply]
    rfl
  | some a =>
    rw [if_pos Option.isSome_some]
    split_ifs with hx
    · rw [hx, hk]
      rfl
    · rfl

/-- An entry is one of the map, or the new one. -/
theorem mapInsert_eq_some {K A : Type} [DecidableEq K] {m : K → Option A} {k x : K} {v w : A}
    (hx : mapInsert m k v x = some w) : m x = some w ∨ x = k ∧ v = w := by
  rw [mapInsert_apply] at hx
  split_ifs at hx with heq
  · obtain rfl := heq
    cases hold : m x with
    | none =>
      rw [hold] at hx
      exact .inr ⟨rfl, Option.some.inj hx⟩
    | some a =>
      rw [hold] at hx
      exact .inl hx
  · exact .inl hx

theorem mapInsert_isSome {K A : Type} [DecidableEq K] {m : K → Option A} {k x : K} {v : A}
    (hx : (m x).isSome ∨ x = k) : (mapInsert m k v x).isSome := by
  rw [mapInsert_apply]
  split_ifs with heq
  · rfl
  · exact hx.resolve_right heq

/-- The routers visited through any interface. -/
def RouterState.visited {R : Type} (st : RouterState R) : List R :=
  st.visitedRouters.flatMap Prod.snd

namespace TransitNetwork

variable {R : Type} [DecidableEq R] (net : TransitNetwork R)

/-- The link at an adapter of a router and the next router there; `none` at an adapter that leads to
an AS. -/
def across (currentNode : R) (adapter : Text) : Except Failure (Option (Link × R)) :=
  match net.getLink currentNode adapter with
  | none => .error .nullPointer
  | some l => do
    let oa ← l.getTheOppositeAdapter adapter
    if namesAs oa then return none
    else
      match net.getRouter oa with
      | none => .error .nullPointer
      | some next => return some (l, next)

/-- `ExploreNodeGraph` with `cc = 1`. `visited` are the routers that `startNode` has visited through
the interface it has started at; in the program they are marked in `visitedBy`. -/
def exploreBehind (startNode : R) : ℕ → R → List R → Except Failure (List R)
  | 0, _, _ => .error .noReturn
  | fuel + 1, currentNode, visited =>
    if currentNode = startNode then .ok visited
    else
      (net.listOfAdapters currentNode).foldlM (fun visited adapter => do
        match ← net.across currentNode adapter with
        | none => return visited
        | some (_, next) =>
          if next ≠ currentNode ∧ next ∉ visited ∧ next ≠ startNode then
            exploreBehind startNode fuel next (visited ++ [next])
          -- Already visited or equal to the calling node
          else return visited) visited

/-- `ExploreNodeGraph` with `cc = 0`. The marks in `visitedBy` are cleared after each interface. -/
def exploreNodeGraph (startNode : R) : Except Failure (RouterState R) :=
  (net.listOfAdapters startNode).foldlM (fun st adapter => do
    match ← net.across startNode adapter with
    | none => return st
    | some (l, next) =>
      let visited ←
        if next ≠ startNode then
          net.exploreBehind startNode net.ptrListOfRouters.length next [next]
        else pure []
      -- Update the direct routers cost
      return { st with
        visitedRouters := st.visitedRouters ++ [(adapter, visited)]
        directRoutersCosts := mapInsert st.directRoutersCosts next l.uCost }) {}

namespace Wired

variable {net} (h : net.Wired) {r d : R} {a : Text}

include h

section Across

omit [DecidableEq R]

/-- The adapter at one end of a link leads to the AS at the other end. -/
theorem across_as (hr : r ∈ net.ptrListOfRouters) {l : Link} (hl : l ∈ net.ptrListOfLinks)
    {e : Text × Text} (he : e ∈ l.ends) (hip : e.1 ∈ (net.router r).lIps)
    (has : namesAs e.2 = true) : net.across r e.1 = .ok none := by
  rw [across, h.getLink_eq hr hl he hip]
  simp only [getTheOppositeAdapter_eq he, ok_bind, has]
  rfl

/-- It leads to the router there. -/
theorem across_eq (hr : r ∈ net.ptrListOfRouters) (hd : d ∈ net.ptrListOfRouters) {l : Link}
    (hl : l ∈ net.ptrListOfLinks) {e : Text × Text} (he : e ∈ l.ends)
    (hip : e.1 ∈ (net.router r).lIps) (hip' : e.2 ∈ (net.router d).lIps) :
    net.across r e.1 = .ok (some (l, d)) := by
  rw [across, h.getLink_eq hr hl he hip]
  simp only [getTheOppositeAdapter_eq he, ok_bind, h.adapter_ip d hd e.2 hip',
    h.getRouter_eq hd hip']
  rfl

end Across

/-- An adapter leads to an AS, or over a link to a router. -/
theorem across_ends (hr : r ∈ net.ptrListOfRouters) (ha : a ∈ net.listOfAdapters r) :
    Ends (fun _ => False)
      (fun o => ∀ x ∈ o, x.2 ∈ net.ptrListOfRouters ∧ net.linkCost r x.2 = some x.1.uCost)
      (net.across r a) := by
  rw [h.listOfAdapters_eq hr] at ha
  obtain ⟨l, hl, hla⟩ := h.exists_link r hr a ha
  obtain ⟨e, he, rfl⟩ := isItOneOfTheAdapters_iff.mp hla
  rcases h.opposite r hr l hl e he ha with has | ⟨d, hd, hip⟩
  · rw [h.across_as hr hl he ha has]
    exact fun x hx => absurd hx (Option.not_mem_none x)
  · rw [h.across_eq hr hd hl he ha hip]
    rintro _ ⟨⟩
    exact ⟨hd, h.linkCost_eq_some_iff.mpr ⟨⟨hr, hd⟩, l, hl, ⟨e, he, ha, hip⟩, rfl⟩⟩

/-- Every link of a router is found at one of its adapters. -/
theorem exists_across {c : ℕ} (hcost : net.linkCost r d = some c) :
    ∃ a ∈ net.listOfAdapters r, ∃ l, net.across r a = .ok (some (l, d)) ∧ l.uCost = c := by
  obtain ⟨⟨hr, hd⟩, l, hl, ⟨e, he, hip, hip'⟩, rfl⟩ := h.linkCost_eq_some_iff.mp hcost
  exact ⟨e.1, (h.listOfAdapters_eq hr).symm ▸ hip, l, h.across_eq hr hd hl he hip hip', rfl⟩

end Wired

/-- What a router knows after `ExploreNodeGraph`: its links, and the other routers. -/
structure Explored (r : R) (st : RouterState R) : Prop where
  direct : st.directRoutersCosts = net.linkCost r
  mem_visited : ∀ d, d ∈ st.visited ↔ d ∈ net.others r
  costs : st.allRoutersCosts = fun _ => none
  prev : st.prevRouters = fun _ => none
  next : st.nextRouter = fun _ => none

/-- The routers in the list are different routers of the network other than `startNode`. -/
structure Visited (startNode : R) (visited : List R) : Prop where
  nodup : visited.Nodup
  mem : ∀ v ∈ visited, v ∈ net.ptrListOfRouters ∧ v ≠ startNode

/-- The routers linked to `v`, other than `startNode`, are in the list. -/
def Closed (startNode : R) (visited : List R) (v : R) : Prop :=
  ∀ d c, net.linkCost v d = some c → d ≠ startNode → d ∈ visited

variable {net} {startNode : R} {visited : List R}

theorem Closed.mono {visited' : List R} {v : R} (hv : net.Closed startNode visited v)
    (hsub : visited ⊆ visited') : net.Closed startNode visited' v :=
  fun d c hcost hne => hsub (hv d c hcost hne)

omit [DecidableEq R] in
theorem Visited.concat (hv : net.Visited startNode visited) {d : R}
    (hd : d ∈ net.ptrListOfRouters) (hne : d ≠ startNode) (hnew : d ∉ visited) :
    net.Visited startNode (visited ++ [d]) := by
  refine ⟨List.nodup_append.mpr ⟨hv.nodup, List.nodup_singleton d, ?_⟩, fun v hmem => ?_⟩
  · rintro v hmem _ hd' rfl
    exact hnew (List.mem_singleton.mp hd' ▸ hmem)
  · rcases List.mem_append.mp hmem with hmem | hmem
    · exact hv.mem v hmem
    · rw [List.mem_singleton.mp hmem]
      exact ⟨hd, hne⟩

omit [DecidableEq R] in
/-- There are fewer visited routers than routers. -/
theorem Visited.length_lt (hv : net.Visited startNode visited)
    (hstart : startNode ∈ net.ptrListOfRouters) : visited.length < net.ptrListOfRouters.length := by
  have hnodup : (startNode :: visited).Nodup :=
    List.nodup_cons.mpr ⟨fun hmem => (hv.mem startNode hmem).2 rfl, hv.nodup⟩
  have hsub : (startNode :: visited) ⊆ net.ptrListOfRouters := by
    intro v hmem
    rcases List.mem_cons.mp hmem with rfl | hmem
    · exact hstart
    · exact (hv.mem v hmem).1
  exact (hnodup.subperm hsub).length_le

namespace Wired

variable (h : net.Wired)

include h

/-- What a recursive call adds are routers whose neighbours are visited as well, and so are those of
the node it is called for. -/
theorem exploreBehind_ends (hstart : startNode ∈ net.ptrListOfRouters) {fuel : ℕ} {currentNode : R}
    (hcurrent : currentNode ∈ net.ptrListOfRouters) (hmem : currentNode ∈ visited)
    (hvisited : net.Visited startNode visited)
    (hfuel : net.ptrListOfRouters.length < fuel + visited.length) :
    Ends (fun _ => False)
      (fun visited' => visited ⊆ visited' ∧ net.Visited startNode visited' ∧
        net.Closed startNode visited' currentNode ∧
        ∀ v ∈ visited', v ∉ visited → net.Closed startNode visited' v)
      (net.exploreBehind startNode fuel currentNode visited) := by
  induction fuel generalizing currentNode visited with
  | zero =>
    have := hvisited.length_lt hstart
    omega
  | succ fuel ih =>
    rw [exploreBehind, if_neg (hvisited.mem currentNode hmem).2]
    -- the neighbours behind the adapters looked at so far have been visited
    let I (adapters : List Text) (visited' : List R) : Prop :=
      visited ⊆ visited' ∧ net.Visited startNode visited' ∧
        (∀ a ∈ adapters, ∀ l d, net.across currentNode a = .ok (some (l, d)) → d ≠ startNode →
          d ∈ visited') ∧
        ∀ v ∈ visited', v ∉ visited → net.Closed startNode visited' v
    refine Ends.imp (Ends.foldlM (I := I) ?_ ⟨fun _ => id, hvisited,
      fun a ha => absurd ha List.not_mem_nil, fun v hv hnot => absurd hv hnot⟩)
      (fun _ => id) ?_
    · rintro pre a post visited₁ hadapters ⟨hsub, hvis, hpre, hclosed⟩
      have ha : a ∈ net.listOfAdapters currentNode := mem_of_eq_append hadapters
      -- what has been visited for the adapters before `a` stays visited
      have hkeep : ∀ visited₂, visited₁ ⊆ visited₂ →
          (∀ l d, net.across currentNode a = .ok (some (l, d)) → d ≠ startNode → d ∈ visited₂) →
          ∀ b ∈ pre ++ [a], ∀ l d, net.across currentNode b = .ok (some (l, d)) → d ≠ startNode →
            d ∈ visited₂ := by
        intro visited₂ hsub₂ hlast b hb l d hacross hd
        rcases List.mem_append.mp hb with hb | hb
        · exact hsub₂ (hpre b hb l d hacross hd)
        · exact hlast l d (List.mem_singleton.mp hb ▸ hacross) hd
      obtain ⟨o, hacross, ho⟩ := (h.across_ends hcurrent ha).exists_ok
      rw [hacross, ok_bind]
      cases o with
      | none =>
        refine ⟨hsub, hvis, hkeep visited₁ (fun _ => id) fun l d hacross' _ => ?_, hclosed⟩
        rw [hacross] at hacross'
        cases hacross'
      | some x =>
        obtain ⟨l, next⟩ := x
        obtain ⟨hnext, hcost⟩ := ho _ rfl
        have honly : ∀ l' d, net.across currentNode a = .ok (some (l', d)) → d = next := by
          intro l' d hacross'
          cases hacross.symm.trans hacross'
          rfl
        dsimp only
        split_ifs with hnew
        · obtain ⟨-, hnotMem, hneStart⟩ := hnew
          have hlength := (hvisited.nodup.subperm hsub).length_le
          have hlast : next ∈ visited₁ ++ [next] := List.mem_append_right _ List.mem_cons_self
          refine (ih hnext hlast (hvis.concat hnext hneStart hnotMem) ?_).imp (fun _ => id) ?_
          · rw [List.length_append, List.length_singleton]
            omega
          rintro visited₂ ⟨hsub₂, hvis₂, hnext₂, hclosed₂⟩
          have hsub₁ : visited₁ ⊆ visited₂ := List.Subset.trans (List.subset_append_left _ _) hsub₂
          refine ⟨List.Subset.trans hsub hsub₁, hvis₂,
            hkeep visited₂ hsub₁ fun l' d hacross' _ => honly l' d hacross' ▸ hsub₂ hlast, ?_⟩
          intro v hv hnot
          by_cases hv₁ : v ∈ visited₁ ++ [next]
          · rcases List.mem_append.mp hv₁ with hv₁ | hv₁
            · exact (hclosed v hv₁ hnot).mono hsub₁
            · exact List.mem_singleton.mp hv₁ ▸ hnext₂
          · exact hclosed₂ v hv hv₁
        · refine ⟨hsub, hvis, hkeep visited₁ (fun _ => id) fun l' d hacross' hd => ?_, hclosed⟩
          obtain rfl := honly l' d hacross'
          by_contra hnot
          -- the node it is called for has been visited, so `d` is another one
          have hother : d ≠ currentNode := fun heq => hnot (hsub (heq ▸ hmem))
          exact hnew ⟨hother, hnot, hd⟩
    · rintro visited' ⟨hsub, hvis, hadapters, hclosed⟩
      refine ⟨hsub, hvis, fun d c hcost hd => ?_, hclosed⟩
      obtain ⟨a, ha, l, hacross, -⟩ := h.exists_across hcost
      exact hadapters a ha l d hacross hd

end Wired

namespace Routable

variable (h : net.Routable)

include h

/-- A router has found its links and visited all other routers. -/
theorem exploreNodeGraph_ends {r : R} (hr : r ∈ net.ptrListOfRouters) :
    Ends (fun _ => False) (net.Explored r) (net.exploreNodeGraph r) := by
  let I (adapters : List Text) (st : RouterState R) : Prop :=
    (st.allRoutersCosts = (fun _ => none) ∧ st.prevRouters = (fun _ => none) ∧
        st.nextRouter = fun _ => none) ∧
      (∀ d c, st.directRoutersCosts d = some c → net.linkCost r d = some c) ∧
      (∀ a ∈ adapters, ∀ l d, net.across r a = .ok (some (l, d)) →
        (st.directRoutersCosts d).isSome ∧ d ∈ st.visited) ∧
      ∀ d ∈ st.visited, (d ∈ net.ptrListOfRouters ∧ d ≠ r) ∧ net.Closed r st.visited d
  rw [exploreNodeGraph]
  refine Ends.imp (Ends.foldlM (I := I) ?_ ⟨⟨rfl, rfl, rfl⟩,
    fun d c hd => absurd hd (Option.some_ne_none c).symm, fun a ha => absurd ha List.not_mem_nil,
    fun d hd => absurd hd List.not_mem_nil⟩) (fun _ => id) ?_
  · rintro pre a post st hadapters ⟨hrest, hdirect, hpre, hvisited⟩
    have ha : a ∈ net.listOfAdapters r := mem_of_eq_append hadapters
    obtain ⟨o, hacross, ho⟩ := (h.across_ends hr ha).exists_ok
    rw [hacross, ok_bind]
    cases o with
    | none =>
      refine ⟨hrest, hdirect, fun b hb l d hacross' => ?_, hvisited⟩
      rcases List.mem_append.mp hb with hb | hb
      · exact hpre b hb l d hacross'
      · rw [List.mem_singleton.mp hb, hacross] at hacross'
        cases hacross'
    | some x =>
      obtain ⟨l, next⟩ := x
      obtain ⟨hnext, hcost⟩ := ho _ rfl
      have hne : next ≠ r := (h.ne_of_linkCost hcost).symm
      have hsingle : net.Visited r [next] :=
        ⟨List.nodup_singleton next, fun v hv => List.mem_singleton.mp hv ▸ ⟨hnext, hne⟩⟩
      dsimp only
      rw [if_pos hne]
      apply (h.exploreBehind_ends hr hnext List.mem_cons_self hsingle (by simp)).bind
      rintro visited ⟨hsub, hvis, hnextClosed, hclosed⟩
      have hmem : ∀ d, d ∈ RouterState.visited { st with
          visitedRouters := st.visitedRouters ++ [(a, visited)]
          directRoutersCosts := mapInsert st.directRoutersCosts next l.uCost } ↔
          d ∈ st.visited ∨ d ∈ visited := by
        intro d
        simp only [RouterState.visited, List.flatMap_append, List.flatMap_singleton,
          List.mem_append]
      refine ⟨hrest, fun d c hd => ?_, fun b hb l' d hacross' => ?_, fun d hd => ?_⟩
      · rcases mapInsert_eq_some hd with hd | ⟨rfl, rfl⟩
        · exact hdirect d c hd
        · exact hcost
      · rw [hmem]
        rcases List.mem_append.mp hb with hb | hb
        · obtain ⟨hsome, hd⟩ := hpre b hb l' d hacross'
          exact ⟨mapInsert_isSome (.inl hsome), .inl hd⟩
        · obtain rfl := List.mem_singleton.mp hb
          cases hacross.symm.trans hacross'
          exact ⟨mapInsert_isSome (.inr rfl), .inr (hsub List.mem_cons_self)⟩
      · have hgrow : ∀ {v}, net.Closed r st.visited v ∨ net.Closed r visited v →
            net.Closed r _ v := fun hv d c hcost hd =>
          (hmem d).mpr (hv.imp (fun h => h d c hcost hd) fun h => h d c hcost hd)
        rcases (hmem d).mp hd with hd | hd
        · exact ⟨(hvisited d hd).1, hgrow (.inl (hvisited d hd).2)⟩
        · refine ⟨hvis.mem d hd, hgrow (.inr ?_)⟩
          by_cases heq : d = next
          · exact heq ▸ hnextClosed
          · exact hclosed d hd fun h => heq (List.mem_singleton.mp h)
  · rintro st ⟨hrest, hdirect, hadapters, hvisited⟩
    refine ⟨funext fun d => ?_, fun d => ?_, hrest.1, hrest.2.1, hrest.2.2⟩
    · cases hcost : net.linkCost r d with
      | some c =>
        obtain ⟨a, ha, l, hacross, rfl⟩ := h.exists_across hcost
        obtain ⟨c, hc⟩ := Option.isSome_iff_exists.mp (hadapters a ha l d hacross).1
        rw [hc, ← hcost, hdirect d c hc]
      | none =>
        cases hd : st.directRoutersCosts d with
        | none => rfl
        | some c =>
          rw [hdirect d c hd] at hcost
          cases hcost
    · rw [h.mem_others]
      refine ⟨fun hd => (hvisited d hd).1, ?_⟩
      -- whatever a walk from `r` comes to, other than `r`, has been visited
      rintro ⟨hd, hne⟩
      obtain ⟨n, hwalk⟩ := h.joined r hr d hd
      refine (hwalk.invariant (P := fun v => v = r ∨ v ∈ st.visited) (.inl rfl) ?_).resolve_left hne
      rintro v v' c hv hcost
      by_cases heq : v' = r
      · exact .inl heq
      · right
        rcases hv with rfl | hv
        · obtain ⟨a, ha, l, hacross, -⟩ := h.exists_across hcost
          exact (hadapters a ha l v' hacross).2
        · exact (hvisited v hv).2 v' c hcost heq

end Routable

end TransitNetwork

end Nsp
