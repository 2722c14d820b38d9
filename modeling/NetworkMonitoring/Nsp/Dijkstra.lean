import NetworkMonitoring.Nsp.Exploration

/-!
# NSP — the costs of paths

`TransitNetwork::Dijkstra`, which computes the costs of the paths from a router and the previous
router on them. The array `visited` of the program is not initialized, so `memory` is what it holds
at first. It has `graphSize` elements, and the identifiers of the routers are its indices: the
search fails when one of them is not below `graphSize`.

The search keeps the invariant of Dijkstra's algorithm (`Routable.dijkstraStep_ends`). When the
routers have identifiers of their own that fit the array it ends, the costs are the lengths of
shortest paths, and the previous router is the first improver (`Routable.dijkstra_ends`): an entry
of `prevRouters` is not replaced when the cost improves again. When two routers share an identifier
it does not return (`Routable.idsDiffer_of_dijkstra`).
-/

namespace Nsp

open CText ErrorLoops ShortestPaths

/-- The maps of the router that `Dijkstra` is called for, and its array `visited`. -/
structure Search (R : Type) where
  allRoutersCosts : R → Option ℕ
  prevRouters : R → Option R
  visited : ℕ → Bool

/-- `allRoutersCosts[k]`. -/
def Search.cost {R : Type} (s : Search R) (k : R) : ℕ := (s.allRoutersCosts k).getD 0

namespace TransitNetwork

variable {R : Type} [DecidableEq R] (net : TransitNetwork R)

/-- `GetRouterId`. -/
def getRouterId (r : R) : ℕ := (net.router r).iRouterNumber

/-- The keys of a map with routers as its keys, in the order of iteration. -/
def keys {A : Type} (m : R → Option A) : List R := net.addressOrder.filter fun k => (m k).isSome

/-- Look at one router when `mini` has been visited, whose links have the costs `direct`. -/
def relaxOne (direct : R → Option ℕ) (mini : R) (s : Search R) (k : R) : Search R :=
  match direct k with
  | none => s
  | some c =>
    if s.cost mini + c < s.cost k then
      { s with
        allRoutersCosts := Function.update s.allRoutersCosts k (some (s.cost mini + c))
        prevRouters := mapInsert s.prevRouters k mini }
    else s

/-- One iteration of the main loop of `Dijkstra`. -/
def dijkstraStep (direct : R → R → Option ℕ) (s : Search R) : Except Failure (Search R) :=
  let keys := net.keys s.allRoutersCosts
  match firstMin s.cost (fun k => !s.visited (net.getRouterId k)) keys with
  | none => .error .nullPointer
  | some mini =>
    .ok (keys.foldl (relaxOne (direct mini) mini)
      { s with visited := Function.update s.visited (net.getRouterId mini) true })

/-- The identifiers of the routers are indices of the array `visited`. -/
def fits (l : List R) : Bool := l.all fun k => decide (net.getRouterId k < graphSize)

/-- `TransitNetwork::Dijkstra`. -/
def dijkstra (memory : ℕ → Bool) (st : R → RouterState R) (r : R) :
    Except Failure (RouterState R) := do
  let s := st r
  let costs := s.visited.foldl (fun m k => mapInsert m k infinity) s.allRoutersCosts
  -- the i-th element has not yet been visited
  let visited := s.visited.foldl (fun v k => Function.update v (net.getRouterId k) false) memory
  -- Copy the direct routers costs
  let costs := (net.keys s.directRoutersCosts).foldl
    (fun m k => Function.update m k (s.directRoutersCosts k)) costs
  -- each of these routers has its element of `visited` written here or read below
  if !net.fits (s.visited ++ net.keys costs) then throw .outOfBounds
  let search ← (net.keys costs).foldlM
    (fun search _ => net.dijkstraStep (fun mini => (st mini).directRoutersCosts) search)
    { allRoutersCosts := costs, prevRouters := s.prevRouters, visited := visited }
  return { s with
    allRoutersCosts := search.allRoutersCosts
    prevRouters := search.prevRouters }

/-! ## One iteration -/

section Relax

variable {w : R → R → Option ℕ} {mini : R}

/-- What looking at a router does to it. -/
theorem relaxOne_self (s : Search R) (k : R) :
    (relaxOne (w mini) mini s k).cost k = relaxCost w s.cost mini k ∧
      (relaxOne (w mini) mini s k).prevRouters k = relaxPrev w s.cost s.prevRouters mini k := by
  rw [relaxOne, relaxCost, relaxPrev]
  cases w mini k with
  | none => exact ⟨rfl, rfl⟩
  | some c =>
    dsimp only
    split_ifs
    · exact ⟨by simp [Search.cost], by simp [mapInsert_apply]⟩
    · exact ⟨rfl, rfl⟩

variable (w mini) in
/-- The other routers stay as they are. -/
theorem relaxOne_of_ne (s : Search R) {k x : R} (hne : x ≠ k) :
    (relaxOne (w mini) mini s k).allRoutersCosts x = s.allRoutersCosts x ∧
      (relaxOne (w mini) mini s k).prevRouters x = s.prevRouters x := by
  rw [relaxOne]
  cases w mini k with
  | none => exact ⟨rfl, rfl⟩
  | some c =>
    dsimp only
    split_ifs
    · exact ⟨by simp [hne], by simp [mapInsert_apply, hne]⟩
    · exact ⟨rfl, rfl⟩

theorem relaxOne_visited (s : Search R) (k : R) :
    (relaxOne (w mini) mini s k).visited = s.visited := by
  rw [relaxOne]
  cases w mini k with
  | none => rfl
  | some c =>
    dsimp only
    split_ifs <;> rfl

/-- No entry is removed. -/
theorem relaxOne_isSome {s : Search R} {x : R} (k : R) (h : (s.allRoutersCosts x).isSome) :
    ((relaxOne (w mini) mini s k).allRoutersCosts x).isSome := by
  rw [relaxOne]
  cases w mini k with
  | none => exact h
  | some c =>
    dsimp only
    split_ifs
    · dsimp only
      rw [Function.update_apply]
      split_ifs
      · rfl
      · exact h
    · exact h

/-- Looking at a list of routers changes each of them as settling `mini` does. -/
theorem foldl_relaxOne (hself : w mini mini = none) {l : List R} (hl : l.Nodup) (s : Search R) :
    (l.foldl (relaxOne (w mini) mini) s).visited = s.visited ∧
      (∀ k ∈ l, (l.foldl (relaxOne (w mini) mini) s).cost k = relaxCost w s.cost mini k ∧
        (l.foldl (relaxOne (w mini) mini) s).prevRouters k =
          relaxPrev w s.cost s.prevRouters mini k) ∧
      (∀ k, k ∉ l → (l.foldl (relaxOne (w mini) mini) s).allRoutersCosts k = s.allRoutersCosts k ∧
        (l.foldl (relaxOne (w mini) mini) s).prevRouters k = s.prevRouters k) ∧
      ∀ k, (s.allRoutersCosts k).isSome →
        ((l.foldl (relaxOne (w mini) mini) s).allRoutersCosts k).isSome := by
  induction l generalizing s with
  | nil => exact ⟨rfl, fun k hk => absurd hk List.not_mem_nil, fun k _ => ⟨rfl, rfl⟩, fun k => id⟩
  | cons x l ih =>
    obtain ⟨hx, hl⟩ := List.nodup_cons.mp hl
    obtain ⟨hvisited, hmem, hrest, hsome⟩ := ih hl (relaxOne (w mini) mini s x)
    -- a router does not improve itself, so its own cost stays as it is
    have hmini : (relaxOne (w mini) mini s x).cost mini = s.cost mini := by
      by_cases heq : mini = x
      · rw [← heq, relaxOne, hself]
      · rw [Search.cost, (relaxOne_of_ne w mini s heq).1, Search.cost]
    rw [List.foldl_cons]
    refine ⟨hvisited.trans (relaxOne_visited s x), fun k hk => ?_, fun k hk => ?_,
      fun k hk => hsome k (relaxOne_isSome x hk)⟩
    -- `k` is the router that is looked at now, or one of the others
    · by_cases heq : k = x
      · subst heq
        obtain ⟨hcost, hprev⟩ := hrest k hx
        rw [Search.cost, hcost, hprev]
        exact relaxOne_self s k
      · have hkl : k ∈ l := (List.mem_cons.mp hk).resolve_left heq
        obtain ⟨hcost, hprev⟩ := hmem k hkl
        obtain ⟨hsame, hsamePrev⟩ := relaxOne_of_ne w mini s heq
        have hsameCost : (relaxOne (w mini) mini s x).cost k = s.cost k := by
          rw [Search.cost, hsame, Search.cost]
        rw [hcost, hprev, relaxCost, relaxCost, relaxPrev, relaxPrev, hmini, hsameCost, hsamePrev]
        exact ⟨rfl, rfl⟩
    · have hne : k ≠ x := List.ne_of_not_mem_cons hk
      have hkl : k ∉ l := List.not_mem_of_not_mem_cons hk
      obtain ⟨hcost, hprev⟩ := hrest k hkl
      obtain ⟨hsame, hsamePrev⟩ := relaxOne_of_ne w mini s hne
      exact ⟨hcost.trans hsame, hprev.trans hsamePrev⟩

end Relax

/-! ## The whole search -/

/-- Marking one more element of a list. -/
theorem length_filter_or {l : List R} (hl : l.Nodup) {m : R} (hm : m ∈ l) {p p' : R → Bool}
    (hp : p m = false) (hp' : ∀ k ∈ l, p' k = true ↔ p k = true ∨ k = m) :
    (l.filter p').length = (l.filter p).length + 1 := by
  induction l with
  | nil => exact absurd hm List.not_mem_nil
  | cons x l ih =>
    obtain ⟨hx, hl⟩ := List.nodup_cons.mp hl
    have htail : ∀ k ∈ l, p' k = true ↔ p k = true ∨ k = m :=
      fun k hk => hp' k (List.mem_cons_of_mem x hk)
    have hhead := hp' x List.mem_cons_self
    by_cases heq : x = m
    · subst heq
      have hsame : l.filter p' = l.filter p := by
        refine List.filter_congr fun k hk => ?_
        rw [Bool.eq_iff_iff, htail k hk]
        exact or_iff_left fun h => hx (h ▸ hk)
      rw [List.filter_cons_of_pos (hhead.mpr (.inr rfl)), List.filter_cons_of_neg (by simp [hp]),
        hsame, List.length_cons]
    · have hrest := ih hl ((List.mem_cons.mp hm).resolve_left (Ne.symm heq)) htail
      rw [or_iff_left heq] at hhead
      by_cases hpx : p x = true
      · rw [List.filter_cons_of_pos (hhead.mpr hpx), List.filter_cons_of_pos hpx, List.length_cons,
          List.length_cons, hrest]
      · rw [List.filter_cons_of_neg fun h => hpx (hhead.mp h), List.filter_cons_of_neg hpx, hrest]

/-- The invariant of the main loop after `n` iterations. -/
structure Searching (r : R) (n : ℕ) (s : Search R) : Prop where
  isSome : ∀ k, (s.allRoutersCosts k).isSome ↔ k ∈ net.others r
  prev : ∀ k, k ∉ net.others r → s.prevRouters k = none
  settles : Settles net.linkCost r infinity (net.others r)
    (fun k => s.visited (net.getRouterId k) = true) s.cost s.prevRouters
  count : ((net.others r).filter fun k => s.visited (net.getRouterId k)).length = n

/-- The other routers have identifiers of their own. -/
def IdsDiffer (r : R) : Prop := ((net.others r).map net.getRouterId).Nodup

/-- The identifiers of the other routers are indices of the array `visited`. -/
def IdsFit (r : R) : Prop := ∀ k ∈ net.others r, net.getRouterId k < graphSize

namespace Routable

variable {net} (h : net.Routable) {r : R} {s : Search R}

include h

/-- The keys of a map that has an entry for each other router. -/
theorem keys_eq {A : Type} {m : R → Option A} (hm : ∀ k, (m k).isSome ↔ k ∈ net.others r) :
    net.keys m = net.others r := by
  refine List.filter_congr fun k hk => ?_
  have hrouter : k ∈ net.ptrListOfRouters := h.addressOrder_perm.mem_iff.mp hk
  rw [Bool.eq_iff_iff, hm, h.mem_others, decide_eq_true_iff, and_iff_right hrouter]

/-- As long as there are routers left, one of them is visited. -/
theorem dijkstraStep_ends (hr : r ∈ net.ptrListOfRouters) (hids : net.IdsDiffer r) {n : ℕ}
    (hs : net.Searching r n s) (hn : n < (net.others r).length) :
    Ends (fun _ => False) (net.Searching r (n + 1)) (net.dijkstraStep net.linkCost s) := by
  have hrooted := h.rooted hr
  have hkeys : net.keys s.allRoutersCosts = net.others r := h.keys_eq hs.isSome
  rw [dijkstraStep, hkeys]
  rcases firstMin_spec s.cost (fun k => !s.visited (net.getRouterId k))
    hrooted.nodup with ⟨-, hall⟩ | ⟨mini, hmini, -⟩
  · -- all routers have been visited
    have hfull : (net.others r).filter (fun k => s.visited (net.getRouterId k)) = net.others r :=
      List.filter_eq_self.mpr fun k hk => by simpa using hall k hk
    have hcount := hs.count
    rw [hfull] at hcount
    omega
  obtain ⟨hmem, hnot, hcost, hbefore⟩ := hs.settles.select hrooted
    (p := fun k => !s.visited (net.getRouterId k)) (fun k _ => by simp) hmini
  rw [hmini]
  have hself : net.linkCost mini mini = none := by
    cases hloop : net.linkCost mini mini with
    | none => rfl
    | some c => exact absurd rfl (h.ne_of_linkCost hloop)
  obtain ⟨hvisited, hnew, hrest, hsome⟩ := foldl_relaxOne hself hrooted.nodup
    { s with visited := Function.update s.visited (net.getRouterId mini) true }
  have hmark : ∀ k ∈ net.others r,
      Function.update s.visited (net.getRouterId mini) true (net.getRouterId k) = true ↔
        s.visited (net.getRouterId k) = true ∨ k = mini := by
    intro k hk
    rw [Function.update_apply]
    split_ifs with heq
    · have hkm : k = mini := List.inj_on_of_nodup_map hids hk hmem heq
      exact iff_of_true rfl (.inr hkm)
    · exact (or_iff_left fun hkm => heq (congrArg net.getRouterId hkm)).symm
  constructor
  case isSome =>
    intro k
    by_cases hk : k ∈ net.others r
    · exact iff_of_true (hsome k ((hs.isSome k).mpr hk)) hk
    · rw [(hrest k hk).1]
      exact hs.isSome k
  case prev => exact fun k hk => (hrest k hk).2.trans (hs.prev k hk)
  case settles =>
    refine (hs.settles.relax hrooted hmem hnot hcost hbefore).congr (fun k hk => ?_)
      (fun k hk => (hnew k hk).1) fun k hk => (hnew k hk).2
    rw [hvisited]
    exact hmark k hk
  case count =>
    rw [hvisited, length_filter_or hrooted.nodup hmem (by simpa using hnot) hmark, hs.count]

end Routable

/-! ## What the search starts with -/

/-- Entries for a list of routers, none of which replaces another one. -/
theorem foldl_mapInsert {A : Type} (l : List R) (m : R → Option A) (v : A) (x : R) :
    l.foldl (fun m k => mapInsert m k v) m x = if x ∈ l then some ((m x).getD v) else m x := by
  induction l generalizing m with
  | nil => exact (if_neg List.not_mem_nil).symm
  | cons k l ih =>
    rw [List.foldl_cons, ih, mapInsert_apply]
    by_cases hk : x = k
    · rw [if_pos hk, hk, if_pos List.mem_cons_self]
      split_ifs <;> rfl
    · rw [if_neg hk]
      simp only [List.mem_cons, hk, false_or]

omit [DecidableEq R] in
/-- Entries for a list, each of which replaces the one before it. -/
theorem foldl_update {K A : Type} [DecidableEq K] (l : List R) (key : R → K) (m : K → A)
    (v : K → A) (x : K) :
    l.foldl (fun m k => Function.update m (key k) (v (key k))) m x =
      if ∃ k ∈ l, key k = x then v x else m x := by
  induction l generalizing m with
  | nil => simp
  | cons k l ih =>
    rw [List.foldl_cons, ih, Function.update_apply]
    by_cases hx : x = key k
    · subst hx
      simp
    · simp [hx, Ne.symm hx]

/-- What a router knows when the costs from it have been computed. -/
structure Searched (r : R) (st : RouterState R) : Prop where
  direct : st.directRoutersCosts = net.linkCost r
  costs : ∀ d, st.allRoutersCosts d =
    if d ∈ net.others r then some (dist net.linkCost r d) else none
  prev : ∀ d ∈ net.others r,
    st.prevRouters d = firstImprover net.linkCost r infinity (net.others r) d

namespace Routable

variable {net} (h : net.Routable) {r : R} {memory : ℕ → Bool} {st : R → RouterState R}

include h

/-- The costs the search starts with. -/
theorem startCosts_eq (hst : net.Explored r (st r)) (d : R) :
    (net.keys (st r).directRoutersCosts).foldl
      (fun m k => Function.update m k ((st r).directRoutersCosts k))
      ((st r).visited.foldl (fun m k => mapInsert m k infinity) (st r).allRoutersCosts) d =
      if d ∈ net.others r then some (initCost net.linkCost r infinity d) else none := by
  apply (foldl_update _ id _ _ _).trans
  rw [foldl_mapInsert, hst.costs, hst.direct, initCost]
  cases hcost : net.linkCost r d with
  | some c =>
    obtain ⟨⟨-, hd⟩, -⟩ := h.linkCost_eq_some_iff.mp hcost
    have hmem : d ∈ net.others r := h.mem_others.mpr ⟨hd, (h.ne_of_linkCost hcost).symm⟩
    have hkey : d ∈ net.keys (net.linkCost r) :=
      List.mem_filter.mpr ⟨h.addressOrder_perm.mem_iff.mpr hd, by rw [hcost]; rfl⟩
    rw [if_pos ⟨d, hkey, rfl⟩, if_pos hmem]
    rfl
  | none =>
    have hkey : ¬ ∃ k ∈ net.keys (net.linkCost r), id k = d := by
      rintro ⟨k, hk, rfl⟩
      have hsome := (List.mem_filter.mp hk).2
      rw [← id_eq k, hcost] at hsome
      exact Bool.false_ne_true hsome
    rw [if_neg hkey]
    simp only [hst.mem_visited, Option.getD_none]

omit h in
/-- In a network that has been explored it is the other routers whose identifiers are used. -/
theorem fits_iff (hst : net.Explored r (st r)) :
    net.fits ((st r).visited ++ net.others r) = true ↔ net.IdsFit r := by
  rw [fits, List.all_eq_true]
  simp only [List.mem_append, hst.mem_visited, or_self, decide_eq_true_iff]
  rfl

/-- In a network that has been explored the search has one iteration for each of the other
routers. -/
theorem dijkstra_eq (hst : net.Explored r (st r))
    (hdirect : ∀ d, (st d).directRoutersCosts = net.linkCost d) :
    net.dijkstra memory st r =
      if net.fits ((st r).visited ++ net.others r) then ((net.others r).foldlM
        (fun search _ => net.dijkstraStep net.linkCost search)
        { allRoutersCosts := fun d =>
            if d ∈ net.others r then some (initCost net.linkCost r infinity d) else none
          prevRouters := fun _ => none
          visited := (st r).visited.foldl
            (fun v k => Function.update v (net.getRouterId k) false) memory }) >>= fun search =>
        .ok { st r with
          allRoutersCosts := search.allRoutersCosts
          prevRouters := search.prevRouters }
      else .error .outOfBounds := by
  have hsome : ∀ k, ((if k ∈ net.others r then some (initCost net.linkCost r infinity k)
      else none).isSome) = true ↔ k ∈ net.others r := by
    intro k
    split_ifs with hk
    · exact iff_of_true rfl hk
    · exact iff_of_false Bool.false_ne_true hk
  simp only [dijkstra, funext (h.startCosts_eq hst), h.keys_eq hsome, hst.prev, funext hdirect]
  cases net.fits ((st r).visited ++ net.others r) <;> rfl

/-- A search that returns has only used elements that exist. -/
theorem idsFit_of_dijkstra (hst : net.Explored r (st r))
    (hdirect : ∀ d, (st d).directRoutersCosts = net.linkCost d) {s : RouterState R}
    (hs : net.dijkstra memory st r = .ok s) : net.IdsFit r := by
  rw [h.dijkstra_eq hst hdirect] at hs
  split_ifs at hs with hfit
  exact (fits_iff hst).mp hfit

/-- In a network that has been explored the search ends with the costs of the best paths. -/
theorem dijkstra_ends (hr : r ∈ net.ptrListOfRouters) (hids : net.IdsDiffer r)
    (hfit : net.IdsFit r) (hst : net.Explored r (st r))
    (hdirect : ∀ d, (st d).directRoutersCosts = net.linkCost d) :
    Ends (fun _ => False)
      (fun s => (net.Searched r s ∧ ∀ d, d ∉ net.others r → s.prevRouters d = none) ∧
        s.nextRouter = (st r).nextRouter) (net.dijkstra memory st r) := by
  have hrooted := h.rooted hr
  -- every router in the maps is marked as not visited, whatever the array held
  have hmark : ∀ k ∈ net.others r,
      (st r).visited.foldl (fun v k => Function.update v (net.getRouterId k) false) memory
        (net.getRouterId k) = false := by
    intro k hk
    refine (foldl_update _ net.getRouterId memory (fun _ => false) _).trans (if_pos ?_)
    exact ⟨k, (hst.mem_visited k).mpr hk, rfl⟩
  rw [h.dijkstra_eq hst hdirect, if_pos ((fits_iff hst).mpr hfit)]
  refine Ends.bind (Ends.foldlM (I := fun pre s => net.Searching r pre.length s) ?_ ?_) ?_
  · -- one round settles one router, and there are as many rounds as routers
    intro pre x post s hkeys hs
    rw [List.length_append]
    apply h.dijkstraStep_ends hr hids hs
    rw [hkeys, List.length_append, List.length_cons]
    omega
  · -- before the first round only the direct costs are known
    constructor
    case isSome =>
      intro k
      dsimp only
      split_ifs with hk
      · exact iff_of_true rfl hk
      · exact iff_of_false Bool.false_ne_true hk
    case prev => exact fun k _ => rfl
    case settles =>
      refine hrooted.settles_init.congr (fun k hk => ?_) (fun k hk => ?_) fun k _ => rfl
      · dsimp only
        rw [hmark k hk]
        exact iff_of_false Bool.false_ne_true not_false
      · dsimp only [Search.cost]
        rw [if_pos hk]
        rfl
    case count =>
      rw [List.length_nil, List.length_eq_zero_iff, List.filter_eq_nil_iff]
      intro k hk
      dsimp only
      rw [hmark k hk]
      exact Bool.false_ne_true
  · -- behind the last round all are settled, so their costs are those of the best paths
    intro s hs
    have hall : ∀ k ∈ net.others r, s.visited (net.getRouterId k) = true :=
      List.length_filter_eq_length_iff.mp hs.count
    refine ⟨⟨⟨hst.direct, fun d => ?_, fun d hd => (hs.settles.finish hrooted hall hd).2⟩,
      fun d hd => hs.prev d hd⟩, rfl⟩
    split_ifs with hd
    · obtain ⟨c, hc⟩ := Option.isSome_iff_exists.mp ((hs.isSome d).mpr hd)
      have hcost := (hs.settles.finish hrooted hall hd).1
      rw [Search.cost, hc, Option.getD_some] at hcost
      exact hc.trans (congrArg some hcost)
    · exact Option.not_isSome_iff_eq_none.mp fun h => hd ((hs.isSome d).mp h)

/-- An iteration that returns marks an identifier that has not been marked before. -/
theorem dijkstraStep_marks (hr : r ∈ net.ptrListOfRouters) {s : Search R}
    (hs : ∀ k, (s.allRoutersCosts k).isSome ↔ k ∈ net.others r) :
    Ends (fun _ => True) (fun s' => (∀ k, (s'.allRoutersCosts k).isSome ↔ k ∈ net.others r) ∧
      ∃ mini ∈ net.others r, s.visited (net.getRouterId mini) = false ∧
        s'.visited = Function.update s.visited (net.getRouterId mini) true)
      (net.dijkstraStep net.linkCost s) := by
  have hrooted := h.rooted hr
  rw [dijkstraStep, h.keys_eq hs]
  rcases firstMin_spec s.cost (fun k => !s.visited (net.getRouterId k))
    hrooted.nodup with ⟨hnone, -⟩ | ⟨mini, hmini, hmem, hnot, -⟩
  · rw [hnone]
    trivial
  rw [hmini]
  obtain ⟨hvisited, -, hrest, hsome⟩ := foldl_relaxOne (h.linkCost_self mini) hrooted.nodup
    { s with visited := Function.update s.visited (net.getRouterId mini) true }
  refine ⟨fun k => ?_, mini, hmem, by simpa using hnot, hvisited⟩
  by_cases hk : k ∈ net.others r
  · exact iff_of_true (hsome k ((hs k).mpr hk)) hk
  · rw [(hrest k hk).1]
    exact hs k

/-- A search that returns has marked as many identifiers as there are other routers. -/
theorem idsDiffer_of_dijkstra (hr : r ∈ net.ptrListOfRouters) (hst : net.Explored r (st r))
    (hdirect : ∀ d, (st d).directRoutersCosts = net.linkCost d) {s : RouterState R}
    (hs : net.dijkstra memory st r = .ok s) : net.IdsDiffer r := by
  suffices hends : Ends (fun _ => True) (fun _ => net.IdsDiffer r) (net.dijkstra memory st r) by
    rwa [hs] at hends
  -- the routers `ms` that have been selected so far
  let I (pre : List R) (s : Search R) : Prop :=
    (∀ k, (s.allRoutersCosts k).isSome ↔ k ∈ net.others r) ∧
      ∃ ms : List R, ms.length = pre.length ∧ (ms.map net.getRouterId).Nodup ∧ ms ⊆ net.others r ∧
        ∀ m ∈ ms, s.visited (net.getRouterId m) = true
  rw [h.dijkstra_eq hst hdirect]
  split_ifs with hfit
  swap
  · trivial
  refine Ends.bind (Ends.foldlM (I := I) ?_ ?_) ?_
  · rintro pre x post s - ⟨hsome, ms, hlen, hnodup, hsub, hmarked⟩
    refine (h.dijkstraStep_marks hr hsome).imp (fun _ => id) ?_
    rintro s' ⟨hsome', mini, hmem, hnot, hvisited⟩
    have hnew : ∀ m ∈ ms, net.getRouterId m ≠ net.getRouterId mini := by
      intro m hm heq
      have hm' := hmarked m hm
      rw [heq, hnot] at hm'
      exact Bool.false_ne_true hm'
    refine ⟨hsome', mini :: ms, ?_, ?_, List.cons_subset.mpr ⟨hmem, hsub⟩, ?_⟩
    · rw [List.length_cons, List.length_append, hlen]
      rfl
    · rw [List.map_cons, List.nodup_cons]
      refine ⟨fun hmini => ?_, hnodup⟩
      obtain ⟨m, hm, heq⟩ := List.mem_map.mp hmini
      exact hnew m hm heq
    · intro m hm
      rw [hvisited, Function.update_apply]
      rcases List.mem_cons.mp hm with rfl | hm
      · exact if_pos rfl
      · rw [if_neg (hnew m hm)]
        exact hmarked m hm
  · refine ⟨fun k => ?_, [], rfl, List.nodup_nil, List.nil_subset _,
      fun m hm => absurd hm List.not_mem_nil⟩
    dsimp only
    split_ifs with hk
    · exact iff_of_true rfl hk
    · exact iff_of_false Bool.false_ne_true hk
  · rintro s ⟨-, ms, hlen, hnodup, hsub, -⟩
    -- all of them have been selected
    have hperm : ms.Perm (net.others r) :=
      ((List.Nodup.of_map _ hnodup).subperm hsub).perm_of_length_le hlen.ge
    exact (hperm.map _).nodup_iff.mp hnodup

end Routable

/-- In a well-formed network all routers have identifiers of their own. -/
theorem WellFormed.idsDiffer {net : TransitNetwork R} (h : net.WellFormed) (r : R) :
    net.IdsDiffer r := by
  have hnodup : (net.others r).Nodup :=
    (h.addressOrder_perm.nodup_iff.mpr h.routers_nodup).filter _
  refine hnodup.map_on ?_
  intro k hk k' hk' heq
  exact h.number_inj k (h.routable.mem_others.mp hk).1 k' (h.routable.mem_others.mp hk').1 heq

theorem WellFormed.idsFit {net : TransitNetwork R} (h : net.WellFormed) (r : R) :
    net.IdsFit r :=
  fun k hk => h.number_lt k (h.routable.mem_others.mp hk).1

end TransitNetwork

end Nsp
