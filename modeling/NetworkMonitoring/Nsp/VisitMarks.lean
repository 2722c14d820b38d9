import NetworkMonitoring.Nsp.NextHops

/-!
# NSP — the marks of an exploration

`TransitNetwork::ExploreNodeGraph` as the program has it: one function for the call of
`ExploreGraph` (`cc = 0`) and the recursive calls (`cc = 1`), which tell each other by marks in the
map `visitedBy` of each router what has been visited. A mark names the router the search has started
at and the interface, and `visitedBy` has room for one interface of each such router, so that the
marks have to be cleared after each interface.

Behind one interface the marks say the same as the list of `exploreBehind`
(`exploreNodeGraphMarked_behind`), and what a search leaves at an interface are the routers `Beyond`
it, each of them once (`Wired.exploreNodeGraphMarked_exact`). `exploreNodeGraph` finds the same
routers and costs (`Routable.exploreNodeGraph_marks`).
-/

namespace Nsp

open CText ErrorLoops ShortestPaths

/-- The maps a search reads and writes: `visitedBy` of all routers, and `visitedRouters` and
`directRoutersCosts` of the router it starts at. -/
structure Marks (R : Type) where
  visitedBy : R → R → Option Text := fun _ _ => none
  visitedRouters : Text → Option (List R) := fun _ => none
  directRoutersCosts : R → Option ℕ := fun _ => none

namespace Marks

variable {R : Type} [DecidableEq R]

/-- `Router::WasVesitor` of the router `this`. -/
def wasVesitor (m : Marks R) (this p : R) (interface : Text) : Bool :=
  m.visitedBy this p == some interface

/-- `Router::AddVisitedRouter`. -/
def addVisitedRouter (m : Marks R) (i : Text) (r : R) : Marks R :=
  { m with
    visitedRouters :=
      Function.update m.visitedRouters i (some ((m.visitedRouters i).getD [] ++ [r])) }

/-- `visitedBy.insert` of the router `this`. -/
def insertVisitedBy (m : Marks R) (this p : R) (interface : Text) : Marks R :=
  { m with
    visitedBy := Function.update m.visitedBy this (mapInsert (m.visitedBy this) p interface) }

/-- `visitedBy.clear` of the routers in the list. -/
def clearVisitedBy (m : Marks R) (routers : List R) : Marks R :=
  { m with visitedBy := fun v => if v ∈ routers then fun _ => none else m.visitedBy v }

/-- The marks of a search from `startNode` that has visited the routers in the list through the
interface, and had none of them marked before. -/
def behind (m : Marks R) (startNode : R) (interface : Text) (visited : List R) : Marks R :=
  { m with
    visitedBy := fun v p =>
      if p = startNode ∧ v ∈ visited then some interface else m.visitedBy v p
    visitedRouters := Function.update m.visitedRouters interface (some visited) }

end Marks

namespace TransitNetwork

variable {R : Type} [DecidableEq R] (net : TransitNetwork R)

/-- `ExploreNodeGraph`: what it returns, and the maps after it. -/
def exploreNodeGraphMarked (startNode : R) :
    ℕ → R → ℕ → Text → Marks R → Except Failure (Bool × Marks R)
  | 0, _, _, _, _ => .error .noReturn
  | fuel + 1, currentNode, cc, startInterface, m =>
    if currentNode = startNode ∧ cc = 1 then .ok (false, m)
    else do
      let m ← (net.listOfAdapters currentNode).foldlM (fun m adapter => do
        match ← net.across currentNode adapter with
        | none => return m
        | some (l, next) =>
          let tmp := if currentNode = startNode ∧ cc = 0 then adapter else startInterface
          let m ←
            if next ≠ currentNode ∧ ¬ m.wasVesitor next startNode tmp ∧ next ≠ startNode then
              let m := (m.addVisitedRouter tmp next).insertVisitedBy next startNode tmp
              if currentNode = startNode ∧ cc = 0 then
                Prod.snd <$> exploreNodeGraphMarked startNode fuel next 1 adapter m
              else Prod.snd <$> exploreNodeGraphMarked startNode fuel next cc startInterface m
            -- Already visited or equal to the calling node
            else pure m
          if currentNode = startNode ∧ cc = 0 then
            -- Update the direct routers cost
            return { m.clearVisitedBy net.ptrListOfRouters with
              directRoutersCosts := mapInsert m.directRoutersCosts next l.uCost }
          else return m) m
      return (true, m)

/-! ## What a search is for -/

/-- The link at an adapter leads to the router. -/
def LinkLeads (a : Text) (d : R) : Prop :=
  d ∈ net.ptrListOfRouters ∧
    ∃ l ∈ net.ptrListOfLinks, ∃ e ∈ l.ends, e.1 = a ∧ e.2 ∈ (net.router d).lIps

/-- The routers that can be reached from `r` over the link at `a` without passing through `r`
again. -/
inductive Beyond (r : R) (a : Text) : R → Prop where
  | first {d : R} (hlink : net.LinkLeads a d) (hne : d ≠ r) : Beyond r a d
  | step {v d : R} {c : ℕ} (hv : Beyond r a v) (hcost : net.linkCost v d = some c) (hne : d ≠ r) :
    Beyond r a d

/-! ## Marks and lists -/

variable {net} {startNode : R} {m : Marks R} {interface : Text} {visited : List R}

/-- A search finds its own marks only. -/
theorem wasVesitor_behind (hfresh : ∀ v, m.visitedBy v startNode = none) (next : R) :
    (m.behind startNode interface visited).wasVesitor next startNode interface = true ↔
      next ∈ visited := by
  simp only [Marks.wasVesitor, Marks.behind, true_and, beq_iff_eq]
  split_ifs with hmem
  · exact iff_of_true rfl hmem
  · exact iff_of_false (fun h => Option.some_ne_none _ (h.symm.trans (hfresh next))) hmem

/-- A router that has not been visited is marked and appended. -/
theorem insertVisitedBy_behind (hfresh : ∀ v, m.visitedBy v startNode = none) {next : R}
    (hnew : next ∉ visited) :
    ((m.behind startNode interface visited).addVisitedRouter interface next).insertVisitedBy
      next startNode interface = m.behind startNode interface (visited ++ [next]) := by
  simp only [Marks.insertVisitedBy, Marks.addVisitedRouter, Marks.behind, Function.update_self,
    Function.update_idem, Option.getD_some, Marks.mk.injEq, and_true]
  funext v p
  simp only [Function.update_apply, List.mem_append, List.mem_singleton]
  by_cases hv : v = next
  · -- `next` had no mark of this search, so the new one is stored
    rw [if_pos hv, mapInsert_apply, hv]
    simp [hnew, hfresh]
  · rw [if_neg hv]
    simp [hv]

/-- The first router behind an interface. -/
theorem insertVisitedBy_first (hfresh : ∀ v, m.visitedBy v startNode = none)
    (hfirst : m.visitedRouters interface = none) (next : R) :
    (m.addVisitedRouter interface next).insertVisitedBy next startNode interface =
      m.behind startNode interface [next] := by
  simp only [Marks.insertVisitedBy, Marks.addVisitedRouter, Marks.behind, hfirst, Option.getD_none,
    List.nil_append, Marks.mk.injEq, and_true]
  funext v p
  simp only [Function.update_apply, List.mem_singleton]
  by_cases hv : v = next
  · rw [if_pos hv, mapInsert_apply, hfresh, hv]
    simp
  · rw [if_neg hv]
    simp [hv]

/-- Behind an interface the marks say what the list of `exploreBehind` says. -/
theorem exploreNodeGraphMarked_behind (hfresh : ∀ v, m.visitedBy v startNode = none) {fuel : ℕ}
    {currentNode : R} :
    net.exploreNodeGraphMarked startNode fuel currentNode 1 interface
        (m.behind startNode interface visited) =
      (net.exploreBehind startNode fuel currentNode visited).map fun visited' =>
        (decide (currentNode ≠ startNode), m.behind startNode interface visited') := by
  induction fuel generalizing currentNode visited with
  | zero => rfl
  | succ fuel ih =>
    rw [exploreNodeGraphMarked, exploreBehind]
    by_cases hstart : currentNode = startNode
    · rw [if_pos ⟨hstart, rfl⟩, if_pos hstart]
      simp [Except.map, hstart]
    · have hsplit : ∀ x : Except Failure (List R),
          (x.map fun visited' =>
              (decide (currentNode ≠ startNode), m.behind startNode interface visited')) =
            x.map (m.behind startNode interface) >>= fun m => pure (true, m) := by
        intro x
        rw [decide_eq_true hstart]
        cases x <;> rfl
      -- the two loops go on in step
      rw [if_neg fun h => hstart h.1, if_neg hstart, hsplit]
      simp only [hstart, false_and, if_false]
      refine congrArg (· >>= fun m => pure (true, m)) (foldlM_map fun visited adapter => ?_)
      cases net.across currentNode adapter with
      | error e => rfl
      | ok o =>
        cases o with
        | none => rfl
        | some x =>
          obtain ⟨l, next⟩ := x
          simp only [ok_bind, wasVesitor_behind hfresh]
          split_ifs with hnew
          · rw [insertVisitedBy_behind hfresh hnew.2.1, ih]
            cases net.exploreBehind startNode fuel next (visited ++ [next]) <;> rfl
          · rfl

/-! ## Routers beyond an interface -/

/-- A list of the routers beyond an interface, each of them once. -/
def ListsBeyond (net : TransitNetwork R) (r : R) (a : Text) (visited : List R) : Prop :=
  visited.Nodup ∧ ∀ d, d ∈ visited ↔ net.Beyond r a d

/-- A way beyond an interface starts at the router the link leads to. -/
theorem Beyond.exists_first {r d : R} {a : Text} (hd : net.Beyond r a d) :
    ∃ d', net.LinkLeads a d' ∧ d' ≠ r := by
  induction hd with
  | first hlink hne => exact ⟨_, hlink, hne⟩
  | step _ _ _ ih => exact ih

/-- Nothing is beyond an interface that leads to an AS, or back to the router. -/
theorem listsBeyond_nil {r : R} {a : Text} (hback : ∀ d, net.LinkLeads a d → d = r) :
    net.ListsBeyond r a [] := by
  refine ⟨List.nodup_nil, fun d => iff_of_false List.not_mem_nil fun hd => ?_⟩
  obtain ⟨d', hlink, hne⟩ := hd.exists_first
  exact hne (hback d' hlink)

namespace Wired

variable (h : net.Wired) {r d : R} {a : Text}

include h

omit [DecidableEq R] in
/-- At an adapter the program finds the router its link leads to. -/
theorem across_iff_linkLeads (hr : r ∈ net.ptrListOfRouters) (ha : a ∈ (net.router r).lIps) :
    (∃ l, net.across r a = .ok (some (l, d))) ↔ net.LinkLeads a d := by
  constructor
  · rintro ⟨l, hacross⟩
    obtain ⟨l', hl', hla⟩ := h.exists_link r hr a ha
    obtain ⟨e, he, rfl⟩ := isItOneOfTheAdapters_iff.mp hla
    rcases h.opposite r hr l' hl' e he ha with has | ⟨d', hd', hip⟩
    · cases hacross.symm.trans (h.across_as hr hl' he ha has)
    · cases hacross.symm.trans (h.across_eq hr hd' hl' he ha hip)
      exact ⟨hd', l, hl', e, he, rfl, hip⟩
  · rintro ⟨hd, l, hl, e, he, rfl, hip⟩
    exact ⟨l, h.across_eq hr hd hl he ha hip⟩

/-- What a recursive call adds is reached over links that do not lead back. -/
theorem exploreBehind_sound {P : R → Prop}
    (hP : ∀ v d c, P v → net.linkCost v d = some c → d ≠ startNode → P d) {fuel : ℕ}
    {currentNode : R} (hcurrent : currentNode ∈ net.ptrListOfRouters) (hreached : P currentNode)
    (hvisited : ∀ v ∈ visited, P v) :
    Ends (fun _ => True) (fun visited' => ∀ v ∈ visited', P v)
      (net.exploreBehind startNode fuel currentNode visited) := by
  induction fuel generalizing currentNode visited with
  | zero => trivial
  | succ fuel ih =>
    rw [exploreBehind]
    split_ifs
    · exact hvisited
    refine Ends.foldlM (I := fun _ visited' => ∀ v ∈ visited', P v) ?_ hvisited
    intro pre a post visited₁ hadapters hvisited₁
    have ha : a ∈ net.listOfAdapters currentNode := mem_of_eq_append hadapters
    obtain ⟨o, hacross, ho⟩ := (h.across_ends hcurrent ha).exists_ok
    rw [hacross, ok_bind]
    cases o with
    | none => exact hvisited₁
    | some x =>
      obtain ⟨l, next⟩ := x
      obtain ⟨hnext, hcost⟩ := ho _ rfl
      dsimp only
      split_ifs with hnew
      · -- the call goes on only at a router that is not visited and not the start
        have hreached' : P next := hP currentNode next l.uCost hreached hcost hnew.2.2
        refine ih hnext hreached' fun v hv => ?_
        rcases List.mem_append.mp hv with hv | hv
        · exact hvisited₁ v hv
        · exact List.mem_singleton.mp hv ▸ hreached'
      · exact hvisited₁

/-- The recursive calls for the router behind an interface visit what is beyond it. -/
theorem exploreBehind_exact (hr : r ∈ net.ptrListOfRouters) {next : R}
    (hnext : net.LinkLeads a next) (honly : ∀ d, net.LinkLeads a d → d = next) (hne : next ≠ r)
    {fuel : ℕ} (hfuel : net.ptrListOfRouters.length ≤ fuel) :
    ∃ visited, net.exploreBehind r fuel next [next] = .ok visited ∧ net.Visited r visited ∧
      net.ListsBeyond r a visited := by
  have hsingle : net.Visited r [next] :=
    ⟨List.nodup_singleton next, fun v hv => List.mem_singleton.mp hv ▸ ⟨hnext.1, hne⟩⟩
  obtain ⟨visited, hrun, hsub, hvis, hfirst, hrest⟩ :=
    (h.exploreBehind_ends hr hnext.1 List.mem_cons_self hsingle
      (Nat.lt_succ_of_le hfuel)).exists_ok
  have hsound : Ends (fun _ => True) (fun visited => ∀ v ∈ visited, net.Beyond r a v)
      (net.exploreBehind r fuel next [next]) :=
    h.exploreBehind_sound (fun v d c hv hcost hd => .step hv hcost hd) hnext.1 (.first hnext hne)
      fun v hv => List.mem_singleton.mp hv ▸ .first hnext hne
  rw [hrun] at hsound
  refine ⟨visited, hrun, hvis, hvis.nodup, fun d => ⟨hsound d, fun hd => ?_⟩⟩
  -- no link leads out of what has been visited, except back to `r`
  induction hd with
  | first hlink _ => exact honly _ hlink ▸ hsub List.mem_cons_self
  | @step v d c _ hcost hd ih =>
    by_cases heq : v = next
    · exact hfirst d c (heq ▸ hcost) hd
    · exact hrest v ih (fun hmem => heq (List.mem_singleton.mp hmem)) d c hcost hd

end Wired

/-- The maps after the adapters in `pre` have been looked at. -/
structure Surveyed (net : TransitNetwork R) (r : R) (pre : List Text) (m : Marks R) : Prop where
  visitedBy : ∀ v p, m.visitedBy v p = none
  rest : ∀ a, a ∉ pre → m.visitedRouters a = none
  visited : ∀ a ∈ pre, net.ListsBeyond r a ((m.visitedRouters a).getD [])
  costs : ∀ d c, m.directRoutersCosts d = some c → net.linkCost r d = some c
  direct : ∀ a ∈ pre, ∀ l d, net.across r a = .ok (some (l, d)) → (m.directRoutersCosts d).isSome

/-- One more adapter has been looked at. -/
theorem Surveyed.concat {r : R} {pre : List Text} {a : Text} {m' : Marks R}
    (hm : net.Surveyed r pre m) (hby : ∀ v p, m'.visitedBy v p = none)
    (hrest : ∀ b, b ≠ a → m'.visitedRouters b = m.visitedRouters b) (hnew : a ∉ pre)
    (hlist : net.ListsBeyond r a ((m'.visitedRouters a).getD []))
    (hcosts : ∀ d c, m'.directRoutersCosts d = some c →
      m.directRoutersCosts d = some c ∨ net.linkCost r d = some c)
    (hkeep : ∀ d, (m.directRoutersCosts d).isSome → (m'.directRoutersCosts d).isSome)
    (hdirect : ∀ l d, net.across r a = .ok (some (l, d)) → (m'.directRoutersCosts d).isSome) :
    net.Surveyed r (pre ++ [a]) m' := by
  refine ⟨hby, fun b hb => ?_, fun b hb => ?_, fun d c hd => ?_, fun b hb l d hacross => ?_⟩
  · rw [List.mem_append, List.mem_singleton, not_or] at hb
    rw [hrest b hb.2]
    exact hm.rest b hb.1
  · rcases List.mem_append.mp hb with hb | hb
    · rw [hrest b fun heq => hnew (heq ▸ hb)]
      exact hm.visited b hb
    · exact List.mem_singleton.mp hb ▸ hlist
  · exact (hcosts d c hd).elim (hm.costs d c) id
  · rcases List.mem_append.mp hb with hb | hb
    · exact hkeep d (hm.direct b hb l d hacross)
    · exact hdirect l d (List.mem_singleton.mp hb ▸ hacross)

/-- Whatever has been visited, the marks are cleared and the cost of the link is stored. -/
theorem Surveyed.found {r next : R} {pre : List Text} {a : Text} {l : Link}
    (hm : net.Surveyed r pre m) (m₁ : Marks R) (hnew : a ∉ pre)
    (hacross : net.across r a = .ok (some (l, next)))
    (hcost : net.linkCost r next = some l.uCost)
    (hsame : m₁.directRoutersCosts = m.directRoutersCosts)
    (hby : ∀ v p, v ∉ net.ptrListOfRouters → m₁.visitedBy v p = none)
    (hrest : ∀ b, b ≠ a → m₁.visitedRouters b = m.visitedRouters b)
    (hlist : net.ListsBeyond r a ((m₁.visitedRouters a).getD [])) :
    net.Surveyed r (pre ++ [a]) { m₁.clearVisitedBy net.ptrListOfRouters with
      directRoutersCosts := mapInsert m₁.directRoutersCosts next l.uCost } := by
  refine hm.concat (fun v p => ?_) hrest hnew hlist (fun d c hd => ?_)
    (fun d hd => mapInsert_isSome (.inl (hsame ▸ hd))) fun l' d hacross' => ?_
  · simp only [Marks.clearVisitedBy]
    split_ifs with hv
    · rfl
    · exact hby v p hv
  · rcases mapInsert_eq_some hd with hd | ⟨rfl, rfl⟩
    · exact .inl (hsame ▸ hd)
    · exact .inr hcost
  · cases hacross.symm.trans hacross'
    exact mapInsert_isSome (.inr rfl)

namespace Wired

variable (h : net.Wired) {r : R}

include h

/-- The call of `ExploreGraph` surveys all adapters of the router. -/
theorem exploreNodeGraphMarked_ends (hr : r ∈ net.ptrListOfRouters)
    (hnodup : (net.router r).lIps.Nodup) {fuel : ℕ} (hfuel : net.ptrListOfRouters.length < fuel) :
    Ends (fun _ => False) (fun x => x.1 = true ∧ net.Surveyed r (net.router r).lIps x.2)
      (net.exploreNodeGraphMarked r fuel r 0 [] {}) := by
  cases fuel with
  | zero => exact absurd hfuel (Nat.not_lt_zero _)
  | succ fuel =>
    rw [exploreNodeGraphMarked, if_neg (by simp), h.listOfAdapters_eq hr]
    refine Ends.bind (P := net.Surveyed r (net.router r).lIps) ?_ fun m hm => ⟨rfl, hm⟩
    refine Ends.foldlM (I := net.Surveyed r) ?_ ⟨fun _ _ => rfl, fun _ _ => rfl,
      fun a ha => absurd ha List.not_mem_nil, fun d c hd => absurd hd (Option.some_ne_none c).symm,
      fun a ha => absurd ha List.not_mem_nil⟩
    intro pre a post m hadapters hm
    have ha : a ∈ (net.router r).lIps := mem_of_eq_append hadapters
    have hnew : a ∉ pre := fun hmem =>
      (List.nodup_append.mp (hadapters ▸ hnodup)).2.2 a hmem a List.mem_cons_self rfl
    obtain ⟨o, hacross, ho⟩ := (h.across_ends hr ((h.listOfAdapters_eq hr).symm ▸ ha)).exists_ok
    rw [hacross, ok_bind]
    have hleads : ∀ d, net.LinkLeads a d → ∃ l, o = some (l, d) := by
      intro d hlink
      obtain ⟨l, hl⟩ := (h.across_iff_linkLeads hr ha).mpr hlink
      exact ⟨l, Except.ok.inj (hacross.symm.trans hl)⟩
    cases o with
    | none =>
      refine hm.concat hm.visitedBy (fun _ _ => rfl) hnew ?_ (fun _ _ => .inl) (fun _ => id) ?_
      · rw [hm.rest a hnew]
        refine listsBeyond_nil fun d hlink => ?_
        obtain ⟨l, hl⟩ := hleads d hlink
        cases hl
      · intro l d hl
        cases hacross.symm.trans hl
    | some x =>
      obtain ⟨l, next⟩ := x
      obtain ⟨hnext, hcost⟩ := ho _ rfl
      have honly : ∀ d, net.LinkLeads a d → d = next := by
        intro d hlink
        obtain ⟨l', hl'⟩ := hleads d hlink
        cases hl'
        rfl
      have hunmarked : m.wasVesitor next r a = false := by
        rw [Marks.wasVesitor, hm.visitedBy]
        rfl
      by_cases hne : next = r
      · -- the link leads back to the router
        subst hne
        simp only [ne_eq, not_true_eq_false, false_and, if_false, and_self, if_true]
        refine hm.found m hnew hacross hcost rfl (fun v p _ => hm.visitedBy v p) (fun _ _ => rfl) ?_
        rw [hm.rest a hnew]
        exact listsBeyond_nil honly
      · obtain ⟨visited, hrun, hvis, hlist⟩ := h.exploreBehind_exact hr
          ((h.across_iff_linkLeads hr ha).mp ⟨l, hacross⟩) honly hne (Nat.le_of_lt_succ hfuel)
        have hfresh : ∀ v, m.visitedBy v r = none := fun v => hm.visitedBy v r
        simp only [hunmarked, hne, ne_eq, not_false_eq_true, Bool.false_eq_true, and_self, if_true]
        rw [insertVisitedBy_first hfresh (hm.rest a hnew), exploreNodeGraphMarked_behind hfresh,
          hrun]
        refine hm.found (m.behind r a visited) hnew hacross hcost rfl (fun v p hv => ?_)
          (fun b hb => Function.update_of_ne hb _ _) ?_
        · exact (if_neg fun hmem => hv (hvis.mem v hmem.2).1).trans (hm.visitedBy v p)
        · simp only [Marks.behind, Function.update_self]
          exact hlist

/-- When all adapters have been looked at, the router knows its links. -/
theorem directRoutersCosts_eq (hr : r ∈ net.ptrListOfRouters)
    (hm : net.Surveyed r (net.router r).lIps m) : m.directRoutersCosts = net.linkCost r := by
  funext d
  cases hd : m.directRoutersCosts d with
  | some c => exact (hm.costs d c hd).symm
  | none =>
    cases hcost : net.linkCost r d with
    | none => rfl
    | some c =>
      obtain ⟨a, ha, l, hacross, -⟩ := h.exists_across hcost
      have hsome := hm.direct a (h.listOfAdapters_eq hr ▸ ha) l d hacross
      rw [hd] at hsome
      cases hsome

/-- **An exploration is exact.** The call of `ExploreGraph` for a router ends. At each of its
adapters there are then the routers that can be reached over the link without passing through `r`
again, each of them once; the router knows the costs of its links, and no marks are left. -/
theorem exploreNodeGraphMarked_exact (hr : r ∈ net.ptrListOfRouters)
    (hnodup : (net.router r).lIps.Nodup) {fuel : ℕ} (hfuel : net.ptrListOfRouters.length < fuel) :
    ∃ m, net.exploreNodeGraphMarked r fuel r 0 [] {} = .ok (true, m) ∧
      (∀ a ∈ (net.router r).lIps, ((m.visitedRouters a).getD []).Nodup ∧
        ∀ d, d ∈ (m.visitedRouters a).getD [] ↔ net.Beyond r a d) ∧
      m.directRoutersCosts = net.linkCost r ∧ ∀ v p, m.visitedBy v p = none := by
  obtain ⟨⟨_, m⟩, hrun, rfl, hm⟩ := (h.exploreNodeGraphMarked_ends hr hnodup hfuel).exists_ok
  exact ⟨m, hrun, hm.visited, h.directRoutersCosts_eq hr hm, hm.visitedBy⟩

end Wired

/-- In the network of four routers the first one visits the last one also over the second, and knows
that its own link to it costs 10. -/
theorem diamond_marked : ∃ m, diamond.exploreNodeGraphMarked 0 5 0 0 [] {} = .ok (true, m) ∧
    3 ∈ (m.visitedRouters (adapter 1 2)).getD [] ∧ m.directRoutersCosts 3 = some 10 := by
  obtain ⟨m, hrun, hvisited, hdirect, -⟩ :=
    diamond_wellFormed.wired.exploreNodeGraphMarked_exact (r := 0) (by decide) (by decide)
      (show diamond.ptrListOfRouters.length < 5 by decide)
  refine ⟨m, hrun, ((hvisited (adapter 1 2) (by decide)).2 3).mpr ?_, ?_⟩
  · have hlink : diamond.LinkLeads (adapter 1 2) 1 :=
      ⟨by decide, ⟨adapter 1 2, adapter 2 1, 1⟩, by decide, (adapter 1 2, adapter 2 1), by decide,
        rfl, by decide⟩
    refine .step (.first hlink (by decide)) (c := 8) ?_ (by decide)
    rw [diamond_linkCost]
    rfl
  · rw [hdirect, diamond_linkCost]
    rfl

namespace Routable

variable (h : net.Routable) {r d : R}

include h

/-- In a connected network every other router is beyond an interface. -/
theorem exists_beyond_iff (hr : r ∈ net.ptrListOfRouters) :
    (∃ a ∈ (net.router r).lIps, net.Beyond r a d) ↔ d ∈ net.others r := by
  rw [h.mem_others]
  constructor
  · rintro ⟨a, -, hd⟩
    cases hd with
    | first hlink hne => exact ⟨hlink.1, hne⟩
    | step _ hcost hne => exact ⟨(h.linkCost_eq_some_iff.mp hcost).1.2, hne⟩
  · rintro ⟨hd, hne⟩
    obtain ⟨n, hwalk⟩ := h.joined r hr d hd
    -- a walk from `r` stays beyond the interfaces of `r`, or comes back to `r`
    refine (hwalk.invariant (P := fun v => v = r ∨ ∃ a ∈ (net.router r).lIps, net.Beyond r a v)
      (.inl rfl) ?_).resolve_left hne
    rintro v v' c hv hcost
    by_cases heq : v' = r
    · exact .inl heq
    right
    rcases hv with rfl | ⟨a, ha, hv⟩
    · obtain ⟨a, ha, l, hacross, -⟩ := h.exists_across hcost
      rw [h.listOfAdapters_eq hr] at ha
      exact ⟨a, ha, .first ((h.across_iff_linkLeads hr ha).mp ⟨l, hacross⟩) heq⟩
    · exact ⟨a, ha, .step hv hcost heq⟩

/-- `exploreNodeGraph`, which has no marks, finds what the program finds. -/
theorem exploreNodeGraph_marks (hr : r ∈ net.ptrListOfRouters)
    (hnodup : (net.router r).lIps.Nodup) {fuel : ℕ} (hfuel : net.ptrListOfRouters.length < fuel) :
    ∃ m st, net.exploreNodeGraphMarked r fuel r 0 [] {} = .ok (true, m) ∧
      net.exploreNodeGraph r = .ok st ∧ st.directRoutersCosts = m.directRoutersCosts ∧
      ∀ d, d ∈ st.visited ↔ ∃ a ∈ (net.router r).lIps, d ∈ (m.visitedRouters a).getD [] := by
  obtain ⟨⟨_, m⟩, hrun, rfl, hm⟩ := (h.exploreNodeGraphMarked_ends hr hnodup hfuel).exists_ok
  obtain ⟨st, hst, hexplored⟩ := (h.exploreNodeGraph_ends hr).exists_ok
  refine ⟨m, st, hrun, hst, ?_, fun d => ?_⟩
  · rw [hexplored.direct, h.directRoutersCosts_eq hr hm]
  · rw [hexplored.mem_visited, ← h.exists_beyond_iff hr]
    exact exists_congr fun a => and_congr_right fun ha => ((hm.visited a ha).2 d).symm

end Routable

end TransitNetwork

end Nsp
