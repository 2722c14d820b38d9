import NetworkMonitoring.Foundations.CText
import NetworkMonitoring.Foundations.ErrorLoops
import NetworkMonitoring.Foundations.ShortestPaths

/-!
# NSP — transit networks

`TransitNetwork`, `Router` and `Link` as `SamplingPlatform::AddNewTransitNetwork` loads them from a
topology file, with the functions that look up links, routers and adapters. A pointer to a router is
a value of the type `R`; where the program iterates over a map with such keys, it does so in the
order of their addresses.

`WellFormed` collects what is assumed of a topology file: it describes a connected network whose
routers have their own identifiers and adapters, with at most one link between two routers, and an
adapter is on one link, whose other end is an AS or an adapter of another router. `linkCost` are the
costs of the links of such a network, and with them it is a graph (`Routable.rooted`). Most results
need less: `Wired` is about the adapters and links only, and `Routable` leaves out the identifiers.
-/

namespace Nsp

open CText ErrorLoops ShortestPaths

/-- What keeps a call from returning. -/
inductive Failure where
  /-- A NULL pointer is followed. -/
  | nullPointer
  /-- A function ends in an exception it catches itself, and returns nothing. -/
  | noValue
  /-- A text is written behind a `char` array. -/
  | overflow
  /-- An element behind the end of an array is used. -/
  | outOfBounds
  /-- A loop or a recursion does not end. -/
  | noReturn
  deriving DecidableEq, Repr

/-- `class Link`. -/
structure Link where
  sAdapter1 : Text
  sAdapter2 : Text
  uCost : ℕ
  deriving DecidableEq, Repr

namespace Link

/-- `Link::IsItOneOfTheAdapters`. -/
def isItOneOfTheAdapters (l : Link) (sAd : Text) : Bool := l.sAdapter1 == sAd || l.sAdapter2 == sAd

/-- `Link::GetTheOppositeAdapter`. -/
def getTheOppositeAdapter (l : Link) (ad : Text) : Except Failure Text :=
  if ad = l.sAdapter1 then .ok l.sAdapter2
  else if ad = l.sAdapter2 then .ok l.sAdapter1
  else .error .noValue

/-- The two ends of a link, from either side. -/
def ends (l : Link) : List (Text × Text) :=
  [(l.sAdapter1, l.sAdapter2), (l.sAdapter2, l.sAdapter1)]

end Link

/-- `InterfaceSamplingStatus`. -/
structure InterfaceSamplingStatus where
  inStatus : ℤ
  outStatus : ℤ

/-- What the topology file says about a router: its number, the AS it is the edge of, the addresses
of its interfaces, and whether it monitors the packets on them. -/
structure Router where
  iRouterNumber : ℕ
  edgeAs : Text
  lIps : List Text
  iIsMonitor : ℤ := 0
  interfaceSamplingStatus : List (Text × InterfaceSamplingStatus) := []

/-- `class TransitNetwork`. -/
structure TransitNetwork (R : Type) where
  ptrListOfLinks : List Link
  ptrListOfRouters : List R
  /-- The routers in the order of their addresses. -/
  addressOrder : List R
  router : R → Router

/-- `GRAPHSIZE`. -/
def graphSize : ℕ := 2048

/-- `INFINITY`. -/
def infinity : ℕ := graphSize * graphSize

/-- The name has a character of `"As"`. -/
def namesAs (adapter : Text) : Bool := adapter.any fun c => c == 65 || c == 115

namespace TransitNetwork

variable {R : Type} (net : TransitNetwork R)

/-- `TransitNetwork::GetLink`, as `AddRouter` uses it: the first link that has the adapter. -/
def linkOf (sIp : Text) : Option Link := net.ptrListOfLinks.find? (·.isItOneOfTheAdapters sIp)

/-- `ListOfAdapters` of a router: the adapters for which `AddRouter` has found a link. -/
def listOfAdapters (r : R) : List Text := (net.router r).lIps.filter fun ip => (net.linkOf ip).isSome

/-- `ptrListOfLinks` of a router: the links `AddRouter` has found. -/
def linksOf (r : R) : List Link := (net.router r).lIps.filterMap net.linkOf

/-- `Node::IsItYourAdapter`. -/
def isItYourAdapter (r : R) (sAdapter : Text) : Bool := (net.listOfAdapters r).contains sAdapter

/-- `Node::GetLink`. -/
def getLink (r : R) (adapter : Text) : Option Link :=
  (net.linksOf r).find? (·.isItOneOfTheAdapters adapter)

/-- `TransitNetwork::GetRouter`. -/
def getRouter (sAdapter : Text) : Option R :=
  net.ptrListOfRouters.find? (net.isItYourAdapter · sAdapter)

/-- `TransitNetwork::GetRouterFromId`. -/
def getRouterFromId (id : ℕ) : Option R :=
  net.ptrListOfRouters.find? fun r => (net.router r).iRouterNumber == id

/-- `TransitNetwork::GetTheEdgeRouterOf`. -/
def getTheEdgeRouterOf (as : Text) : Option R :=
  net.ptrListOfRouters.find? fun r => (net.router r).edgeAs == as

/-! ## The graph of a network -/

/-- The link connects the routers. -/
def Connects (l : Link) (r d : R) : Prop :=
  ∃ e ∈ l.ends, e.1 ∈ (net.router r).lIps ∧ e.2 ∈ (net.router d).lIps

instance (l : Link) (r d : R) : Decidable (net.Connects l r d) :=
  inferInstanceAs (Decidable (∃ e ∈ l.ends, _))

variable [DecidableEq R]

/-- The cost of the link between two routers. -/
def linkCost (r d : R) : Option ℕ :=
  if r ∈ net.ptrListOfRouters ∧ d ∈ net.ptrListOfRouters then
    (net.ptrListOfLinks.find? fun l => net.Connects l r d).map Link.uCost
  else none

/-- The routers other than `r`, in the order of their addresses. -/
def others (r : R) : List R := net.addressOrder.filter fun d => decide (d ≠ r)

/-- A network as a topology file is to describe it. -/
structure WellFormed : Prop where
  routers_nodup : net.ptrListOfRouters.Nodup
  addressOrder_perm : net.addressOrder.Perm net.ptrListOfRouters
  /-- The routers have unique numbers below `GRAPHSIZE`. -/
  number_lt : ∀ r ∈ net.ptrListOfRouters, (net.router r).iRouterNumber < graphSize
  number_inj : ∀ r ∈ net.ptrListOfRouters, ∀ r' ∈ net.ptrListOfRouters,
    (net.router r).iRouterNumber = (net.router r').iRouterNumber → r = r'
  /-- A router has an interface; the addresses of interfaces are unique and not names of ASs. -/
  lIps_ne_nil : ∀ r ∈ net.ptrListOfRouters, (net.router r).lIps ≠ []
  adapter_inj : ∀ r ∈ net.ptrListOfRouters, ∀ r' ∈ net.ptrListOfRouters,
    ∀ a ∈ (net.router r).lIps, a ∈ (net.router r').lIps → r = r'
  adapter_ip : ∀ r ∈ net.ptrListOfRouters, ∀ a ∈ (net.router r).lIps, namesAs a = false
  /-- An adapter is on one link. -/
  exists_link : ∀ r ∈ net.ptrListOfRouters, ∀ a ∈ (net.router r).lIps,
    ∃ l ∈ net.ptrListOfLinks, l.isItOneOfTheAdapters a = true
  link_unique : ∀ r ∈ net.ptrListOfRouters, ∀ a ∈ (net.router r).lIps,
    ∀ l ∈ net.ptrListOfLinks, ∀ l' ∈ net.ptrListOfLinks, l.isItOneOfTheAdapters a = true →
    l'.isItOneOfTheAdapters a = true → l = l'
  /-- A link leads from a router to an AS or to another router. -/
  opposite : ∀ r ∈ net.ptrListOfRouters, ∀ l ∈ net.ptrListOfLinks, ∀ e ∈ l.ends,
    e.1 ∈ (net.router r).lIps →
    namesAs e.2 = true ∨ ∃ d ∈ net.ptrListOfRouters, d ≠ r ∧ e.2 ∈ (net.router d).lIps
  /-- There is at most one link between two routers. -/
  one_link : ∀ r ∈ net.ptrListOfRouters, ∀ d ∈ net.ptrListOfRouters, ∀ l ∈ net.ptrListOfLinks,
    ∀ l' ∈ net.ptrListOfLinks, net.Connects l r d → net.Connects l' r d → l = l'
  /-- The costs are positive, and below `INFINITY`. -/
  cost_pos : ∀ l ∈ net.ptrListOfLinks, 0 < l.uCost
  cost_lt : ∀ l ∈ net.ptrListOfLinks, l.uCost < infinity
  /-- The network is connected, by paths whose costs are below `INFINITY`. -/
  joined : ∀ r ∈ net.ptrListOfRouters, ∀ d ∈ net.ptrListOfRouters, Joined net.linkCost r d
  dist_lt : ∀ r ∈ net.ptrListOfRouters, ∀ d ∈ net.ptrListOfRouters,
    dist net.linkCost r d < infinity

/-- Adapters and links fit together: an adapter belongs to one router and is on one link, which
leads to an AS or to an adapter of a router, and two routers have at most one link. -/
structure Wired : Prop where
  adapter_inj : ∀ r ∈ net.ptrListOfRouters, ∀ r' ∈ net.ptrListOfRouters,
    ∀ a ∈ (net.router r).lIps, a ∈ (net.router r').lIps → r = r'
  adapter_ip : ∀ r ∈ net.ptrListOfRouters, ∀ a ∈ (net.router r).lIps, namesAs a = false
  exists_link : ∀ r ∈ net.ptrListOfRouters, ∀ a ∈ (net.router r).lIps,
    ∃ l ∈ net.ptrListOfLinks, l.isItOneOfTheAdapters a = true
  link_unique : ∀ r ∈ net.ptrListOfRouters, ∀ a ∈ (net.router r).lIps,
    ∀ l ∈ net.ptrListOfLinks, ∀ l' ∈ net.ptrListOfLinks, l.isItOneOfTheAdapters a = true →
    l'.isItOneOfTheAdapters a = true → l = l'
  opposite : ∀ r ∈ net.ptrListOfRouters, ∀ l ∈ net.ptrListOfLinks, ∀ e ∈ l.ends,
    e.1 ∈ (net.router r).lIps →
    namesAs e.2 = true ∨ ∃ d ∈ net.ptrListOfRouters, e.2 ∈ (net.router d).lIps
  one_link : ∀ r ∈ net.ptrListOfRouters, ∀ d ∈ net.ptrListOfRouters, ∀ l ∈ net.ptrListOfLinks,
    ∀ l' ∈ net.ptrListOfLinks, net.Connects l r d → net.Connects l' r d → l = l'

/-- A connected network with positive costs, in which paths cost less than `INFINITY`. -/
structure Routable : Prop extends net.Wired where
  routers_nodup : net.ptrListOfRouters.Nodup
  addressOrder_perm : net.addressOrder.Perm net.ptrListOfRouters
  lIps_ne_nil : ∀ r ∈ net.ptrListOfRouters, (net.router r).lIps ≠ []
  /-- No link leads from a router to itself. -/
  linkCost_self : ∀ r, net.linkCost r r = none
  cost_pos : ∀ l ∈ net.ptrListOfLinks, 0 < l.uCost
  cost_lt : ∀ l ∈ net.ptrListOfLinks, l.uCost < infinity
  joined : ∀ r ∈ net.ptrListOfRouters, ∀ d ∈ net.ptrListOfRouters, Joined net.linkCost r d
  dist_lt : ∀ r ∈ net.ptrListOfRouters, ∀ d ∈ net.ptrListOfRouters,
    dist net.linkCost r d < infinity

/-! ## Looking up adapters -/

/-- A search for something that is there finds something of the kind. -/
theorem exists_find? {α : Type} {p : α → Bool} {xs : List α} {x : α} (hx : x ∈ xs)
    (hp : p x = true) : ∃ y, xs.find? p = some y ∧ y ∈ xs ∧ p y = true := by
  obtain ⟨y, hy⟩ := Option.isSome_iff_exists.mp (List.find?_isSome.mpr ⟨x, hx, hp⟩)
  exact ⟨y, hy, List.mem_of_find?_eq_some hy, List.find?_some hy⟩

/-- The ends from the other side. -/
theorem swap_mem_ends {l : Link} {e : Text × Text} (he : e ∈ l.ends) : (e.2, e.1) ∈ l.ends := by
  rcases List.mem_pair.mp he with rfl | rfl
  · exact List.mem_pair.mpr (.inr rfl)
  · exact List.mem_pair.mpr (.inl rfl)

theorem isItOneOfTheAdapters_iff {l : Link} {a : Text} :
    l.isItOneOfTheAdapters a = true ↔ ∃ e ∈ l.ends, e.1 = a := by
  simp [Link.isItOneOfTheAdapters, Link.ends]

/-- The other end of a link. -/
theorem getTheOppositeAdapter_eq {l : Link} {e : Text × Text} (he : e ∈ l.ends) :
    l.getTheOppositeAdapter e.1 = .ok e.2 := by
  rcases List.mem_pair.mp he with rfl | rfl
  · exact if_pos rfl
  · rw [Link.getTheOppositeAdapter]
    split_ifs with heq hneq
    · exact congrArg Except.ok heq
    · rfl
    · exact absurd rfl hneq

namespace Wired

variable {net} (h : net.Wired) {r d : R} {a : Text} {l : Link}

include h

section Adapters

omit [DecidableEq R]

theorem listOfAdapters_eq (hr : r ∈ net.ptrListOfRouters) :
    net.listOfAdapters r = (net.router r).lIps := by
  refine List.filter_eq_self.mpr fun a ha => ?_
  obtain ⟨l, hl, hla⟩ := h.exists_link r hr a ha
  exact List.find?_isSome.mpr ⟨l, hl, hla⟩

theorem isItYourAdapter_iff (hr : r ∈ net.ptrListOfRouters) :
    net.isItYourAdapter r a = true ↔ a ∈ (net.router r).lIps := by
  rw [isItYourAdapter, h.listOfAdapters_eq hr, List.contains_iff_mem]

/-- The link of an adapter, in the list of its router. -/
theorem mem_linksOf_iff (hr : r ∈ net.ptrListOfRouters) :
    l ∈ net.linksOf r ↔ l ∈ net.ptrListOfLinks ∧ ∃ e ∈ l.ends, e.1 ∈ (net.router r).lIps := by
  constructor
  · intro hl
    obtain ⟨ip, hip, hlink⟩ := List.mem_filterMap.mp hl
    rw [linkOf] at hlink
    have hip' : l.isItOneOfTheAdapters ip = true :=
      List.find?_some (p := fun x : Link => x.isItOneOfTheAdapters ip) hlink
    obtain ⟨e, he, rfl⟩ := isItOneOfTheAdapters_iff.mp hip'
    exact ⟨List.mem_of_find?_eq_some hlink, e, he, hip⟩
  · rintro ⟨hl, e, he, hip⟩
    have hle : l.isItOneOfTheAdapters e.1 = true := isItOneOfTheAdapters_iff.mpr ⟨e, he, rfl⟩
    obtain ⟨l', hfind, hl', hle'⟩ := exists_find? (p := fun l => l.isItOneOfTheAdapters e.1) hl hle
    obtain rfl := h.link_unique r hr e.1 hip l' hl' l hl hle' hle
    exact List.mem_filterMap.mpr ⟨e.1, hip, hfind⟩

/-- `GetLink` finds the link an adapter is on. -/
theorem getLink_eq (hr : r ∈ net.ptrListOfRouters) (hl : l ∈ net.ptrListOfLinks)
    {e : Text × Text} (he : e ∈ l.ends) (hip : e.1 ∈ (net.router r).lIps) :
    net.getLink r e.1 = some l := by
  have hle : l.isItOneOfTheAdapters e.1 = true := isItOneOfTheAdapters_iff.mpr ⟨e, he, rfl⟩
  have hmem : l ∈ net.linksOf r := (h.mem_linksOf_iff hr).mpr ⟨hl, e, he, hip⟩
  obtain ⟨l', hfind, hmem', hle'⟩ := exists_find? (p := fun l => l.isItOneOfTheAdapters e.1) hmem hle
  have hl' := ((h.mem_linksOf_iff hr).mp hmem').1
  rw [getLink, hfind, h.link_unique r hr e.1 hip l' hl' l hl hle' hle]

/-- `GetRouter` finds the router an adapter belongs to. -/
theorem getRouter_eq (hr : r ∈ net.ptrListOfRouters) (ha : a ∈ (net.router r).lIps) :
    net.getRouter a = some r := by
  obtain ⟨r', hfind, hr', hown⟩ := exists_find? (p := fun x => net.isItYourAdapter x a) hr
    ((h.isItYourAdapter_iff hr).mpr ha)
  rw [getRouter, hfind, h.adapter_inj r' hr' r hr a ((h.isItYourAdapter_iff hr').mp hown) ha]

end Adapters

/-! ## The graph -/

theorem linkCost_eq_some_iff {c : ℕ} : net.linkCost r d = some c ↔
    (r ∈ net.ptrListOfRouters ∧ d ∈ net.ptrListOfRouters) ∧
      ∃ l ∈ net.ptrListOfLinks, net.Connects l r d ∧ l.uCost = c := by
  rw [linkCost]
  constructor
  · intro hcost
    split_ifs at hcost with hmem
    obtain ⟨l, hfind, rfl⟩ := Option.map_eq_some_iff.mp hcost
    exact ⟨hmem, l, List.mem_of_find?_eq_some hfind, by simpa using List.find?_some hfind, rfl⟩
  · rintro ⟨hmem, l, hl, hconn, rfl⟩
    obtain ⟨l', hfind, hl', hconn'⟩ := exists_find? (p := fun x => decide (net.Connects x r d)) hl
      (decide_eq_true hconn)
    rw [if_pos hmem, hfind, h.one_link r hmem.1 d hmem.2 l' hl' l hl (of_decide_eq_true hconn') hconn]
    rfl

end Wired

namespace Routable

variable {net} (h : net.Routable) {r d : R}

include h

/-- A link leads to another router. -/
theorem ne_of_linkCost {c : ℕ} (hcost : net.linkCost r d = some c) : r ≠ d := by
  rintro rfl
  rw [h.linkCost_self] at hcost
  cases hcost

theorem mem_others : d ∈ net.others r ↔ d ∈ net.ptrListOfRouters ∧ d ≠ r := by
  rw [others, List.mem_filter, h.addressOrder_perm.mem_iff, decide_eq_true_iff]

/-- Seen from a router, the network is a graph with the other routers as its nodes. -/
theorem rooted (hr : r ∈ net.ptrListOfRouters) :
    Rooted net.linkCost r infinity (net.others r) := by
  refine ⟨?_, ?_, ?_, ?_, ?_, ?_⟩
  · exact (h.addressOrder_perm.nodup_iff.mpr h.routers_nodup).filter _
  · exact fun hr' => (h.mem_others.mp hr').2 rfl
  · intro u v c hcost
    obtain ⟨-, l, hl, -, rfl⟩ := h.linkCost_eq_some_iff.mp hcost
    exact h.cost_pos l hl
  · intro u v c hcost
    obtain ⟨⟨hu, -⟩, -⟩ := h.linkCost_eq_some_iff.mp hcost
    exact or_iff_not_imp_left.mpr fun hne => h.mem_others.mpr ⟨hu, hne⟩
  · exact fun hd => h.joined r hr _ (h.mem_others.mp hd).1
  · exact fun hd => h.dist_lt r hr _ (h.mem_others.mp hd).1

end Routable

namespace WellFormed

variable {net} (h : net.WellFormed)

include h

theorem wired : net.Wired where
  adapter_inj := h.adapter_inj
  adapter_ip := h.adapter_ip
  exists_link := h.exists_link
  link_unique := h.link_unique
  opposite := fun r hr l hl e he hip =>
    (h.opposite r hr l hl e he hip).imp_right fun ⟨d, hd, _, hd'⟩ => ⟨d, hd, hd'⟩
  one_link := h.one_link

theorem routable : net.Routable where
  toWired := h.wired
  routers_nodup := h.routers_nodup
  addressOrder_perm := h.addressOrder_perm
  lIps_ne_nil := h.lIps_ne_nil
  linkCost_self := by
    intro r
    by_contra hsome
    obtain ⟨c, hcost⟩ := Option.ne_none_iff_exists'.mp hsome
    obtain ⟨⟨hr, -⟩, l, hl, ⟨e, he, hip, hip'⟩, -⟩ := h.wired.linkCost_eq_some_iff.mp hcost
    rcases h.opposite r hr l hl e he hip with has | ⟨d, hd, hne, hd'⟩
    · rw [h.adapter_ip r hr e.2 hip'] at has
      exact Bool.false_ne_true has
    · exact hne (h.adapter_inj d hd r hr e.2 hd' hip')
  cost_pos := h.cost_pos
  cost_lt := h.cost_lt
  joined := h.joined
  dist_lt := h.dist_lt

end WellFormed

end TransitNetwork

end Nsp
