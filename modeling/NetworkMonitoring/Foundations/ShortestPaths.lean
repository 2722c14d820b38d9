import NetworkMonitoring.Foundations.Chains
import Mathlib.Data.Finset.Card
import Mathlib.Order.Lattice.Nat

/-!
# Shortest paths from one node

A graph is given by the costs `w u v` of its edges. `dist` is the least cost of a walk, and
`firstMin` selects the first element of a list that has the smallest cost.

`Settles` is the invariant of Dijkstra's algorithm for the distances from a root `r`: the settled
nodes have their distance, every other node has the cost of its best connection through them, and
the settled nodes come before all others in the order of distance and list position (`Before`). The
algorithm here starts with the costs of the edges at the root, and a large number for the other
nodes; it remembers for each node the settled node that has improved it *first*.

* `Settles.select`: the node that is selected has its distance;
* `Settles.relax`: settling it keeps the invariant;
* `Settles.finish`: when all nodes are settled, the costs are the distances, and the node remembered
  is the `firstImprover`.

Following the first improvers from a node ends at a neighbour of the root (`Rooted.exists_entry`).
-/

namespace ShortestPaths

open Chains

variable {V : Type*} {w : V → V → Option ℕ}

/-! ## Walks and distances -/

/-- A walk from one node to another, with its total cost. -/
inductive Walk (w : V → V → Option ℕ) : V → V → ℕ → Prop
  | nil (u : V) : Walk w u u 0
  | cons {u v d : V} {c n : ℕ} : w u v = some c → Walk w v d n → Walk w u d (c + n)

/-- There is a walk. -/
def Joined (w : V → V → Option ℕ) (u d : V) : Prop := ∃ n, Walk w u d n

/-- The least cost of a walk. -/
noncomputable def dist (w : V → V → Option ℕ) (u d : V) : ℕ := sInf {n | Walk w u d n}

/-- An edge is a walk. -/
theorem Walk.edge {u v : V} {c : ℕ} (h : w u v = some c) : Walk w u v c :=
  .cons h (.nil v)

/-- Two walks one after the other. -/
theorem Walk.append {u v d : V} {n m : ℕ} (h : Walk w u v n) (h' : Walk w v d m) :
    Walk w u d (n + m) := by
  induction h with
  | nil u => rwa [Nat.zero_add]
  | cons hedge _ ih =>
    rw [Nat.add_assoc]
    exact .cons hedge (ih h')

/-- What every edge preserves holds at the end of a walk. -/
theorem Walk.invariant {u d : V} {n : ℕ} (h : Walk w u d n) {P : V → Prop} (hu : P u)
    (hedge : ∀ v v' c, P v → w v v' = some c → P v') : P d := by
  induction h with
  | nil u => exact hu
  | cons hstep _ ih => exact ih (hedge _ _ _ hu hstep)

/-- A walk that does not stay where it starts has a last edge. -/
theorem Walk.last_edge {u d : V} {n : ℕ} (h : Walk w u d n) :
    (u = d ∧ n = 0) ∨ ∃ m c n', Walk w u m n' ∧ w m d = some c ∧ n = n' + c := by
  induction h with
  | nil u => exact .inl ⟨rfl, rfl⟩
  | @cons u v d c n hedge _ ih =>
    rcases ih with ⟨rfl, rfl⟩ | ⟨m, c', n', hwalk, hlast, rfl⟩
    · exact .inr ⟨u, c, 0, .nil u, hedge, Nat.add_comm c 0⟩
    · exact .inr ⟨m, c', c + n', .cons hedge hwalk, hlast, (Nat.add_assoc c n' c').symm⟩

/-- No walk is shorter than the distance. -/
theorem Walk.dist_le {u d : V} {n : ℕ} (h : Walk w u d n) : dist w u d ≤ n := Nat.sInf_le h

/-- Some walk has the length of the distance. -/
theorem Joined.walk_dist {u d : V} (h : Joined w u d) : Walk w u d (dist w u d) := Nat.sInf_mem h

/-- The way to oneself costs nothing. -/
@[simp]
theorem dist_self (u : V) : dist w u u = 0 := Nat.le_zero.mp (Walk.nil u).dist_le

/-- The triangle inequality, for an edge. -/
theorem Joined.dist_le_add {u v d : V} {c : ℕ} (h : Joined w u v) (hedge : w v d = some c) :
    dist w u d ≤ dist w u v + c :=
  (h.walk_dist.append (.edge hedge)).dist_le

/-- A node is reached through a node in front of it. -/
theorem Joined.exists_pred {u d : V} (h : Joined w u d) (hne : u ≠ d) :
    ∃ m c, Joined w u m ∧ w m d = some c ∧ dist w u m + c = dist w u d := by
  rcases h.walk_dist.last_edge with ⟨rfl, -⟩ | ⟨m, c, n, hwalk, hedge, hdist⟩
  · exact absurd rfl hne
  · refine ⟨m, c, ⟨n, hwalk⟩, hedge, ?_⟩
    have hle := hwalk.dist_le
    have hge := Joined.dist_le_add ⟨n, hwalk⟩ hedge
    omega

/-- A table that satisfies Bellman's equations has the distances. -/
theorem dist_eq_of_bellman {D : V → V → ℕ} (hself : ∀ d, D d d = 0)
    (hle : ∀ u v d, ∀ c ∈ w u v, D u d ≤ c + D v d)
    (hstep : ∀ u d, u ≠ d → ∃ v, ∃ c ∈ w u v, 0 < c ∧ D u d = c + D v d) (u d : V) :
    Joined w u d ∧ dist w u d = D u d := by
  have hwalk : Walk w u d (D u d) := by
    induction hn : D u d using Nat.strong_induction_on generalizing u with
    | _ n ih =>
      subst hn
      by_cases heq : u = d
      · rw [heq, hself]
        exact .nil d
      · obtain ⟨v, c, hedge, hpos, hsum⟩ := hstep u d heq
        rw [hsum]
        exact .cons hedge (ih _ (by omega) v rfl)
  refine ⟨⟨_, hwalk⟩, le_antisymm hwalk.dist_le ?_⟩
  have hbound : ∀ {u n}, Walk w u d n → D u d ≤ n := by
    intro u n h
    induction h with
    | nil d => exact (hself d).le
    | cons hedge _ ih => exact (hle _ _ _ _ hedge).trans (Nat.add_le_add_left (ih hwalk) _)
  exact hbound (Joined.walk_dist ⟨_, hwalk⟩)

/-! ## The first element with the smallest cost -/

section FirstMin

/-- The first element with the smallest cost among those of the list that satisfy `p`. -/
def firstMin (cost : V → ℕ) (p : V → Bool) (l : List V) : Option V :=
  l.foldl (fun mini k =>
    if p k && mini.all (fun m => decide (cost k < cost m)) then some k else mini) none

variable {cost : V → ℕ} {p : V → Bool} {l : List V}

/-- The last candidate is selected when it is cheaper than all before it. -/
theorem firstMin_append_singleton (l : List V) (x : V) :
    firstMin cost p (l ++ [x]) =
      if p x && (firstMin cost p l).all (fun m => decide (cost x < cost m)) then some x
      else firstMin cost p l := by
  rw [firstMin, List.foldl_append]
  rfl

variable [DecidableEq V]

/-- An element comes before another in the order of costs and, for equal costs, of the list. -/
def Before (cost : V → ℕ) (l : List V) (a b : V) : Prop :=
  cost a < cost b ∨ (cost a = cost b ∧ l.idxOf a < l.idxOf b)

/-- The order in which vertices are selected is transitive. -/
theorem Before.trans {a b c : V} (h : Before cost l a b) (h' : Before cost l b c) :
    Before cost l a c := by
  unfold Before at *
  omega

/-- No vertex is selected before itself. -/
theorem Before.irrefl (a : V) : ¬ Before cost l a a := by
  unfold Before
  omega

/-- No two vertices are selected before each other. -/
theorem Before.asymm {a b : V} (h : Before cost l a b) : ¬ Before cost l b a :=
  fun h' => Before.irrefl a (h.trans h')

/-- What is selected before another vertex does not cost more. -/
theorem Before.cost_le {a b : V} (h : Before cost l a b) : cost a ≤ cost b := by
  unfold Before at h
  omega

/-- An element keeps its place when the list grows at its end. -/
theorem before_append {a b : V} (ha : a ∈ l) (hb : b ∈ l) (l' : List V) :
    Before cost (l ++ l') a b ↔ Before cost l a b := by
  rw [Before, Before, List.idxOf_append_of_mem ha, List.idxOf_append_of_mem hb]

variable (cost p) in
/-- Something is selected unless nothing satisfies `p`; it satisfies `p` and comes before everything
else that does. -/
theorem firstMin_spec (hl : l.Nodup) :
    (firstMin cost p l = none ∧ ∀ k ∈ l, p k = false) ∨
      ∃ m, firstMin cost p l = some m ∧ m ∈ l ∧ p m = true ∧
        ∀ k ∈ l, p k = true → k ≠ m → Before cost l m k := by
  induction l using List.reverseRecOn with
  | nil => exact .inl ⟨rfl, fun k hk => absurd hk List.not_mem_nil⟩
  | append_singleton l x ih =>
    have hx : x ∉ l := fun h => (List.nodup_append.mp hl).2.2 x h x List.mem_cons_self rfl
    have hplace : ∀ k ∈ l, (l ++ [x]).idxOf k < (l ++ [x]).idxOf x := by
      intro k hk
      rw [List.idxOf_append_of_mem hk, List.idxOf_append_of_notMem hx]
      exact (List.idxOf_lt_length_of_mem hk).trans_le (Nat.le_add_right _ _)
    rw [firstMin_append_singleton]
    -- `x` stands behind all of `l`, so it is selected only when it is strictly cheaper
    rcases ih (List.nodup_append.mp hl).1 with ⟨hnone, hall⟩ | ⟨m, hm, hmem, hpm, hbefore⟩
    · rw [hnone]
      cases hpx : p x with
      | false =>
        refine .inl ⟨rfl, fun k hk => ?_⟩
        rcases List.mem_append.mp hk with hk | hk
        · exact hall k hk
        · rw [List.mem_singleton.mp hk, hpx]
      | true =>
        refine .inr ⟨x, rfl, List.mem_append_right l List.mem_cons_self, hpx, fun k hk hpk hne => ?_⟩
        rcases List.mem_append.mp hk with hk | hk
        · rw [hall k hk] at hpk
          exact absurd hpk Bool.false_ne_true
        · exact absurd (List.mem_singleton.mp hk) hne
    · rw [hm]
      right
      by_cases hless : p x = true ∧ cost x < cost m
      · refine ⟨x, by simp [hless], List.mem_append_right l List.mem_cons_self, hless.1,
          fun k hk hpk hne => ?_⟩
        rcases List.mem_append.mp hk with hk | hk
        · by_cases hkm : k = m
          · exact .inl (hkm ▸ hless.2)
          · exact .inl (hless.2.trans_le (hbefore k hk hpk hkm).cost_le)
        · exact absurd (List.mem_singleton.mp hk) hne
      · refine ⟨m, if_neg (by simpa using hless), List.mem_append_left [x] hmem, hpm,
          fun k hk hpk hne => ?_⟩
        rcases List.mem_append.mp hk with hk | hk
        · exact (before_append hmem hk [x]).mpr (hbefore k hk hpk hne)
        · obtain rfl := List.mem_singleton.mp hk
          have hle : cost m ≤ cost k := Nat.le_of_not_lt fun h => hless ⟨hpk, h⟩
          have hidx := hplace m hmem
          unfold Before
          omega

end FirstMin

/-! ## Dijkstra's algorithm -/

section Dijkstra

/-- A graph of which every node other than the root is in the list `keys` and is reached from the
root, at a cost below `inf`. -/
structure Rooted (w : V → V → Option ℕ) (r : V) (inf : ℕ) (keys : List V) : Prop where
  nodup : keys.Nodup
  root_notMem : r ∉ keys
  positive : ∀ {u v c}, w u v = some c → 0 < c
  closed : ∀ {u v c}, w u v = some c → u = r ∨ u ∈ keys
  joined : ∀ {d}, d ∈ keys → Joined w r d
  dist_lt : ∀ {d}, d ∈ keys → dist w r d < inf

/-- The cost a node starts with: that of its edge at the root, if there is one. -/
def initCost (w : V → V → Option ℕ) (r : V) (inf : ℕ) (d : V) : ℕ := (w r d).getD inf

/-- The best walk to `d` through `m` is cheaper than what `d` starts with. -/
def Improves (w : V → V → Option ℕ) (r : V) (inf : ℕ) (m d : V) : Prop :=
  ∃ c, w m d = some c ∧ dist w r m + c < initCost w r inf d

open Classical in
/-- The first node, in the order of distance and list position, that improves `d`. -/
noncomputable def firstImprover (w : V → V → Option ℕ) (r : V) (inf : ℕ) (keys : List V) (d : V) :
    Option V :=
  firstMin (dist w r) (fun m => decide (Improves w r inf m d)) keys

variable {r : V} {inf : ℕ} {keys : List V}

/-- A node is not cheaper than its distance at the start. -/
theorem Rooted.dist_le_initCost (h : Rooted w r inf keys) {d : V} (hd : d ∈ keys) :
    dist w r d ≤ initCost w r inf d := by
  rw [initCost]
  cases hedge : w r d with
  | none => exact (h.dist_lt hd).le
  | some c => exact (Walk.edge hedge).dist_le

/-- The last edge of a best walk to a node is at the root, or it comes from a node nearer to the
root. -/
theorem Rooted.exists_pred (h : Rooted w r inf keys) {d : V} (hd : d ∈ keys) :
    w r d = some (dist w r d) ∨
      ∃ m c, m ∈ keys ∧ w m d = some c ∧ dist w r m + c = dist w r d ∧ dist w r m < dist w r d := by
  obtain ⟨m, c, -, hedge, hdist⟩ := (h.joined hd).exists_pred fun heq => h.root_notMem (heq ▸ hd)
  rcases h.closed hedge with rfl | hm
  · rw [dist_self, Nat.zero_add] at hdist
    exact .inl (hdist ▸ hedge)
  · have hpos := h.positive hedge
    exact .inr ⟨m, c, hm, hedge, hdist, by omega⟩

variable [DecidableEq V]

variable (w r inf) in
open Classical in
/-- A node without first improver has none; otherwise the first one comes before the others. -/
theorem firstImprover_spec (hl : keys.Nodup) (d : V) :
    (firstImprover w r inf keys d = none ∧ ∀ k ∈ keys, ¬ Improves w r inf k d) ∨
      ∃ m, firstImprover w r inf keys d = some m ∧ m ∈ keys ∧ Improves w r inf m d ∧
        ∀ k ∈ keys, Improves w r inf k d → k ≠ m → Before (dist w r) keys m k := by
  rcases firstMin_spec (dist w r) (fun m => decide (Improves w r inf m d)) hl with
    ⟨hnone, hall⟩ | ⟨m, hsome, hm, hpm, hbefore⟩
  · exact .inl ⟨hnone, fun k hk => of_decide_eq_false (hall k hk)⟩
  · refine .inr ⟨m, hsome, hm, of_decide_eq_true hpm, fun k hk himp hne => ?_⟩
    exact hbefore k hk (decide_eq_true himp) hne

/-- The improver that is selected first. -/
theorem firstImprover_eq_some (hl : keys.Nodup) {d m : V} (hm : m ∈ keys)
    (himp : Improves w r inf m d)
    (hmin : ∀ k ∈ keys, Improves w r inf k d → k ≠ m → Before (dist w r) keys m k) :
    firstImprover w r inf keys d = some m := by
  rcases firstImprover_spec w r inf hl d with ⟨-, hno⟩ | ⟨m', hsome, hm', himp', hmin'⟩
  · exact absurd himp (hno m hm)
  · by_cases heq : m = m'
    · rw [hsome, heq]
    · exact absurd (hmin m' hm' himp' (Ne.symm heq)) (hmin' m hm himp heq).asymm

/-- Nothing improves the vertex. -/
theorem firstImprover_eq_none (hl : keys.Nodup) {d : V}
    (hno : ∀ m ∈ keys, ¬ Improves w r inf m d) : firstImprover w r inf keys d = none := by
  rcases firstImprover_spec w r inf hl d with ⟨hnone, -⟩ | ⟨m, -, hm, himp, -⟩
  · exact hnone
  · exact absurd himp (hno m hm)

/-- The invariant of the algorithm when the nodes in `S` have been settled: the costs, and the node
that has improved each node first. -/
structure Settles (w : V → V → Option ℕ) (r : V) (inf : ℕ) (keys : List V) (S : V → Prop)
    (cost : V → ℕ) (prev : V → Option V) : Prop where
  settled : ∀ {k}, k ∈ keys → S k → cost k = dist w r k
  le_init : ∀ {k}, k ∈ keys → cost k ≤ initCost w r inf k
  le_step : ∀ {m k c}, m ∈ keys → S m → k ∈ keys → w m k = some c → cost k ≤ dist w r m + c
  ge_dist : ∀ {k}, k ∈ keys → dist w r k ≤ cost k
  before : ∀ {m k}, m ∈ keys → S m → k ∈ keys → ¬ S k → Before (dist w r) keys m k
  prev_none : ∀ {k}, k ∈ keys → prev k = none → cost k = initCost w r inf k
  prev_some : ∀ {k m}, k ∈ keys → prev k = some m → m ∈ keys ∧ S m ∧ Improves w r inf m k ∧
    ∀ {m'}, m' ∈ keys → S m' → Improves w r inf m' k → m' ≠ m → Before (dist w r) keys m m'

/-- Before a node is settled nothing has happened. -/
theorem Rooted.settles_init (h : Rooted w r inf keys) :
    Settles w r inf keys (fun _ => False) (initCost w r inf) (fun _ => none) where
  settled := fun _ h => h.elim
  le_init := fun _ => le_rfl
  le_step := fun _ h => h.elim
  ge_dist := fun hk => h.dist_le_initCost hk
  before := fun _ h => h.elim
  prev_none := fun _ _ => rfl
  prev_some := fun _ h => nomatch h

namespace Settles

variable {S : V → Prop} {cost : V → ℕ} {prev : V → Option V}

/-- Only what the functions say about the nodes in the list matters. -/
theorem congr (h : Settles w r inf keys S cost prev) {S' : V → Prop} {cost' : V → ℕ}
    {prev' : V → Option V} (hS : ∀ k ∈ keys, S' k ↔ S k) (hcost : ∀ k ∈ keys, cost' k = cost k)
    (hprev : ∀ k ∈ keys, prev' k = prev k) : Settles w r inf keys S' cost' prev' where
  settled := fun hk hSk => (hcost _ hk).trans (h.settled hk ((hS _ hk).mp hSk))
  le_init := fun hk => (hcost _ hk).trans_le (h.le_init hk)
  le_step := fun hm hSm hk hedge => (hcost _ hk).trans_le (h.le_step hm ((hS _ hm).mp hSm) hk hedge)
  ge_dist := fun hk => (h.ge_dist hk).trans_eq (hcost _ hk).symm
  before := fun hm hSm hk hSk =>
    h.before hm ((hS _ hm).mp hSm) hk fun hSk' => hSk ((hS _ hk).mpr hSk')
  prev_none := fun hk hnone =>
    (hcost _ hk).trans (h.prev_none hk ((hprev _ hk).symm.trans hnone))
  prev_some := by
    intro k m hk hsome
    obtain ⟨hm, hSm, himp, hmin⟩ := h.prev_some hk ((hprev k hk).symm.trans hsome)
    exact ⟨hm, (hS m hm).mpr hSm, himp, fun hm' hSm' => hmin hm' ((hS _ hm').mp hSm')⟩

/-- In front of every node that is not settled stands one that has its distance already. -/
theorem frontier (h : Settles w r inf keys S cost prev) (hr : Rooted w r inf keys) {k : V}
    (hk : k ∈ keys) (hS : ¬ S k) :
    ∃ k' ∈ keys, ¬ S k' ∧ cost k' = dist w r k' ∧ (k' = k ∨ dist w r k' < dist w r k) := by
  induction hn : dist w r k using Nat.strong_induction_on generalizing k with
  | _ n ih =>
    subst hn
    have hge := h.ge_dist hk
    rcases hr.exists_pred hk with hedge | ⟨m, c, hm, hedge, hdist, hlt⟩
    · have hle := h.le_init hk
      rw [initCost, hedge, Option.getD_some] at hle
      exact ⟨k, hk, hS, by omega, .inl rfl⟩
    · by_cases hSm : S m
      · have hle := h.le_step hm hSm hk hedge
        exact ⟨k, hk, hS, by omega, .inl rfl⟩
      · obtain ⟨k', hk', hS', hcost, hor⟩ := ih _ hlt hm hSm rfl
        refine ⟨k', hk', hS', hcost, .inr ?_⟩
        rcases hor with rfl | hlt'
        · exact hlt
        · exact hlt'.trans hlt

/-- The node selected has its distance, and comes before the others that are not settled. -/
theorem select (h : Settles w r inf keys S cost prev) (hr : Rooted w r inf keys)
    {p : V → Bool} (hp : ∀ k ∈ keys, p k = true ↔ ¬ S k) {m : V}
    (hm : firstMin cost p keys = some m) :
    m ∈ keys ∧ ¬ S m ∧ cost m = dist w r m ∧
      ∀ k ∈ keys, ¬ S k → k ≠ m → Before (dist w r) keys m k := by
  rcases firstMin_spec _ p hr.nodup with ⟨hnone, -⟩ | ⟨m', hm', hmem, hpm, hbefore⟩
  · rw [hnone] at hm
    cases hm
  obtain rfl : m' = m := Option.some.inj (hm'.symm.trans hm)
  have hSm : ¬ S m' := (hp m' hmem).mp hpm
  have hmin : ∀ k ∈ keys, ¬ S k → cost m' ≤ cost k := by
    intro k hk hS
    by_cases heq : k = m'
    · rw [heq]
    · exact (hbefore k hk ((hp k hk).mpr hS) heq).cost_le
  have hcost : cost m' = dist w r m' := by
    obtain ⟨k, hk, hS, hcost, hor⟩ := h.frontier hr hmem hSm
    have hle := hmin k hk hS
    have hge := h.ge_dist hmem
    rcases hor with rfl | hlt <;> omega
  refine ⟨hmem, hSm, hcost, fun k hk hS hne => ?_⟩
  obtain ⟨k', hk', hS', hcost', hor⟩ := h.frontier hr hk hS
  have hle := hmin k' hk' hS'
  rcases hor with rfl | hlt
  · -- the node has its distance, so it was compared with the one selected
    have hbefore' := hbefore k' hk ((hp k' hk).mpr hS) hne
    unfold Before at *
    omega
  · exact .inl (by omega)

end Settles

/-- The cost of `k` after `m` has been settled. -/
def relaxCost (w : V → V → Option ℕ) (cost : V → ℕ) (m k : V) : ℕ :=
  match w m k with
  | some c => if cost m + c < cost k then cost m + c else cost k
  | none => cost k

/-- The node that has improved `k` first, after `m` has been settled. -/
def relaxPrev (w : V → V → Option ℕ) (cost : V → ℕ) (prev : V → Option V) (m k : V) : Option V :=
  match w m k with
  | some c => if cost m + c < cost k then some ((prev k).getD m) else prev k
  | none => prev k

omit [DecidableEq V] in
/-- Either `m` improves `k`, or nothing happens to `k`. -/
theorem relax_cases (w : V → V → Option ℕ) (cost : V → ℕ) (prev : V → Option V) (m k : V) :
    (∃ c, w m k = some c ∧ cost m + c < cost k ∧ relaxCost w cost m k = cost m + c ∧
        relaxPrev w cost prev m k = some ((prev k).getD m)) ∨
      ((∀ c, w m k = some c → cost k ≤ cost m + c) ∧ relaxCost w cost m k = cost k ∧
        relaxPrev w cost prev m k = prev k) := by
  cases hedge : w m k with
  | none =>
    refine .inr ⟨fun c h => ?_, by simp only [relaxCost, hedge], by simp only [relaxPrev, hedge]⟩
    cases h
  | some c =>
    by_cases hlt : cost m + c < cost k
    · exact .inl ⟨c, rfl, hlt, by simp only [relaxCost, hedge, if_pos hlt],
        by simp only [relaxPrev, hedge, if_pos hlt]⟩
    · refine .inr ⟨fun c' h => ?_, by simp only [relaxCost, hedge, if_neg hlt],
        by simp only [relaxPrev, hedge, if_neg hlt]⟩
      obtain rfl := Option.some.inj h
      exact Nat.le_of_not_lt hlt

/-- Settling the node selected keeps the invariant. -/
theorem Settles.relax {S : V → Prop} {cost : V → ℕ} {prev : V → Option V}
    (h : Settles w r inf keys S cost prev) (hr : Rooted w r inf keys) {m : V} (hm : m ∈ keys)
    (hS : ¬ S m) (hcost : cost m = dist w r m)
    (hbefore : ∀ k ∈ keys, ¬ S k → k ≠ m → Before (dist w r) keys m k) :
    Settles w r inf keys (fun k => S k ∨ k = m) (relaxCost w cost m) (relaxPrev w cost prev m) := by
  have hge : ∀ {k}, k ∈ keys → dist w r k ≤ relaxCost w cost m k := by
    intro k hk
    rcases relax_cases w cost prev m k with ⟨c, hedge, -, heq, -⟩ | ⟨-, heq, -⟩
    · rw [heq, hcost]
      exact (hr.joined hm).dist_le_add hedge
    · rw [heq]
      exact h.ge_dist hk
  have hle : ∀ k, relaxCost w cost m k ≤ cost k := by
    intro k
    rcases relax_cases w cost prev m k with ⟨c, -, hlt, heq, -⟩ | ⟨-, heq, -⟩ <;> omega
  constructor
  case settled =>
    rintro k hk (hSk | rfl)
    · exact le_antisymm ((hle k).trans (h.settled hk hSk).le) (hge hk)
    · exact le_antisymm ((hle k).trans hcost.le) (hge hk)
  case le_init => exact fun hk => (hle _).trans (h.le_init hk)
  case le_step =>
    rintro m' k c hm' (hSm' | rfl) hk hedge
    · exact (hle k).trans (h.le_step hm' hSm' hk hedge)
    · rcases relax_cases w cost prev m' k with ⟨c', hedge', -, heq, -⟩ | ⟨hmin, heq, -⟩
      · obtain rfl := Option.some.inj (hedge'.symm.trans hedge)
        exact (heq.trans (congrArg (· + c') hcost)).le
      · rw [heq, ← hcost]
        exact hmin c hedge
  case ge_dist => exact hge
  case before =>
    rintro m' k hm' (hSm' | rfl) hk hSk
    · exact h.before hm' hSm' hk fun hk => hSk (.inl hk)
    · exact hbefore k hk (fun hk => hSk (.inl hk)) fun heq => hSk (.inr heq)
  case prev_none =>
    intro k hk hnone
    rcases relax_cases w cost prev m k with ⟨c, -, -, -, heq⟩ | ⟨-, hsame, heq⟩
    · rw [heq] at hnone
      cases hnone
    · rw [hsame]
      exact h.prev_none hk (heq ▸ hnone)
  case prev_some =>
    intro k x hk hsome
    -- an old entry is kept, and the node just settled comes behind it
    have hold : prev k = some x → x ∈ keys ∧ (S x ∨ x = m) ∧ Improves w r inf x k ∧
        ∀ {m'}, m' ∈ keys → (S m' ∨ m' = m) → Improves w r inf m' k → m' ≠ x →
          Before (dist w r) keys x m' := by
      intro hx
      obtain ⟨hmem, hSx, himp, hmin⟩ := h.prev_some hk hx
      refine ⟨hmem, .inl hSx, himp, ?_⟩
      rintro m' hm' (hSm' | rfl) himp' hne
      · exact hmin hm' hSm' himp' hne
      · exact h.before hmem hSx hm' hS
    rcases relax_cases w cost prev m k with ⟨c, hedge, hlt, -, heq⟩ | ⟨-, -, heq⟩
    · cases hprev : prev k with
      | some y =>
        rw [heq, hprev] at hsome
        exact hold (hprev.trans hsome)
      | none =>
        rw [heq, hprev] at hsome
        obtain rfl : m = x := Option.some.inj hsome
        have hinit : cost k = initCost w r inf k := h.prev_none hk hprev
        refine ⟨hm, .inr rfl, ⟨c, hedge, by omega⟩, ?_⟩
        rintro m' hm' (hSm' | rfl) ⟨c', hedge', hlt'⟩ hne
        · have hstep := h.le_step hm' hSm' hk hedge'
          omega
        · exact absurd rfl hne
    · exact hold (heq ▸ hsome)

/-- The invariant when all nodes have been settled. -/
theorem Settles.finish {S : V → Prop} {cost : V → ℕ} {prev : V → Option V}
    (h : Settles w r inf keys S cost prev) (hr : Rooted w r inf keys) (hall : ∀ k ∈ keys, S k)
    {d : V} (hd : d ∈ keys) :
    cost d = dist w r d ∧ prev d = firstImprover w r inf keys d := by
  have hcost : cost d = dist w r d := h.settled hd (hall d hd)
  refine ⟨hcost, ?_⟩
  cases hprev : prev d with
  | some m =>
    obtain ⟨hm, -, himp, hmin⟩ := h.prev_some hd hprev
    exact (firstImprover_eq_some hr.nodup hm himp fun k hk => hmin hk (hall k hk)).symm
  | none =>
    have hinit : cost d = initCost w r inf d := h.prev_none hd hprev
    refine (firstImprover_eq_none hr.nodup fun m hm => ?_).symm
    rintro ⟨c, hedge, hlt⟩
    have hstep := h.le_step hm (hall m hm) hd hedge
    omega

/-! ## Following the first improvers -/

/-- Nothing improves a node exactly when its edge at the root is a best walk. -/
theorem Rooted.firstImprover_eq_none_iff (hr : Rooted w r inf keys) {d : V} (hd : d ∈ keys) :
    firstImprover w r inf keys d = none ↔ w r d = some (dist w r d) := by
  constructor
  · intro hnone
    rcases hr.exists_pred hd with hedge | ⟨m, c, hm, hedge, hdist, -⟩
    · exact hedge
    -- a node in front of `d` on a best walk would improve it
    · rcases firstImprover_spec w r inf hr.nodup d with ⟨-, hno⟩ | ⟨m, h, -⟩
      · have hle : initCost w r inf d ≤ dist w r d :=
          Nat.le_of_not_lt fun hlt => hno m hm ⟨c, hedge, by omega⟩
        have hlt := hr.dist_lt hd
        have hge := hr.dist_le_initCost hd
        cases hroot : w r d with
        | none =>
          rw [initCost, hroot, Option.getD_none] at hle
          omega
        | some c =>
          rw [initCost, hroot, Option.getD_some] at hle hge
          exact congrArg some (le_antisymm hle hge)
      · rw [hnone] at h
        cases h
  · intro hedge
    refine firstImprover_eq_none hr.nodup fun m hm => ?_
    rintro ⟨c, hlast, hlt⟩
    rw [initCost, hedge, Option.getD_some] at hlt
    have hle := (hr.joined hm).dist_le_add hlast
    omega

/-- The first improver of a node comes before it. -/
theorem Rooted.before_of_firstImprover (hr : Rooted w r inf keys) {d m : V} (hd : d ∈ keys)
    (h : firstImprover w r inf keys d = some m) : m ∈ keys ∧ Before (dist w r) keys m d := by
  rcases firstImprover_spec w r inf hr.nodup d with
    ⟨hnone, -⟩ | ⟨m', hsome, hm, ⟨c, hedge, hlt⟩, hmin⟩
  · rw [hnone] at h
    cases h
  obtain rfl : m' = m := Option.some.inj (hsome.symm.trans h)
  refine ⟨hm, ?_⟩
  -- the last node of a best walk improves `d` as well, and it is nearer to the root
  have hle := (hr.joined hm).dist_le_add hedge
  rcases hr.exists_pred hd with hroot | ⟨p, c', hp, hlast, hdist, hless⟩
  · rw [initCost, hroot, Option.getD_some] at hlt
    omega
  · by_cases heq : p = m'
    · exact .inl (heq ▸ hless)
    · exact (hmin p hp ⟨c', hlast, by omega⟩ heq).trans (.inl hless)

/-- How many elements of the list come before `k`. -/
def rank (cost : V → ℕ) (l : List V) (k : V) : ℕ :=
  (l.toFinset.filter fun m => cost m < cost k ∨ (cost m = cost k ∧ l.idxOf m < l.idxOf k)).card

/-- What is selected before has the smaller rank. -/
theorem rank_lt_rank {cost : V → ℕ} {l : List V} {a b : V} (ha : a ∈ l) (h : Before cost l a b) :
    rank cost l a < rank cost l b := by
  refine Finset.card_lt_card (Finset.ssubset_iff_of_subset ?_ |>.mpr ⟨a, ?_, ?_⟩)
  · intro m hm
    obtain ⟨hmem, hm⟩ := Finset.mem_filter.mp hm
    exact Finset.mem_filter.mpr ⟨hmem, Before.trans hm h⟩
  · exact Finset.mem_filter.mpr ⟨List.mem_toFinset.mpr ha, h⟩
  · exact fun hm => Before.irrefl a (Finset.mem_filter.mp hm).2

/-- The ranks are bounded by the number of vertices. -/
theorem rank_le_length (cost : V → ℕ) (l : List V) (k : V) : rank cost l k ≤ l.length :=
  (Finset.card_filter_le _ _).trans l.toFinset_card_le

/-- The first improvers lead from a node to a neighbour of the root whose edge is a best walk. -/
theorem Rooted.exists_entry (hr : Rooted w r inf keys) {d : V} (hd : d ∈ keys) :
    ∃ n ∈ keys, EndsAt (firstImprover w r inf keys) d n ∧ w r n = some (dist w r n) := by
  induction hn : rank (dist w r) keys d using Nat.strong_induction_on generalizing d with
  | _ n ih =>
    subst hn
    cases hfirst : firstImprover w r inf keys d with
    | none =>
      exact ⟨d, hd, ⟨.refl d, hfirst⟩, (hr.firstImprover_eq_none_iff hd).mp hfirst⟩
    | some m =>
      obtain ⟨hm, hbefore⟩ := hr.before_of_firstImprover hd hfirst
      obtain ⟨n, hn, hentry, hedge⟩ := ih _ (rank_lt_rank hm hbefore) hm rfl
      exact ⟨n, hn, ⟨hentry.1.head hfirst, hentry.2⟩, hedge⟩

end Dijkstra

end ShortestPaths
