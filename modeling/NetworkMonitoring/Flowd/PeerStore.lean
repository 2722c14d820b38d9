import NetworkMonitoring.Foundations.SplayTree
import NetworkMonitoring.Flowd.Receive
import NetworkMonitoring.Flowd.TemplateQueues

/-!
# flowd — the peer store

`peer.c` keeps the peers in a queue, in the order of their use, and in a splay tree, in the order of
their addresses. Both hold pointers to the same structures. Here a pointer is the number of a block
of memory, a deleted peer is a block that has been freed, and the use of such a block is a fault.

## Main results

* `PeerStore.Reachable.consistent`: queue, tree and counters agree in every run, and every call
  returns;
* `PeerStore.Linked.findPeer_eq`, `PeerStore.Inv.newPeer_eq`, `PeerStore.Inv.scrubPeers_eq` and
  `PeerStore.Inv.updatePeer_putPeer`: the calls do what they do to the list of peers in `Peers`.
-/

namespace Flowd

open ErrorLoops Function RecencyList

/-- `struct peers`, with the memory of the peers. -/
structure PeerStore where
  /-- What the blocks hold. -/
  block : ℕ → PeerState := fun _ => {}
  /-- The blocks that `calloc` has returned and that have not been freed. -/
  allocated : ℕ → Bool := fun _ => false
  peerTree : BinaryTree ℕ := .nil
  peerList : List ℕ := []
  numPeers : ℕ := 0
  numForced : ℕ := 0

namespace PeerStore

variable (s : PeerStore)

/-- `peer->from`. -/
def origin (peer : ℕ) : Xaddr := (s.block peer).origin

/-- `peer_compare`, for a peer with the address. -/
def compare (addr : Xaddr) (peer : ℕ) : ℤ := addrCmp addr (s.origin peer)

/-- Follow a pointer to a peer. -/
def load (peer : ℕ) : Except Fault PeerState :=
  if s.allocated peer then .ok (s.block peer) else .error .pointer

/-- Write a peer. -/
def store (peer : ℕ) (state : PeerState) : PeerStore :=
  { s with block := update s.block peer state }

/-! ## The calls -/

/-- `find_peer`. The search splays the tree. -/
def findPeer (addr : Xaddr) : PeerStore × Option ℕ :=
  let (tree, found) := SplayTree.find (s.compare addr) s.peerTree
  ({ s with peerTree := tree }, found)

/-- `delete_peer`. -/
def deletePeer (peer : ℕ) : PeerStore :=
  { s with
    peerList := s.peerList.erase peer
    peerTree := SplayTree.remove (s.compare (s.origin peer)) s.peerTree
    block := update s.block peer (s.block peer).nf9Delete
    allocated := update s.allocated peer false
    numPeers := s.numPeers - 1 }

/-- Put a block from `calloc` into the queue and the tree, as a peer with the address. -/
def insertPeer (addr : Xaddr) (peer : ℕ) : PeerStore :=
  let s := { s with
    block := update s.block peer { origin := addr }
    allocated := update s.allocated peer true }
  { s with
    peerList := peer :: s.peerList
    peerTree := SplayTree.insert (s.compare addr) peer s.peerTree }

/-- `new_peer`; `peer` is what `calloc` returns. -/
def newPeer (limits : PeerLimits) (conf : FlowdConfig) (addr : Xaddr) (peer : ℕ) :
    Except Fault (PeerStore × Option ℕ) := do
  -- Check for address authorization
  if !conf.allows addr then
    return (s, none)
  let s := { s with numPeers := s.numPeers + 1 }
  -- If we have overflowed our peer table, then kick out the LRU peer
  let s ←
    if s.numPeers > limits.maxPeers then
      match s.peerList.getLast? with
      | none => .error .pointer
      | some last => .ok { s.deletePeer last with numForced := s.numForced + 1 }
    else .ok s
  return (s.insertPeer addr peer, some peer)

/-- `TAILQ_NEXT`. -/
def tailqNext (queue : List ℕ) (peer : ℕ) : Option ℕ := (queue.dropWhile (· ≠ peer)).tail.head?

/-- The loop of `scrub_peers`, with an upper bound for its iterations. -/
def scrubLoop (conf : FlowdConfig) : ℕ → PeerStore → Option ℕ → Except Fault PeerStore
  | _, s, none => .ok s
  | 0, _, some _ => .error .noReturn
  | n + 1, s, some peer => do
    let npeer := tailqNext s.peerList peer
    let state ← s.load peer
    if conf.matches state.origin then
      scrubLoop conf n s npeer
    else
      scrubLoop conf n (s.deletePeer peer) npeer

/-- `scrub_peers`. -/
def scrubPeers (conf : FlowdConfig) : Except Fault PeerStore :=
  if conf.allowedDevices = [] then .ok s
  else scrubLoop conf s.peerList.length s s.peerList.head?

/-- `update_peer`. -/
def updatePeer (peer : ℕ) (nflows netflowVersion : ℕ) : Except Fault PeerStore := do
  -- Push peer to front of LRU queue, if it isn't there already
  let s := if s.peerList.head? ≠ some peer then
      { s with peerList := peer :: s.peerList.erase peer }
    else s
  let state ← s.load peer
  return s.store peer (state.update nflows netflowVersion)

/-- A call of a function of `peer.c`. -/
inductive Call where
  | findPeer (addr : Xaddr)
  | newPeer (conf : FlowdConfig) (addr : Xaddr) (peer : ℕ)
  | updatePeer (peer nflows netflowVersion : ℕ)
  | scrubPeers (conf : FlowdConfig)
  | findTemplate (peer : ℕ) (sourceId : UInt32) (templateId : UInt16)
  | newTemplate (peer : ℕ) (sourceId : UInt32) (templateId : UInt16)
  | templateUpdate (peer : ℕ) (sourceId : UInt32) (templateId : UInt16)

/-- What a call does. -/
def call (limits : PeerLimits) (s : PeerStore) : Call → Except Fault PeerStore
  | .findPeer addr => .ok (s.findPeer addr).1
  | .newPeer conf addr peer => return (← s.newPeer limits conf addr peer).1
  | .updatePeer peer nflows netflowVersion => s.updatePeer peer nflows netflowVersion
  | .scrubPeers conf => s.scrubPeers conf
  | .findTemplate peer _ _ => do
    let _ ← s.load peer
    return s
  | .newTemplate peer sourceId templateId => do
    let state ← s.load peer
    return s.store peer (← state.newTemplate limits sourceId templateId)
  | .templateUpdate peer sourceId templateId => do
    let state ← s.load peer
    return s.store peer (state.templateUpdate sourceId templateId)

/-- The calls flowd makes: its addresses come from `addr_sa_to_xaddr` and its pointers from
`find_peer` or `new_peer`, and it makes a peer or a template when it has not found it. The block
that `calloc` returns is a free one. -/
def Legal (s : PeerStore) : Call → Prop
  | .findPeer addr => addr.Valid
  | .newPeer _ addr peer =>
    addr.Valid ∧ (s.findPeer addr).2 = none ∧ s.allocated peer = false
  | .scrubPeers _ => True
  | .updatePeer peer _ _ | .findTemplate peer _ _ | .templateUpdate peer _ _ =>
    s.allocated peer = true
  | .newTemplate peer sourceId templateId =>
    s.allocated peer = true ∧ (s.block peer).findTemplate sourceId templateId = none

/-- The stores of a run. -/
inductive Reachable (limits : PeerLimits) : PeerStore → Prop where
  | init : Reachable limits {}
  | step {s s' : PeerStore} {c : Call} (h : Reachable limits s) (hlegal : s.Legal c)
    (hcall : s.call limits c = .ok s') : Reachable limits s'

/-! ## What the calls keep -/

open SplayTree (inorder Cuts)

/-- Queue and tree hold the blocks that are allocated, the tree in the order of their addresses. -/
structure Linked (limits : PeerLimits) : Prop where
  sorted : (inorder s.peerTree).Pairwise fun p q => (s.origin p).key < (s.origin q).key
  perm : (inorder s.peerTree).Perm s.peerList
  live : ∀ p, s.allocated p = true ↔ p ∈ s.peerList
  valid : ∀ p ∈ s.peerList, (s.origin p).Valid
  bounded : ∀ p ∈ s.peerList, (s.block p).Bounded limits

/-- Deleting a peer leaves its address in memory, and all others. -/
theorem origin_deletePeer (peer : ℕ) : (s.deletePeer peer).origin = s.origin := by
  ext q
  by_cases hq : q = peer
  · subst hq
    simp only [origin, deletePeer, update_self, PeerState.origin_nf9Delete]
  · simp only [origin, deletePeer, update_of_ne hq]

/-- A peer that stands at the front already is put there again. -/
theorem updatePeer_eq {peer : ℕ} (hpeer : s.allocated peer = true) (nflows netflowVersion : ℕ) :
    s.updatePeer peer nflows netflowVersion =
      .ok (store { s with peerList := peer :: s.peerList.erase peer } peer
        ((s.block peer).update nflows netflowVersion)) := by
  obtain ⟨block, allocated, peerTree, peerList, numPeers, numForced⟩ := s
  unfold updatePeer load
  dsimp only at hpeer ⊢
  by_cases hhead : peerList.head? = some peer
  · obtain ⟨rest, rfl⟩ := List.head?_eq_some_iff.mp hhead
    rw [if_neg (not_not.mpr hhead), if_pos hpeer, ok_bind, List.erase_cons_head]
    rfl
  · rw [if_pos hhead, if_pos hpeer, ok_bind]
    rfl

variable {s} {limits : PeerLimits} {addr : Xaddr} {p : ℕ}

namespace Linked

theorem nodup (h : s.Linked limits) : s.peerList.Nodup := by
  refine h.perm.nodup_iff.mp (h.sorted.imp ?_)
  rintro p q hlt rfl
  exact Nat.lt_irrefl _ hlt

/-- The order of the tree suits a search for any address. -/
theorem cuts (h : s.Linked limits) (haddr : addr.Valid) :
    Cuts (s.compare addr) (inorder s.peerTree) := by
  refine h.sorted.imp_of_mem fun {p q} hp hq hlt hle => ?_
  obtain ⟨hzero, hneg⟩ := addrCmp_eq haddr (h.valid p (h.perm.mem_iff.mp hp))
  have hq' := (addrCmp_eq haddr (h.valid q (h.perm.mem_iff.mp hq))).2
  have hkey : addr.key ≤ (s.origin p).key := by
    rcases Int.lt_or_eq_of_le hle with hlt | heq
    · exact Nat.le_of_lt (hneg.mp hlt)
    · exact Nat.le_of_eq (hzero.mp heq)
  exact hq'.mpr (Nat.lt_of_le_of_lt hkey hlt)

/-- A search leaves everything as it is, but for the shape of the tree. -/
theorem findPeer (h : s.Linked limits) (addr : Xaddr) : (s.findPeer addr).1.Linked limits where
  sorted := by
    show (inorder (SplayTree.find _ _).1).Pairwise _
    rw [SplayTree.inorder_find]
    exact h.sorted
  perm := by
    show (inorder (SplayTree.find _ _).1).Perm _
    rw [SplayTree.inorder_find]
    exact h.perm
  live := h.live
  valid := h.valid
  bounded := h.bounded

/-- What it finds has the address. -/
theorem findPeer_some (h : s.Linked limits) (hfind : (s.findPeer addr).2 = some p) :
    p ∈ s.peerList ∧ s.compare addr p = 0 := by
  obtain ⟨hmem, hzero⟩ := SplayTree.find_some hfind
  exact ⟨h.perm.mem_iff.mp hmem, hzero⟩

/-- When it finds nothing, no peer has the address. -/
theorem findPeer_none (h : s.Linked limits) (haddr : addr.Valid)
    (hfind : (s.findPeer addr).2 = none) : ∀ q ∈ s.peerList, s.compare addr q ≠ 0 :=
  fun q hq => SplayTree.find_none (h.cuts haddr) hfind q (h.perm.mem_iff.mpr hq)

/-- A peer that is written keeps its place when it keeps its address. -/
theorem store (h : s.Linked limits) {state : PeerState} (horigin : state.origin = s.origin p)
    (hstate : state.Bounded limits) : (s.store p state).Linked limits := by
  have horigins : (s.store p state).origin = s.origin := by
    ext q
    by_cases hq : q = p
    · subst hq
      simp only [origin, PeerStore.store, update_self]
      exact horigin
    · simp only [origin, PeerStore.store, update_of_ne hq]
  refine ⟨?_, h.perm, h.live, ?_, fun q hq => ?_⟩
  · rw [horigins]
    exact h.sorted
  · rw [horigins]
    exact h.valid
  · by_cases hqp : q = p
    · subst hqp
      simpa only [PeerStore.store, update_self] using hstate
    · simpa only [PeerStore.store, update_of_ne hqp] using h.bounded q hq

/-- A peer that is deleted leaves queue and tree. -/
theorem deletePeer (h : s.Linked limits) (hp : p ∈ s.peerList) :
    (s.deletePeer p).Linked limits := by
  have horigins := origin_deletePeer s p
  have hvalid := h.valid p hp
  obtain ⟨pre, post, htree, hremove⟩ := SplayTree.inorder_remove (h.cuts hvalid)
    (h.perm.mem_iff.mpr hp) (addrCmp_self hvalid)
  -- the tree without the peer has the peers of the queue without it
  have hperm : (pre ++ post).Perm (s.peerList.erase p) := by
    have hlist := h.perm
    rw [htree] at hlist
    have herase := (List.perm_middle.symm.trans hlist).erase p
    rwa [List.erase_cons_head] at herase
  have hmem : ∀ q, q ∈ s.peerList.erase p ↔ q ≠ p ∧ q ∈ s.peerList := fun q =>
    h.nodup.mem_erase_iff
  -- the order of the tree, the members, the blocks, and what holds of each peer
  refine ⟨?_, ?_, fun q => ?_, fun q hq => ?_, fun q hq => ?_⟩
  · rw [horigins]
    show (inorder (SplayTree.remove _ _)).Pairwise _
    rw [hremove]
    have hsorted := h.sorted
    rw [htree] at hsorted
    exact hsorted.sublist ((List.sublist_cons_self p post).append_left pre)
  · show (inorder (SplayTree.remove _ _)).Perm _
    rw [hremove]
    exact hperm
  · show update s.allocated p false q = true ↔ q ∈ s.peerList.erase p
    rw [hmem]
    by_cases hq : q = p
    · subst hq
      simp
    · rw [update_of_ne hq, h.live, and_iff_right hq]
  · rw [horigins]
    exact h.valid q ((hmem q).mp hq).2
  · obtain ⟨hne, hq⟩ := (hmem q).mp hq
    show (update s.block p _ q).Bounded limits
    rw [update_of_ne hne]
    exact h.bounded q hq

/-- A new peer is put between the peers that come before it and those that come after it. -/
theorem insertPeer (h : s.Linked limits) (haddr : addr.Valid)
    (hnew : ∀ q ∈ s.peerList, s.compare addr q ≠ 0) (hfree : s.allocated p = false) :
    (s.insertPeer addr p).Linked limits := by
  have hnotMem : p ∉ s.peerList := fun hp => by
    rw [← h.live p, hfree] at hp
    cases hp
  have horigin : ∀ q, (s.insertPeer addr p).origin q = if q = p then addr else s.origin q := by
    intro q
    by_cases hq : q = p
    · subst hq
      simp only [origin, PeerStore.insertPeer, update_self, if_pos]
    · simp only [origin, PeerStore.insertPeer, update_of_ne hq, if_neg hq]
  have hne : ∀ q ∈ s.peerList, q ≠ p := by
    rintro q hq rfl
    exact hnotMem hq
  have hself : (s.insertPeer addr p).origin p = addr := by
    rw [horigin, if_pos rfl]
  have hother : ∀ q ∈ inorder s.peerTree, (s.insertPeer addr p).origin q = s.origin q :=
    fun q hq => by rw [horigin, if_neg (hne q (h.perm.mem_iff.mp hq))]
  -- the comparisons are those of the store in front
  have hcompare : ∀ q ∈ inorder s.peerTree,
      (s.insertPeer addr p).compare addr q = s.compare addr q := fun q hq =>
    congrArg (addrCmp addr) (hother q hq)
  have hcuts : Cuts ((s.insertPeer addr p).compare addr) (inorder s.peerTree) :=
    (h.cuts haddr).imp_of_mem fun {q r} hq hr hcut => by
      rw [hcompare q hq, hcompare r hr]
      exact hcut
  have hnew' : ∀ q ∈ inorder s.peerTree, (s.insertPeer addr p).compare addr q ≠ 0 :=
    fun q hq => by
      rw [hcompare q hq]
      exact hnew q (h.perm.mem_iff.mp hq)
  obtain ⟨pre, post, htree, hinsert, hpre, hpost⟩ := SplayTree.inorder_insert hcuts hnew' p
  have htree' : inorder (s.insertPeer addr p).peerTree = pre ++ p :: post := hinsert
  have hvalid : ∀ q ∈ inorder s.peerTree, ((s.insertPeer addr p).origin q).Valid := fun q hq => by
    rw [hother q hq]
    exact h.valid q (h.perm.mem_iff.mp hq)
  refine ⟨?_, ?_, fun q => ?_, fun q hq => ?_, fun q hq => ?_⟩
  · rw [htree']
    refine SplayTree.pairwise_middle ?_ (fun q hq => ?_) fun q hq => ?_
    · rw [← htree]
      refine h.sorted.imp_of_mem fun {q r} hq hr hlt => ?_
      rwa [hother q hq, hother r hr]
    · rw [hself]
      exact (addrCmp_pos haddr (hvalid q (htree ▸ List.mem_append_left _ hq))).mp (hpre q hq)
    · rw [hself]
      exact (addrCmp_eq haddr (hvalid q (htree ▸ List.mem_append_right _ hq))).2.mp (hpost q hq)
  · rw [htree']
    refine List.perm_middle.trans (List.Perm.cons p ?_)
    rw [← htree]
    exact h.perm
  · show update s.allocated p true q = true ↔ q ∈ p :: s.peerList
    rw [List.mem_cons]
    by_cases hq : q = p
    · subst hq
      simp
    · rw [update_of_ne hq, h.live, or_iff_right hq]
  · rcases List.mem_cons.mp hq with rfl | hq
    · rw [hself]
      exact haddr
    · exact hvalid q (h.perm.mem_iff.mpr hq)
  · show (update s.block p _ q).Bounded limits
    rcases List.mem_cons.mp hq with rfl | hq
    · rw [update_self]
      exact .new limits addr
    · rw [update_of_ne (hne q hq)]
      exact h.bounded q hq

/-- The queue may be in any order. -/
theorem reorder (h : s.Linked limits) {queue : List ℕ} (hqueue : queue.Perm s.peerList) :
    PeerStore.Linked { s with peerList := queue } limits where
  sorted := h.sorted
  perm := h.perm.trans hqueue.symm
  live := fun q => (h.live q).trans hqueue.mem_iff.symm
  valid := fun q hq => h.valid q (hqueue.mem_iff.mp hq)
  bounded := fun q hq => h.bounded q (hqueue.mem_iff.mp hq)

/-- The counters do not matter for it. -/
theorem recount (h : s.Linked limits) (numPeers numForced : ℕ) :
    PeerStore.Linked { s with numPeers := numPeers, numForced := numForced } limits :=
  ⟨h.sorted, h.perm, h.live, h.valid, h.bounded⟩

/-- Only the peer itself is deleted. -/
theorem mem_deletePeer (h : s.Linked limits) {q : ℕ} :
    q ∈ (s.deletePeer p).peerList ↔ q ≠ p ∧ q ∈ s.peerList := h.nodup.mem_erase_iff

theorem block_deletePeer (h : s.Linked limits) {q : ℕ} (hq : q ∈ (s.deletePeer p).peerList) :
    (s.deletePeer p).block q = s.block q := update_of_ne (h.mem_deletePeer.mp hq).1 _ _

theorem load (h : s.Linked limits) (hp : p ∈ s.peerList) : s.load p = .ok (s.block p) :=
  if_pos ((h.live p).mpr hp)

end Linked

/-! ## The counter -/

/-- Queue and tree, with the number of the peers within its limit. -/
structure Inv (limits : PeerLimits) (s : PeerStore) : Prop extends s.Linked limits where
  num_eq : s.numPeers = s.peerList.length
  num_le : s.numPeers ≤ limits.maxPeers

namespace Inv

/-- At the start there are no peers. -/
theorem init (limits : PeerLimits) : Inv limits {} where
  sorted := List.Pairwise.nil
  perm := List.Perm.refl _
  live := fun _ => iff_of_false Bool.false_ne_true List.not_mem_nil
  valid := fun _ h => absurd h List.not_mem_nil
  bounded := fun _ h => absurd h List.not_mem_nil
  num_eq := rfl
  num_le := Nat.zero_le _

theorem deletePeer (h : Inv limits s) (hp : p ∈ s.peerList) : Inv limits (s.deletePeer p) := by
  have hnum := h.num_eq
  have hle := h.num_le
  refine ⟨h.toLinked.deletePeer hp, ?_, ?_⟩
  · show s.numPeers - 1 = (s.peerList.erase p).length
    rw [List.length_erase_of_mem hp, hnum]
  · show s.numPeers - 1 ≤ _
    omega

/-- A new peer, when there is none with its address. The counter has its old value again when a peer
has been deleted for it. -/
theorem newPeer (h : Inv limits s) (hroom : 1 ≤ limits.maxPeers) (conf : FlowdConfig)
    (haddr : addr.Valid) (hfind : (s.findPeer addr).2 = none) (hfree : s.allocated p = false) :
    ∃ r, s.newPeer limits conf addr p = .ok r ∧ Inv limits r.1 := by
  have hnum := h.num_eq
  have hle := h.num_le
  have hnew := h.toLinked.findPeer_none haddr hfind
  unfold PeerStore.newPeer
  cases hallows : conf.allows addr with
  | false => exact ⟨(s, none), rfl, h⟩
  | true =>
    simp only [Bool.not_true, Bool.false_eq_true, if_false]
    by_cases hfull : s.numPeers + 1 > limits.maxPeers
    · have hne : s.peerList ≠ [] := by
        intro hnil
        rw [hnil, List.length_nil] at hnum
        omega
      have hlast := List.getLast_mem hne
      have hlen := List.length_erase_of_mem hlast
      have hpos := List.length_pos_of_ne_nil hne
      -- the last peer of the queue is deleted first, and the counter goes up and down once
      have hdelete := (h.toLinked.recount (s.numPeers + 1) s.numForced).deletePeer hlast
      rw [if_pos hfull, List.getLast?_eq_some_getLast hne]
      refine ⟨_, rfl,
        (hdelete.recount s.numPeers (s.numForced + 1)).insertPeer haddr ?_ ?_, ?_, hle⟩
      · intro q hq
        have horigin := congrFun (origin_deletePeer s (s.peerList.getLast hne)) q
        have hcompare := hnew q (h.toLinked.mem_deletePeer.mp hq).2
        rw [PeerStore.compare, ← horigin] at hcompare
        exact hcompare
      · show update s.allocated _ false p = false
        by_cases hp : p = s.peerList.getLast hne
        · rw [hp, update_self]
        · rw [update_of_ne hp, hfree]
      · show s.numPeers = (p :: s.peerList.erase _).length
        rw [List.length_cons]
        omega
    · rw [if_neg hfull]
      have hinsert := (h.toLinked.recount (s.numPeers + 1) s.numForced).insertPeer haddr hnew hfree
      refine ⟨_, rfl, hinsert, ?_, Nat.not_lt.mp hfull⟩
      show s.numPeers + 1 = (p :: s.peerList).length
      rw [List.length_cons, hnum]

/-- The loop over the queue, from the peers of `rest` on, deletes those of them that no allowed
device matches. -/
theorem scrubLoop (conf : FlowdConfig) {n : ℕ} {pre rest : List ℕ} (h : Inv limits s)
    (hlist : s.peerList = pre ++ rest) (hn : rest.length ≤ n) :
    ∃ s', PeerStore.scrubLoop conf n s rest.head? = .ok s' ∧ Inv limits s' ∧
      s'.peerList = pre ++ rest.filter (fun q => conf.matches (s.origin q)) ∧
      s'.numForced = s.numForced ∧ ∀ q ∈ s'.peerList, s'.block q = s.block q := by
  induction rest generalizing n s pre with
  | nil => exact ⟨s, by cases n <;> rfl, h, hlist, rfl, fun _ _ => rfl⟩
  | cons q rest ih =>
    obtain ⟨m, rfl⟩ : ∃ m, n = m + 1 := ⟨n - 1, by simp only [List.length_cons] at hn; omega⟩
    have hm : rest.length ≤ m := by simpa using hn
    have hq : q ∈ s.peerList := by simp [hlist]
    have hnotMem : q ∉ pre := by
      have hnodup := h.toLinked.nodup
      rw [hlist] at hnodup
      exact fun hmem => (List.nodup_append.mp hnodup).2.2 q hmem q List.mem_cons_self rfl
    -- the next peer is fetched before this one may be freed
    have hnext : tailqNext s.peerList q = rest.head? := by
      have hpre : ∀ r ∈ pre, decide (r ≠ q) = true := fun r hr =>
        decide_eq_true fun heq => hnotMem (heq ▸ hr)
      rw [tailqNext, hlist, List.dropWhile_append_of_pos hpre, List.dropWhile_cons_of_neg (by simp),
        List.tail_cons]
    rw [List.head?_cons, PeerStore.scrubLoop, h.toLinked.load hq, ok_bind, hnext]
    by_cases hmatch : conf.matches (s.origin q) = true
    · have hlist' : s.peerList = (pre ++ [q]) ++ rest := by simp [hlist]
      obtain ⟨s', hok, hs', hfilter, hforced, hblock⟩ := ih h hlist' hm
      refine ⟨s', (if_pos hmatch).trans hok, hs', ?_, hforced, hblock⟩
      rw [hfilter, List.filter_cons_of_pos (by exact hmatch), List.append_assoc,
        List.singleton_append]
    · have hlist' : (s.deletePeer q).peerList = pre ++ rest := by
        show s.peerList.erase q = _
        rw [hlist, List.erase_append_right _ hnotMem, List.erase_cons_head]
      obtain ⟨s', hok, hs', hfilter, hforced, hblock⟩ := ih (h.deletePeer hq) hlist' hm
      refine ⟨s', (if_neg hmatch).trans hok, hs', ?_, hforced, fun r hr => ?_⟩
      · rw [hfilter, List.filter_cons_of_neg (by exact hmatch), origin_deletePeer]
      · rw [hblock r hr]
        apply h.toLinked.block_deletePeer
        rw [hlist']
        rw [hfilter] at hr
        exact (List.Sublist.append_left List.filter_sublist pre).subset hr

/-- Scrubbing returns. -/
theorem scrubPeers (conf : FlowdConfig) (h : Inv limits s) :
    ∃ s', s.scrubPeers conf = .ok s' ∧ Inv limits s' := by
  unfold PeerStore.scrubPeers
  split_ifs
  · exact ⟨s, rfl, h⟩
  · have hlist : s.peerList = [] ++ s.peerList := rfl
    obtain ⟨s', hok, hs', -⟩ := h.scrubLoop conf hlist (Nat.le_refl _)
    exact ⟨s', hok, hs'⟩

/-- A peer that is written stays bounded and keeps its address. -/
theorem storePeer (h : Inv limits s) {state : PeerState} (horigin : state.origin = s.origin p)
    (hstate : state.Bounded limits) : Inv limits (s.store p state) :=
  ⟨h.toLinked.store horigin hstate, h.num_eq, h.num_le⟩

/-- The peer comes to the front. -/
theorem updatePeer (h : Inv limits s) (hp : s.allocated p = true) (nflows netflowVersion : ℕ) :
    ∃ s', s.updatePeer p nflows netflowVersion = .ok s' ∧ Inv limits s' := by
  have hmem := (h.live p).mp hp
  have hperm := (List.perm_cons_erase hmem).symm
  have hmove : Inv limits { s with peerList := p :: s.peerList.erase p } :=
    ⟨h.toLinked.reorder hperm, h.num_eq.trans hperm.length_eq.symm, h.num_le⟩
  exact ⟨_, s.updatePeer_eq hp nflows netflowVersion,
    hmove.storePeer rfl ((h.bounded p hmem).of_nf9 rfl rfl)⟩

/-- Every call that flowd makes returns and keeps the invariant. -/
theorem call (hpeers : 1 ≤ limits.maxPeers) (hroom : limits.Room) (h : Inv limits s) {c : Call}
    (hlegal : s.Legal c) : ∃ s', s.call limits c = .ok s' ∧ Inv limits s' := by
  cases c with
  | findPeer addr => exact ⟨_, rfl, h.toLinked.findPeer addr, h.num_eq, h.num_le⟩
  | newPeer conf addr peer =>
    -- what is legal: a valid address that has not been found, and a free block for the peer
    obtain ⟨haddr, hfind, hfree⟩ := hlegal
    obtain ⟨r, hok, hr⟩ := h.newPeer hpeers conf haddr hfind hfree
    exact ⟨r.1, by rw [PeerStore.call, hok]; rfl, hr⟩
  | updatePeer peer nflows netflowVersion => exact h.updatePeer hlegal nflows netflowVersion
  | scrubPeers conf => exact h.scrubPeers conf
  | findTemplate peer sourceId templateId =>
    have hload := h.toLinked.load ((h.live peer).mp hlegal)
    exact ⟨s, by rw [PeerStore.call, hload]; rfl, h⟩
  | newTemplate peer sourceId templateId =>
    obtain ⟨hallocated, hnew⟩ := hlegal
    have hmem := (h.live peer).mp hallocated
    obtain ⟨state, hok, hbounded, horigin⟩ := (h.bounded peer hmem).newTemplate hroom hnew
    refine ⟨s.store peer state, ?_, h.storePeer horigin hbounded⟩
    rw [PeerStore.call, h.toLinked.load hmem, ok_bind, hok]
    rfl
  | templateUpdate peer sourceId templateId =>
    have hmem := (h.live peer).mp hlegal
    refine ⟨_, ?_, h.storePeer (PeerState.origin_templateUpdate sourceId templateId)
      ((h.bounded peer hmem).templateUpdate sourceId templateId)⟩
    rw [PeerStore.call, h.toLinked.load hmem]
    rfl

end Inv

theorem Reachable.inv (hpeers : 1 ≤ limits.maxPeers) (hroom : limits.Room)
    (h : Reachable limits s) : Inv limits s := by
  induction h with
  | init => exact .init limits
  | step _ hlegal hcall ih =>
    obtain ⟨s', hok, hs'⟩ := ih.call hpeers hroom hlegal
    obtain rfl := Except.ok.inj (hok.symm.trans hcall)
    exact hs'

/-! ## Consistency -/

/-- Queue, tree and counters agree. -/
structure Consistent (limits : PeerLimits) (s : PeerStore) : Prop where
  num_list : s.numPeers = s.peerList.length
  num_tree : s.numPeers = (inorder s.peerTree).length
  num_le : s.numPeers ≤ limits.maxPeers
  same_peers : (inorder s.peerTree).Perm s.peerList
  distinct : s.peerList.Pairwise fun p q => addrCmp (s.origin p) (s.origin q) ≠ 0
  peers : ∀ p ∈ s.peerList, (s.block p).Bounded limits

/-- A peer is known by its address. -/
theorem Linked.key_inj (h : s.Linked limits) {q : ℕ} (hp : p ∈ s.peerList) (hq : q ∈ s.peerList)
    (hkey : (s.origin p).key = (s.origin q).key) : p = q := by
  have hnodup : ((inorder s.peerTree).map fun p => (s.origin p).key).Nodup :=
    List.pairwise_map.mpr (h.sorted.imp fun hlt => Nat.ne_of_lt hlt)
  exact List.inj_on_of_nodup_map hnodup (h.perm.mem_iff.mpr hp) (h.perm.mem_iff.mpr hq) hkey

/-- The peers have different addresses. -/
theorem Linked.distinct (h : s.Linked limits) :
    s.peerList.Pairwise fun p q => addrCmp (s.origin p) (s.origin q) ≠ 0 := by
  refine h.nodup.imp_of_mem fun {p q} hp hq hne hzero => hne (h.key_inj hp hq ?_)
  exact (addrCmp_eq (h.valid p hp) (h.valid q hq)).1.mp hzero

/-- In every run queue, tree and counters agree, and the calls flowd makes return. -/
theorem Reachable.consistent (hpeers : 1 ≤ limits.maxPeers) (hsources : 1 ≤ limits.maxSources)
    (htemplates : 1 ≤ limits.maxTemplates) (h : Reachable limits s) :
    s.Consistent limits ∧ ∀ c, s.Legal c → ∃ s', s.call limits c = .ok s' := by
  have hroom : limits.Room := ⟨hsources, htemplates⟩
  have hinv := h.inv hpeers hroom
  refine ⟨⟨hinv.num_eq, ?_, hinv.num_le, hinv.perm, hinv.distinct, hinv.bounded⟩, fun c hc => ?_⟩
  · rw [hinv.num_eq, hinv.perm.length_eq]
  · obtain ⟨s', hok, -⟩ := hinv.call hpeers hroom hc
    exact ⟨s', hok⟩

/-- The IPv4 address with the same byte four times. -/
def sampleAddr (b : UInt8) : Xaddr := Xaddr.copy {} [b, b, b, b] afInet

/-- With room for one peer, a second one takes the place of the first. -/
theorem consistent_secondPeer :
    ∃ s, Reachable { maxPeers := 1 } s ∧ s.peerList = [1] ∧ s.Consistent { maxPeers := 1 } := by
  have h₁ : Reachable { maxPeers := 1 } (insertPeer { numPeers := 1 } (sampleAddr 1) 0) :=
    .step (c := .newPeer {} (sampleAddr 1) 0) .init ⟨.inl rfl, rfl, rfl⟩ rfl
  have h₂ : Reachable { maxPeers := 1 } (insertPeer
      { deletePeer { insertPeer { numPeers := 1 } (sampleAddr 1) 0 with numPeers := 2 } 0 with
        numForced := 1 } (sampleAddr 2) 1) :=
    .step (c := .newPeer {} (sampleAddr 2) 1) h₁ ⟨.inl rfl, rfl, rfl⟩ rfl
  exact ⟨_, h₂, rfl, (h₂.consistent (by decide) (by decide) (by decide)).1⟩

/-! ## The list of peers -/

/-- The peers in the order of the queue. -/
def toPeers (s : PeerStore) : Peers where
  peerList := s.peerList.map s.block
  numPeers := s.numPeers
  numForced := s.numForced

/-- A search in the tree finds the peer of the list that has the address. -/
theorem Linked.findPeer_eq (h : s.Linked limits) (haddr : addr.Valid) :
    (s.findPeer addr).2.map s.block = s.toPeers.findPeer addr := by
  have hlist : s.toPeers.findPeer addr =
      (s.peerList.find? fun q => s.compare addr q == 0).map s.block := List.find?_map
  rw [hlist]
  apply congrArg (Option.map s.block)
  cases hfind : (s.findPeer addr).2 with
  | none =>
    have hnone := h.findPeer_none haddr hfind
    exact (List.find?_eq_none.mpr fun q hq => by simpa using hnone q hq).symm
  | some p =>
    obtain ⟨hp, hzero⟩ := h.findPeer_some hfind
    cases hq : s.peerList.find? fun q => s.compare addr q == 0 with
    | none => exact absurd (by simpa using hzero) (List.find?_eq_none.mp hq p hp)
    | some q =>
      have hqzero : s.compare addr q = 0 := by simpa using List.find?_some hq
      have hqmem := List.mem_of_find?_eq_some hq
      -- two peers with the address are one
      refine congrArg some (h.key_inj hp hqmem ?_)
      rw [← (addrCmp_eq haddr (h.valid p hp)).1.mp hzero,
        (addrCmp_eq haddr (h.valid q hqmem)).1.mp hqzero]

/-- The list behind an insertion. -/
theorem toPeers_insertPeer (s : PeerStore) (addr : Xaddr) (hp : p ∉ s.peerList) :
    (s.insertPeer addr p).toPeers =
      { s.toPeers with peerList := { origin := addr } :: s.toPeers.peerList } := by
  have hblock : ∀ q ∈ s.peerList, (s.insertPeer addr p).block q = s.block q := by
    intro q hq
    refine update_of_ne ?_ _ _
    rintro rfl
    exact hp hq
  have hself : (s.insertPeer addr p).block p = { origin := addr } := update_self _ _ _
  have hlist : (s.insertPeer addr p).peerList = p :: s.peerList := rfl
  rw [toPeers, hlist, List.map_cons, hself, List.map_congr_left hblock]
  rfl

/-- The list behind a deletion of its last peer. -/
theorem Linked.map_deletePeer (h : s.Linked limits) (hlast : s.peerList.getLast? = some p) :
    (s.deletePeer p).toPeers =
      { s.toPeers with
        peerList := s.toPeers.peerList.dropLast
        numPeers := s.numPeers - 1 } := by
  obtain ⟨init, hinit⟩ := List.getLast?_eq_some_iff.mp hlast
  have hnodup := h.nodup
  rw [hinit] at hnodup
  have hnotMem : p ∉ init := fun hmem =>
    (List.nodup_append.mp hnodup).2.2 p hmem p (List.mem_singleton_self p) rfl
  have hlist : (s.deletePeer p).peerList = init := by
    show s.peerList.erase p = init
    rw [hinit, List.erase_append_right _ hnotMem, List.erase_cons_head, List.append_nil]
  have hblock : ∀ q ∈ init, (s.deletePeer p).block q = s.block q := fun q hq =>
    h.block_deletePeer (hlist ▸ hq)
  have hlists : s.toPeers.peerList.dropLast = init.map s.block := by
    show (s.peerList.map s.block).dropLast = _
    rw [hinit, List.map_append, List.map_singleton, List.dropLast_concat]
  rw [hlists, ← List.map_congr_left hblock, ← hlist]
  rfl

/-- A new peer is new in the list. -/
theorem Inv.newPeer_eq (h : Inv limits s) (conf : FlowdConfig) (hfree : s.allocated p = false)
    {s' : PeerStore} {r : Option ℕ} (hnew : s.newPeer limits conf addr p = .ok (s', r)) :
    s.toPeers.newPeer limits conf.allows addr = .ok s'.toPeers := by
  have hp : p ∉ s.peerList := fun hp => by
    rw [← h.live p, hfree] at hp
    cases hp
  unfold PeerStore.newPeer at hnew
  unfold Peers.newPeer
  cases hallows : conf.allows addr with
  | false =>
    rw [hallows] at hnew
    obtain ⟨rfl, -⟩ := Prod.mk.inj (Except.ok.inj hnew)
    rfl
  | true =>
    rw [hallows] at hnew
    simp only [Bool.not_true, Bool.false_eq_true, if_false] at hnew ⊢
    by_cases hfull : s.numPeers + 1 > limits.maxPeers
    · have hfull' : s.toPeers.numPeers + 1 > limits.maxPeers := hfull
      rw [if_pos hfull] at hnew
      rw [if_pos hfull']
      cases hlast : s.peerList.getLast? with
      | none =>
        rw [hlast] at hnew
        cases hnew
      | some last =>
        rw [hlast] at hnew
        obtain ⟨rfl, -⟩ := Prod.mk.inj (Except.ok.inj hnew)
        have hlist : s.toPeers.peerList ≠ [] := by
          intro hnil
          rw [List.map_eq_nil_iff.mp hnil] at hlast
          cases hlast
        -- deleting the last peer of the queue drops the last one of the list
        have hdelete := (h.toLinked.recount (s.numPeers + 1) s.numForced).map_deletePeer hlast
        rw [if_neg hlist, toPeers_insertPeer _ _ fun hmem => hp (List.mem_of_mem_erase hmem)]
        have hpeers := congrArg Peers.peerList hdelete
        exact congrArg (fun peerList => Except.ok
          (⟨{ origin := addr } :: peerList, s.numPeers, s.numForced + 1⟩ : Peers)) hpeers.symm
    · have hfull' : ¬s.toPeers.numPeers + 1 > limits.maxPeers := hfull
      rw [if_neg hfull] at hnew
      rw [if_neg hfull']
      obtain ⟨rfl, -⟩ := Prod.mk.inj (Except.ok.inj hnew)
      have hp' : p ∉ ({ s with numPeers := s.numPeers + 1 } : PeerStore).peerList := hp
      rw [toPeers_insertPeer _ _ hp']
      rfl

/-- Scrubbing keeps the peers that an allowed device matches. -/
theorem Inv.scrubPeers_eq (conf : FlowdConfig) (h : Inv limits s) :
    ∃ s', s.scrubPeers conf = .ok s' ∧ s'.toPeers = s.toPeers.scrub conf := by
  unfold PeerStore.scrubPeers Peers.scrub
  split_ifs
  · exact ⟨s, rfl, rfl⟩
  · have hlist : s.peerList = [] ++ s.peerList := rfl
    obtain ⟨s', hok, hs', hfilter, hforced, hblock⟩ := h.scrubLoop conf hlist (Nat.le_refl _)
    refine ⟨s', hok, ?_⟩
    have hkept : s'.peerList.map s'.block =
        (s.peerList.map s.block).filter fun peer => conf.matches peer.origin := by
      rw [List.map_congr_left hblock, hfilter, List.nil_append, List.filter_map]
      rfl
    have hle : ((s.peerList.map s.block).filter fun peer => conf.matches peer.origin).length ≤
        s.peerList.length := (List.length_filter_le _ _).trans_eq (List.length_map _)
    have hnum : s'.numPeers =
        s.numPeers - (s.peerList.length - (s'.peerList.map s'.block).length) := by
      rw [hkept, hs'.num_eq, h.num_eq, Nat.sub_sub_self hle, ← hkept, List.length_map]
    simp only [toPeers, List.length_map, hnum, hkept, hforced]

/-- A peer that is updated is put back at the front of the list. -/
theorem Inv.updatePeer_putPeer (h : Inv limits s) (hp : p ∈ s.peerList)
    (nflows netflowVersion : ℕ) :
    ∃ s', s.updatePeer p nflows netflowVersion = .ok s' ∧
      s'.toPeers = s.toPeers.putPeer (s.origin p) (s.block p)
        ((s.block p).update nflows netflowVersion) := by
  refine ⟨_, s.updatePeer_eq ((h.live p).mpr hp) nflows netflowVersion, ?_⟩
  obtain ⟨pre, post, hnotMem, hlist, herase⟩ := List.exists_erase_eq hp
  generalize hstate : (s.block p).update nflows netflowVersion = state
  have hcounts : state.npackets ≠ (s.block p).npackets := by
    subst hstate
    intro heq
    have hnat := congrArg UInt64.toNat heq
    have hlt := (s.block p).npackets.toNat_lt
    simp only [PeerState.update, UInt64.toNat_add, UInt64.reduceToNat] at hnat
    omega
  -- the list holds no other peer with the address
  have heraseP : s.peerList.eraseP (Peers.hasAddr (s.origin p) ∘ s.block) = pre ++ post := by
    have hself : (Peers.hasAddr (s.origin p) ∘ s.block) p = true :=
      beq_iff_eq.mpr (addrCmp_self (h.valid p hp))
    have hother : ∀ q ∈ pre, ¬(Peers.hasAddr (s.origin p) ∘ s.block) q = true := by
      intro q hq hzero
      have hmem : q ∈ s.peerList := hlist ▸ List.mem_append_left _ hq
      have hkey := (addrCmp_eq (h.valid p hp) (h.valid q hmem)).1.mp (beq_iff_eq.mp hzero)
      exact hnotMem (h.toLinked.key_inj hp hmem hkey ▸ hq)
    rw [hlist, List.eraseP_append_right _ hother, List.eraseP_cons_of_pos hself]
  have hblock : ∀ q ∈ pre ++ post, update s.block p state q = s.block q := by
    intro q hq
    refine update_of_ne ?_ _ _
    rw [← herase] at hq
    exact (h.toLinked.nodup.mem_erase_iff.mp hq).1
  unfold Peers.putPeer
  rw [if_neg hcounts]
  simp only [toPeers, store, herase, List.map_cons, update_self, List.eraseP_map, heraseP,
    List.map_congr_left hblock]

end PeerStore
end Flowd
