import NetworkMonitoring.Softflowd.Runs

/-!
# softflowd — forced expiry and the order of the expiry tree

With its working array, `force_expire` takes the first events out of the expiry tree and puts them
back with a new key. Without the array it writes the new keys into the tree, so the events stay
where they are, and their order is then the one of the flow sequence numbers only.

## Main results

* `TableInv.forceExpire_perm`: with the array, the first events get the key 0, and all others keep
  theirs;
* `forceExpire_ordered_iff`: forced expiry keeps the tree ordered exactly when the array can be
  allocated, or the events already stand in the order of the flows' creation;
* `forceExpire_unordered`: a UDP flow that is younger than a TCP flow and expires before it.
-/

namespace Softflowd

open OrderedSet

/-- An event whose flow is to be expired at once. -/
def Expiry.force (e : Expiry) : Expiry := { e with expiresAt := 0, reason := .overflows }

/-- The expiry events of a table, as they stand after rescheduling some of them. -/
theorem TableInv.foldl_rekey_perm {n : ℕ} (es : List Expiry) {rest : List Expiry} {ft : FlowTrack}
    (h : TableInv n ft) (hperm : ft.expiries.Perm (es ++ rest)) :
    (es.foldl (fun ft e => ft.rekey e 0 .overflows) ft).expiries.Perm
      (es.map Expiry.force ++ rest) := by
  induction es generalizing rest ft with
  | nil => exact hperm
  | cons e es ih =>
    have he : e ∈ ft.expiries := hperm.symm.subset List.mem_cons_self
    -- the others are what is left of the tree without the event
    have hothers : (ft.expiries.filter fun x => x.ptr != e.ptr).Perm (es ++ rest) :=
      ((perm_cons_filter_ne h.nodup_expiry he).symm.trans hperm).cons_inv
    have hrekey : (ft.rekey e 0 .overflows).expiries.Perm (es ++ e.force :: rest) :=
      ((h.rekey_perm he 0 .overflows).trans (hothers.cons e.force)).trans
        List.perm_middle.symm
    exact (ih (h.rekey he 0 .overflows) hrekey).trans List.perm_middle

theorem foldl_rekey_flows (es : List Expiry) (ft : FlowTrack) :
    (es.foldl (fun ft e => ft.rekey e 0 .overflows) ft).flows = ft.flows := by
  induction es generalizing ft with
  | nil => rfl
  | cons e es ih => exact ih _

@[simp]
theorem FlowTrack.flows_forceExpire (ft : FlowTrack) (callocOk : Bool) (num : UInt32) :
    (ft.forceExpire callocOk num).flows = ft.flows := by
  cases callocOk with
  | false => rfl
  | true => exact foldl_rekey_flows _ ft

/-- With its array, `force_expire` marks the first `num` events, or all events if there are fewer,
and leaves the others alone. -/
theorem TableInv.forceExpire_perm {n : ℕ} {ft : FlowTrack} (h : TableInv n ft) (num : UInt32) :
    (ft.forceExpire true num).expiries.Perm
      ((ft.expiries.take num.toNat).map Expiry.force ++ ft.expiries.drop num.toNat) :=
  h.foldl_rekey_perm _ (List.Perm.of_eq (List.take_append_drop _ _).symm)

/-- What a call of `force_expire` is to do: the walk of the tree is strictly increasing after it,
and, with the array, exactly the first events are marked. -/
structure ForceOrdered (ft : FlowTrack) (callocOk : Bool) (num : UInt32) : Prop where
  sorted : Sorted (expiryCompare (ft.forceExpire callocOk num).flows)
    (ft.forceExpire callocOk num).expiries
  marked : callocOk = true → (ft.forceExpire callocOk num).expiries.Perm
    ((ft.expiries.take num.toNat).map Expiry.force ++ ft.expiries.drop num.toNat)

/-- Events with the same key stand in the order of the sequence numbers of their flows. -/
theorem expiryCompare_force_lt {flows : List Flow} {a b : Expiry} :
    expiryCompare flows a.force b.force = .lt ↔
      flowSeqAt flows a.flow < flowSeqAt flows b.flow := by
  have hkey : compareOn Expiry.expiresAt a.force b.force = .eq := rfl
  rw [expiryCompare_eq_compareLex, compareLex, hkey, Ordering.eq_then]
  exact Std.compare_eq_lt

/-- **Forced expiry.** `force_expire` leaves the expiry tree ordered exactly when its array can be
allocated, or when the walk of the tree meets the flows in the order of their creation. -/
theorem forceExpire_ordered_iff {n : ℕ} {ft : FlowTrack} (h : TableInv n ft) (callocOk : Bool)
    (num : UInt32) :
    ForceOrdered ft callocOk num ↔ callocOk = true ∨
      (ft.expiries.map fun e => flowSeqAt ft.flows e.flow).Pairwise (· < ·) := by
  cases callocOk with
  | true =>
    refine ⟨fun _ => .inl rfl, fun _ => ⟨?_, fun _ => h.forceExpire_perm num⟩⟩
    exact (h.forceExpire num).1.sorted_expiries
  | false =>
    have hwalk : Sorted (expiryCompare ft.flows) (ft.expiries.map Expiry.force) ↔
        (ft.expiries.map fun e => flowSeqAt ft.flows e.flow).Pairwise (· < ·) := by
      simp only [Sorted, List.pairwise_map, expiryCompare_force_lt]
    constructor
    · exact fun hordered => .inr (hwalk.mp hordered.sorted)
    · rintro (hcalloc | hseq)
      · cases hcalloc
      · refine ⟨hwalk.mpr hseq, fun hcalloc => ?_⟩
        cases hcalloc

/-- A message about a UDP packet between the ports and addresses of `sampleCall`. -/
def sampleUdpCall : EmulatorCall where
  pkt := CText.ascii "10.0.0.1#1.2.3.4#5.6.7.8#100#1#2#80#443#1#2#UDP####0"
  len := 100
  received := ⟨1000, 0⟩

/-- Two flows, a TCP flow and a younger UDP flow that expires before it. -/
theorem exists_youngerFirst :
    ∃ n s, n < 2 ^ 64 ∧ Reachable n s ∧
      (s.tracker.ft.expiries.map fun e => flowSeqAt s.tracker.ft.flows e.flow) = [2, 1] := by
  obtain ⟨t, hrun, hseqs⟩ : ∃ t, runOk {} [sampleCall, sampleCall, sampleUdpCall, sampleUdpCall] =
      some t ∧ (t.ft.expiries.map fun e => flowSeqAt t.ft.flows e.flow) = [2, 1] := by
    have hcheck : (runOk {} [sampleCall, sampleCall, sampleUdpCall, sampleUdpCall]).any (fun t =>
        (t.ft.expiries.map fun e => flowSeqAt t.ft.flows e.flow) = [2, 1]) = true := by
      decide +kernel
    obtain ⟨t, ht, hp⟩ := (Option.any_eq_true _ _).mp hcheck
    exact ⟨t, ht, by simpa using hp⟩
  obtain ⟨n, hn, hreach⟩ := Reachable.messages (s := {}) (.init ⟨rfl, rfl, rfl, rfl⟩) _ hrun
  exact ⟨n, _, Nat.lt_of_le_of_lt hn (by norm_num), hreach, hseqs⟩

/-- With the array, one event of the two is marked, and the tree stays ordered. -/
theorem forceExpire_ordered_two :
    ∃ n s, Reachable n s ∧ s.tracker.ft.expiries.length = 2 ∧
      ForceOrdered s.tracker.ft true 1 := by
  obtain ⟨n, s, hn, hreach, hseqs⟩ := exists_youngerFirst
  have hlen : s.tracker.ft.expiries.length = 2 := by
    simpa using congrArg List.length hseqs
  exact ⟨n, s, hreach, hlen, (forceExpire_ordered_iff (hreach.tableInv hn) true 1).mpr (.inl rfl)⟩

/-- Without the array, the tree is not ordered any more. -/
theorem forceExpire_unordered :
    ∃ n s, Reachable n s ∧ s.tracker.ft.expiries.length = 2 ∧
      ¬ Sorted (expiryCompare (s.tracker.ft.forceExpire false 1).flows)
        (s.tracker.ft.forceExpire false 1).expiries := by
  obtain ⟨n, s, hn, hreach, hseqs⟩ := exists_youngerFirst
  have hlen : s.tracker.ft.expiries.length = 2 := by
    simpa using congrArg List.length hseqs
  refine ⟨n, s, hreach, hlen, fun hsorted => ?_⟩
  have hwalk : (s.tracker.ft.expiries.map fun e =>
      flowSeqAt s.tracker.ft.flows e.flow).Pairwise (· < ·) := by
    rw [List.pairwise_map]
    exact (List.pairwise_map.mp hsorted).imp expiryCompare_force_lt.mp
  rw [hseqs] at hwalk
  exact absurd hwalk (by decide)

end Softflowd
