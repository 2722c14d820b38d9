import NetworkMonitoring.Foundations.ErrorLoops
import NetworkMonitoring.Softflowd.CheckExpired

/-!
# softflowd — what the expiry scan and the export do to the table

`scanExpired_spec` describes the scan for any invariant of the table that lets it follow the
pointers of the expiry events: `gone` are the flows it takes out, those whose events are due, and
`kept` the ones that found room in the array `expired_flows`. The export that follows leaves the
table alone (`exportExpired_table`).
-/

namespace Softflowd

open ErrorLoops OrderedSet Function

/-! ## The scan -/

/-- What an iteration can do: it takes the flow of an event that is due out of the table, or changes
nothing. -/
theorem scanStep_cases {now : Timeval} {ex : ExpireMode} {reallocOk : Expiry → Bool}
    {st st' : FlowTrack × List Flow} {e : Expiry} (h : scanStep now ex reallocOk st e = .ok st') :
    st' = st ∨ ∃ flow, st.1.flowAt e.flow = some flow ∧
      st' = (st.1.expireFlow flow e ex, if reallocOk e then st.2 ++ [flow.retire] else st.2) := by
  rw [scanStep] at h
  by_cases hdue : e.isDue now ex = true
  · rw [if_pos hdue] at h
    cases hat : st.1.flowAt e.flow with
    | none =>
      rw [hat] at h
      cases h
    | some flow =>
      rw [hat] at h
      exact .inr ⟨flow, rfl, (Except.ok.inj h).symm⟩
  · rw [if_neg hdue] at h
    exact .inl (Except.ok.inj h).symm

/-- It goes wrong at an event whose flow is not in the table. -/
theorem scanStep_eq_error {now : Timeval} {ex : ExpireMode} {reallocOk : Expiry → Bool}
    {st : FlowTrack × List Flow} {e : Expiry} {fault : Fault}
    (h : scanStep now ex reallocOk st e = .error fault) : fault = .pointer := by
  rw [scanStep] at h
  by_cases hdue : e.isDue now ex = true
  · rw [if_pos hdue] at h
    cases hat : st.1.flowAt e.flow with
    | none =>
      rw [hat] at h
      exact (Except.error.inj h).symm
    | some flow =>
      rw [hat] at h
      cases h
  · rw [if_neg hdue] at h
    cases h

/-- The scan from some point on: the events `es` are still to be visited. -/
theorem foldlM_scanStep {P : FlowTrack → Prop} (now : Timeval) (ex : ExpireMode)
    (reallocOk : Expiry → Bool) (hnodup : ∀ ft, P ft → (ft.expiries.map Expiry.ptr).Nodup)
    (hexpire : ∀ ft e, P ft → e ∈ ft.expiries → ∃ f ∈ ft.flows, ft.flowAt e.flow = some f ∧
      P (ft.expireFlow f e ex) ∧ ft.flows.Perm (f :: (ft.expireFlow f e ex).flows))
    (es : List Expiry) :
    ∀ {ft : FlowTrack} (acc : List Flow), P ft → (es.map Expiry.ptr).Nodup →
      (∀ e ∈ es, e ∈ ft.expiries) →
      ∃ ft' gone kept, es.foldlM (scanStep now ex reallocOk) (ft, acc) =
          .ok (ft', acc ++ kept.map Flow.retire) ∧
        P ft' ∧ ft'.nextFlowSeq = ft.nextFlowSeq ∧ ft.flows.Perm (gone ++ ft'.flows) ∧
        kept.Sublist gone ∧ ((∀ e, reallocOk e = true) → kept = gone) ∧
        ft'.expiries = ft.expiries.filter (fun e => !(e.isDue now ex && e ∈ es)) := by
  induction es with
  | nil =>
    intro ft acc h _ _
    exact ⟨ft, [], [], by simp [pure, Except.pure], h, rfl, by simp, .refl _, fun _ => rfl,
      by simp⟩
  | cons e es ih =>
    intro ft acc h hnd hes
    rw [List.map_cons, List.nodup_cons] at hnd
    have he := hes e List.mem_cons_self
    by_cases hdue : e.isDue now ex = true
    · obtain ⟨f, -, hat, h₁, hperm₁⟩ := hexpire ft e h he
      -- an event that is due leaves the list with its flow
      have he₁ : (ft.expireFlow f e ex).expiries =
          ft.expiries.filter (fun x => x.ptr != e.ptr) := rfl
      have hstep : scanStep now ex reallocOk (ft, acc) e = .ok (ft.expireFlow f e ex,
          acc ++ (if reallocOk e then [f] else []).map Flow.retire) := by
        unfold scanStep
        rw [if_pos hdue, hat]
        cases reallocOk e <;> simp
      obtain ⟨ft₂, gone, kept, hfold, h₂, hseq₂, hperm₂, hsub, hkept, he₂⟩ := ih
        (acc ++ (if reallocOk e then [f] else []).map Flow.retire) h₁ hnd.2 fun x hx => by
          have hne : x.ptr ≠ e.ptr := fun heq => hnd.1 (heq ▸ List.mem_map_of_mem hx)
          rw [he₁]
          exact List.mem_filter.mpr ⟨hes x (List.mem_cons_of_mem e hx), by simpa using hne⟩
      refine ⟨ft₂, f :: gone, (if reallocOk e then [f] else []) ++ kept, ?_, h₂, hseq₂, ?_, ?_,
        ?_, ?_⟩
      · rw [List.foldlM_cons, hstep]
        exact hfold.trans (by rw [List.append_assoc, ← List.map_append])
      · exact hperm₁.trans (hperm₂.cons f)
      · split
        · exact hsub.cons_cons f
        · exact hsub.cons f
      · intro hok
        rw [hok e, hkept hok]
        rfl
      · rw [he₂, he₁, List.filter_filter]
        refine List.filter_congr fun x hx => ?_
        -- only the event itself has its pointer
        by_cases hxe : x = e
        · simp [hxe, hdue]
        · have hne : x.ptr ≠ e.ptr := fun heq =>
            hxe (List.inj_on_of_nodup_map (hnodup ft h) hx he heq)
          simp [hxe, hne]
    · have hstep : scanStep now ex reallocOk (ft, acc) e = .ok (ft, acc) := if_neg hdue
      obtain ⟨ft₂, gone, kept, hfold, h₂, hseq₂, hperm₂, hsub, hkept, he₂⟩ := ih acc h hnd.2
        fun x hx => hes x (List.mem_cons_of_mem e hx)
      refine ⟨ft₂, gone, kept, ?_, h₂, hseq₂, hperm₂, hsub, hkept, ?_⟩
      · rw [List.foldlM_cons, hstep]
        exact hfold
      · rw [he₂]
        refine List.filter_congr fun x _ => ?_
        by_cases hxe : x = e
        · simp [hxe, hdue]
        · simp [hxe]

/-- The scan of `check_expired`. -/
theorem scanExpired_spec {P : FlowTrack → Prop} (now : Timeval) (ex : ExpireMode)
    (reallocOk : Expiry → Bool) (hnodup : ∀ ft, P ft → (ft.expiries.map Expiry.ptr).Nodup)
    (hexpire : ∀ ft e, P ft → e ∈ ft.expiries → ∃ f ∈ ft.flows, ft.flowAt e.flow = some f ∧
      P (ft.expireFlow f e ex) ∧ ft.flows.Perm (f :: (ft.expireFlow f e ex).flows))
    {ft : FlowTrack} (h : P ft) :
    ∃ ft' gone kept, scanExpired now ex reallocOk ft = .ok (ft', kept.map Flow.retire) ∧
      P ft' ∧ ft'.nextFlowSeq = ft.nextFlowSeq ∧ ft.flows.Perm (gone ++ ft'.flows) ∧
      kept.Sublist gone ∧ ((∀ e, reallocOk e = true) → kept = gone) ∧
      ft'.expiries = ft.expiries.filter (fun e => !e.isDue now ex) := by
  obtain ⟨ft', gone, kept, hfold, h', hseq, hperm, hsub, hkept, he⟩ :=
    foldlM_scanStep now ex reallocOk hnodup hexpire ft.expiries [] h (hnodup ft h) fun _ he => he
  refine ⟨ft', gone, kept, hfold, h', hseq, hperm, hsub, hkept, ?_⟩
  rw [he]
  exact List.filter_congr fun e he => by simp [he]

/-! ## The export -/

/-- The part of the tracking state the invariant is about. -/
def FlowTrack.table (ft : FlowTrack) : List Flow × List Expiry × UInt32 × UInt64 × ℕ :=
  (ft.flows, ft.expiries, ft.numFlows, ft.nextFlowSeq, ft.nextPtr)

theorem exportDirection_table {func : NetflowSendFunc} {a : InetText.InAddr} {d : Dir}
    {st st' : ExportState} (h : exportDirection func a st d = .ok st') :
    st'.ft.table = st.ft.table := by
  obtain ⟨marked, -, h⟩ := bind_eq_ok.mp h
  obtain ⟨⟨r, exported, ex⟩, -, h⟩ := bind_eq_ok.mp h
  obtain rfl := Except.ok.inj h
  rfl

theorem exportMonitor_table {func : NetflowSendFunc} {ms : Monitors} {m : ℕ}
    {st st' : ExportState} (h : exportMonitor func ms st m = .ok st') :
    st'.ft.table = st.ft.table := by
  unfold exportMonitor at h
  split at h
  · obtain ⟨st₁, h₀, h₁⟩ := bind_eq_ok.mp h
    rw [exportDirection_table h₁, exportDirection_table h₀]
  · cases h

theorem exportAll_table {func : NetflowSendFunc} {st st' : ExportState}
    (h : exportAll func st = .ok st') : st'.ft.table = st.ft.table := by
  obtain ⟨⟨r, exported, ex⟩, -, h⟩ := bind_eq_ok.mp h
  obtain rfl := Except.ok.inj h
  dsimp only
  split <;> rfl

theorem exportExpired_table {c : ExpiryCall} {ms : Monitors} {st st' : ExportState}
    (h : exportExpired c ms st = .ok st') : st'.ft.table = st.ft.table := by
  unfold exportExpired at h
  cases hc : c.target with
  | none =>
    rw [hc] at h
    rw [Except.ok.inj h]
  | some func =>
    rw [hc] at h
    dsimp only at h
    split at h
    · refine foldlM_ok_rel (R := fun st st' => st'.ft.table = st.ft.table) ?_ ?_ ?_ h
      · exact fun _ => rfl
      · exact fun _ _ _ h₁ h₂ => h₂.trans h₁
      · exact fun _ _ _ => exportMonitor_table
    · exact exportAll_table h

theorem foldl_updateStatistics_table (fs : List Flow) (ft : FlowTrack) :
    (fs.foldl updateStatistics ft).table = ft.table := by
  induction fs generalizing ft with
  | nil => rfl
  | cons f fs ih => exact (ih _).trans rfl

/-- What `check_expired` does to the table is what its scan does. -/
theorem checkExpired_table {c : ExpiryCall} {s s' : Daemon} {r : ℤ}
    (h : checkExpired c s = .ok (r, s')) :
    ∃ ft expired, scanExpired c.now c.ex c.reallocOk s.tracker.ft = .ok (ft, expired) ∧
      s'.tracker.ft.table = ft.table := by
  obtain ⟨⟨ft, expired⟩, hscan, h⟩ := bind_eq_ok.mp h
  refine ⟨ft, expired, hscan, ?_⟩
  dsimp only at h
  split at h
  · obtain ⟨-, rfl⟩ := Prod.mk.inj (Except.ok.inj h)
    rfl
  · obtain ⟨st, hexport, h⟩ := bind_eq_ok.mp h
    obtain ⟨-, rfl⟩ := Prod.mk.inj (Except.ok.inj h)
    exact (foldl_updateStatistics_table _ _).trans (exportExpired_table hexport)

end Softflowd
