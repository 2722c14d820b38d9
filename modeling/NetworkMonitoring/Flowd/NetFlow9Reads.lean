import NetworkMonitoring.Flowd.PeerTable

/-!
# flowd — the bytes the NetFlow v9 decoder reads

With `Memory.checked` a load that reaches behind the packet, or behind the flowset it is about, is
an `overread`. A template flowset is read in words of four bytes, headers and records; `words` are
the complete ones, and `Acceptable` says that none of them makes the decoder reject a template. Only
then does the decoder come to the bytes behind the last word.

## Main result

* `processNetflowV9_reads_iff`: the decoder reads only the datagram exactly when every flowset it
  comes to has a complete header, and every template flowset is rejected or a multiple of four
  bytes.
-/

namespace Flowd

open Bytes ErrorLoops FueledLoops

/-- The complete words of four bytes, each as the two numbers it consists of. -/
def words : List UInt8 → List (UInt16 × UInt16)
  | a :: b :: c :: d :: rest =>
    (htons (UInt16.ofNat (leNat [a, b])), htons (UInt16.ofNat (leNat [c, d]))) :: words rest
  | _ => []

/-- Read one word of a template flowset, with the records that are left of a template and the size
of those read. -/
def wordOk (limits : PeerLimits) : ℕ × ℕ → UInt16 × UInt16 → Option (ℕ × ℕ)
  -- a template header
  | (0, _), (_, count) => some (count.toNat, 0)
  | (left + 1, totalSize), (type, recLen) =>
    if totalSize + recLen.toNat > limits.maxTemplateLen then none
    else if !nf9CheckRecLen type.toNat recLen.toNat then none
    else some (left, totalSize + recLen.toNat)

/-- No template is rejected in the words. -/
def Acceptable (limits : PeerLimits) (left totalSize : ℕ) (ws : List (UInt16 × UInt16)) : Prop :=
  (ws.foldlM (wordOk limits) (left, totalSize)).isSome

instance (limits : PeerLimits) (left totalSize : ℕ) (ws : List (UInt16 × UInt16)) :
    Decidable (Acceptable limits left totalSize ws) :=
  inferInstanceAs (Decidable (_ = true))

section Words

variable {pkt : List UInt8} {offset : ℕ}

/-- Without a word there are less than four bytes left. -/
theorem lt_of_words_eq_nil (h : words (pkt.drop offset) = []) : pkt.length < offset + 4 := by
  by_contra hlong
  have hlength : 4 ≤ (pkt.drop offset).length := by
    rw [List.length_drop]
    omega
  obtain ⟨a, b, c, d, rest, hrest⟩ : ∃ a b c d rest, pkt.drop offset = a :: b :: c :: d :: rest := by
    match hdrop : pkt.drop offset with
    | [] | [_] | [_, _] | [_, _, _] => simp [hdrop] at hlength
    | a :: b :: c :: d :: rest => exact ⟨a, b, c, d, rest, rfl⟩
  rw [hrest, words] at h
  cases h

/-- The first word consists of the next two loads, and the others follow it. -/
theorem words_eq_cons {w : UInt16 × UInt16} {ws : List (UInt16 × UInt16)}
    (h : words (pkt.drop offset) = w :: ws) :
    offset + 4 ≤ pkt.length ∧ fetchNtohs pkt offset = .ok w.1 ∧
      fetchNtohs pkt (offset + 2) = .ok w.2 ∧ words (pkt.drop (offset + 4)) = ws := by
  obtain ⟨a, b, c, d, rest, hrest⟩ : ∃ a b c d rest, pkt.drop offset = a :: b :: c :: d :: rest := by
    match hdrop : pkt.drop offset with
    | [] | [_] | [_, _] | [_, _, _] => simp [hdrop, words] at h
    | a :: b :: c :: d :: rest => exact ⟨a, b, c, d, rest, rfl⟩
  have hlength : offset + 4 ≤ pkt.length := by
    have := congrArg List.length hrest
    simp only [List.length_drop, List.length_cons] at this
    omega
  rw [hrest, words] at h
  obtain ⟨rfl, rfl⟩ := List.cons.inj h
  refine ⟨hlength, ?_, ?_, ?_⟩
  · rw [fetchNtohs, fetch, if_pos (by omega), hrest]
    rfl
  · rw [fetchNtohs, fetch, if_pos (by omega), ← List.drop_drop, hrest]
    rfl
  · rw [← List.drop_drop, hrest]
    rfl

end Words

/-! ## Template flowsets -/

section Template

variable {limits : PeerLimits} {sourceId : UInt32} {pkt : List UInt8}

/-- What the loop over the templates does when the records of a template have been read. -/
def templateRest (limits : PeerLimits) (sourceId : UInt32) (pkt : List UInt8) (fuel : ℕ)
    (templateId : UInt16) (peer : PeerState) :
    Option (List PeerNf9Record × ℕ × ℕ) → Except Fault FlowsetResult
  | none => return { peer := peer.invalid, proceed := false }
  | some (recs, totalSize, offset) => do
    let peer ← peer.register limits sourceId templateId recs totalSize
    templateLoop limits sourceId pkt pkt.length fuel offset peer

/-- One template of the loop. -/
theorem templateLoop_succ (fuel : ℕ) {offset : ℕ} (h : offset < pkt.length) (peer : PeerState) :
    templateLoop limits sourceId pkt pkt.length (fuel + 1) offset peer = (do
      let templateId ← fetchNtohs pkt offset
      let count ← fetchNtohs pkt (offset + 2)
      templateRecords limits pkt pkt.length count.toNat (offset + 4) [] 0 >>=
        templateRest limits sourceId pkt fuel templateId peer) := by
  rw [templateLoop, if_neg (Nat.not_le.mpr h)]
  refine bind_congr fun templateId => bind_congr fun count => bind_congr fun r => ?_
  cases r with
  | none => rfl
  | some x =>
    obtain ⟨recs, totalSize, offset'⟩ := x
    rw [templateRest, PeerState.register, bind_assoc]
    rfl

/-- A template that has been read is registered, and the loop goes on. -/
theorem templateRest_some (hroom : limits.Room) (sourceId : UInt32) (pkt : List UInt8)
    {peer : PeerState} (h : peer.Counted) (fuel : ℕ)
    (templateId : UInt16) (recs : List PeerNf9Record) (totalSize offset : ℕ) :
    ∃ peer', peer'.Counted ∧
      templateRest limits sourceId pkt fuel templateId peer (some (recs, totalSize, offset)) =
        templateLoop limits sourceId pkt pkt.length fuel offset peer' := by
  obtain ⟨peer', hregister, hcounted⟩ := h.register hroom sourceId templateId recs totalSize
  exact ⟨peer', hcounted, by rw [templateRest, hregister, ok_bind]⟩

/-- The loop over the templates fails at its next word, or behind it. -/
theorem templateLoop_overread_iff {ws : List (UInt16 × UInt16)} {offset totalSize fuel : ℕ}
    {peer : PeerState} (hoffset : offset ≤ pkt.length) (hws : words (pkt.drop offset) = ws)
    (hfuel : ws.length < fuel)
    (hrest : ∀ w ws', ws = w :: ws' → ∀ fuel templateId, ws'.length < fuel →
      (templateRecords limits pkt pkt.length w.2.toNat (offset + 4) [] 0 >>=
          templateRest limits sourceId pkt fuel templateId peer = .error .overread ↔
        ¬ 4 ∣ pkt.length - (offset + 4) ∧ Acceptable limits w.2.toNat 0 ws')) :
    templateLoop limits sourceId pkt pkt.length fuel offset peer = .error .overread ↔
      ¬ 4 ∣ pkt.length - offset ∧ Acceptable limits 0 totalSize ws := by
  obtain ⟨fuel, rfl⟩ : ∃ n, fuel = n + 1 := Nat.exists_eq_succ_of_ne_zero (by omega)
  cases ws with
  | nil =>
    -- the last bytes are no complete word, so the next load fails unless there are none
    have hshort : pkt.length < offset + 4 := lt_of_words_eq_nil hws
    have hdvd : ¬ 4 ∣ pkt.length - offset ↔ offset < pkt.length := by omega
    have hnil : Acceptable limits 0 totalSize [] := rfl
    rw [hdvd, and_iff_left hnil]
    by_cases hlt : offset < pkt.length
    · rw [templateLoop_succ fuel hlt, fetchNtohs_pair_eq_error hshort]
      exact iff_of_true rfl hlt
    · rw [templateLoop, if_pos (Nat.le_of_not_lt hlt)]
      exact iff_of_false ok_ne_error hlt
  | cons w ws =>
    obtain ⟨hlen, htemplateId, hcount, -⟩ := words_eq_cons hws
    have hdvd : 4 ∣ pkt.length - offset ↔ 4 ∣ pkt.length - (offset + 4) := by omega
    rw [hdvd, templateLoop_succ fuel (by omega), htemplateId, ok_bind, hcount, ok_bind]
    exact hrest w ws rfl fuel w.1 (Nat.lt_of_succ_lt_succ hfuel)

/-- The decoder reads behind a template flowset exactly when there are bytes behind its last
complete word, and no template has been rejected in front of them. -/
theorem templateRecords_overread_iff (hroom : limits.Room) {ws : List (UInt16 × UInt16)}
    {offset count totalSize fuel : ℕ} {recs : List PeerNf9Record} {templateId : UInt16}
    {peer : PeerState} (hoffset : offset ≤ pkt.length) (hws : words (pkt.drop offset) = ws)
    (hfuel : ws.length < fuel) (hcounted : peer.Counted) :
    templateRecords limits pkt pkt.length count offset recs totalSize >>=
        templateRest limits sourceId pkt fuel templateId peer = .error .overread ↔
      ¬ 4 ∣ pkt.length - offset ∧ Acceptable limits count totalSize ws := by
  induction ws generalizing offset count totalSize fuel recs templateId peer with
  | nil =>
    cases count with
    | zero =>
      obtain ⟨peer', -, hloop⟩ := templateRest_some hroom sourceId pkt hcounted fuel templateId
        recs totalSize offset
      rw [templateRecords, ok_bind, hloop]
      exact templateLoop_overread_iff hoffset hws hfuel fun w ws h =>
        absurd h (List.cons_ne_nil w ws).symm
    | succ count =>
      have hshort : pkt.length < offset + 4 := lt_of_words_eq_nil hws
      -- without a complete word in front of the end, the bytes that are left are too few for one
      have hdvd : ¬ 4 ∣ pkt.length - offset ↔ offset < pkt.length := by omega
      have hnil : Acceptable limits (count + 1) totalSize [] := rfl
      rw [hdvd, and_iff_left hnil, templateRecords]
      by_cases hlt : offset < pkt.length
      · rw [if_neg (Nat.not_le.mpr hlt), fetchNtohs_pair_eq_error hshort]
        exact iff_of_true rfl hlt
      · rw [if_pos (Nat.le_of_not_lt hlt)]
        exact iff_of_false ok_ne_error hlt
  | cons w ws ih =>
    obtain ⟨hlen, htype, hrecLen, hnext⟩ := words_eq_cons hws
    cases count with
    | zero =>
      obtain ⟨peer', hcounted', hloop⟩ := templateRest_some hroom sourceId pkt hcounted fuel
        templateId recs totalSize offset
      rw [templateRecords, ok_bind, hloop]
      -- the word is the header of the next template
      refine templateLoop_overread_iff hoffset hws hfuel fun w' ws' heq fuel templateId hless => ?_
      obtain ⟨rfl, rfl⟩ := List.cons.inj heq
      exact ih hlen hnext hless hcounted'
    | succ count =>
      have hdvd : 4 ∣ pkt.length - offset ↔ 4 ∣ pkt.length - (offset + 4) := by omega
      -- the word is a record of this template, which the two checks may reject
      have hreads : templateRecords limits pkt pkt.length (count + 1) offset recs totalSize =
          if totalSize + w.2.toNat > limits.maxTemplateLen then return none
          else if !nf9CheckRecLen w.1.toNat w.2.toNat then return none
          else templateRecords limits pkt pkt.length count (offset + 4)
            (recs ++ [⟨w.1.toNat, w.2.toNat⟩]) (totalSize + w.2.toNat) := by
        rw [templateRecords, if_neg (by omega), htype, ok_bind, hrecLen, ok_bind]
      rw [hdvd, hreads, Acceptable, List.foldlM_cons, wordOk]
      split_ifs
      · exact iff_of_false ok_ne_error fun h => Bool.false_ne_true h.2
      · exact iff_of_false ok_ne_error fun h => Bool.false_ne_true h.2
      · exact ih hlen hnext (Nat.lt_of_succ_lt hfuel) hcounted

theorem length_words_le (bytes : List UInt8) : 4 * (words bytes).length ≤ bytes.length := by
  induction bytes using words.induct with
  | case1 a b c d rest ih =>
    simp only [words, List.length_cons]
    omega
  | case2 bytes h =>
    rw [words.eq_2 bytes h]
    exact Nat.zero_le _

/-- `process_netflow_v9_template` reads behind its flowset exactly when the flowset is not a
multiple of four bytes and no template in it is rejected. -/
theorem processNetflowV9Template_overread_iff (hroom : limits.Room) (sourceId : UInt32)
    {peer : PeerState}
    (hcounted : peer.Counted) (hid : fetchNtohs pkt 0 = .ok 0) :
    processNetflowV9Template limits sourceId pkt pkt.length peer = .error .overread ↔
      4 ≤ pkt.length ∧ ¬ 4 ∣ pkt.length ∧ Acceptable limits 0 0 (words (pkt.drop 4)) := by
  rw [processNetflowV9Template]
  by_cases hshort : pkt.length < 4
  · rw [if_pos hshort]
    exact iff_of_false ok_ne_error fun h => Nat.not_lt.mpr h.1 hshort
  have hlong : 4 ≤ pkt.length := Nat.le_of_not_lt hshort
  have hdvd : 4 ∣ pkt.length ↔ 4 ∣ pkt.length - 4 := by omega
  have hfuel := length_words_le (pkt.drop 4)
  rw [List.length_drop] at hfuel
  rw [if_neg hshort, hid, ok_bind, if_neg (not_not.mpr rfl), and_iff_right hlong, hdvd]
  refine templateLoop_overread_iff hlong rfl (by omega) fun w ws hws fuel templateId hless => ?_
  obtain ⟨hlen, -, -, hnext⟩ := words_eq_cons hws
  exact templateRecords_overread_iff hroom hlen hnext hless hcounted

end Template

/-! ## The whole packet -/

/-- The flowset at an offset can be processed without a load behind it or behind the packet: its
header is complete, and a template flowset is a multiple of four bytes or rejected. -/
def Readable (limits : PeerLimits) (fp : FlowPacket) (offset : ℕ) : Prop :=
  offset + 4 ≤ fp.packet.length ∧ ∀ length, FlowsetAt .checked fp offset 0 length →
    offset + length.toNat ≤ fp.packet.length → 4 ≤ length.toNat →
    4 ∣ length.toNat ∨
      ¬ Acceptable limits 0 0 (words ((Memory.checked.flowset fp offset length.toNat).drop 4))

section Packet

variable {limits : PeerLimits} {fp : FlowPacket} {peer : PeerState}

/-- A flowset is read too far only when it is a template flowset. -/
theorem processFlowset_overread_iff (hroom : limits.Room)
    (hpeer : peer.StoreInv limits) {offset : ℕ} {flowsetId length : UInt16}
    (hat : FlowsetAt .checked fp offset flowsetId length)
    (hfit : offset + length.toNat ≤ fp.packet.length) :
    processFlowset limits fp fp.nf9Header fp.sourceId flowsetId
        (Memory.checked.flowset fp offset length.toNat) length.toNat peer = .error .overread ↔
      flowsetId = 0 ∧ 4 ≤ length.toNat ∧ ¬ 4 ∣ length.toNat ∧
        Acceptable limits 0 0 (words ((Memory.checked.flowset fp offset length.toNat).drop 4)) := by
  rw [processFlowset]
  split_ifs with hzero
  · by_cases hshort : length.toNat < 4
    · rw [processNetflowV9Template, if_pos hshort]
      exact iff_of_false ok_ne_error fun h => Nat.not_lt.mpr h.2.1 hshort
    have hlength : (Memory.checked.flowset fp offset length.toNat).length = length.toNat := by
      rw [Memory.flowset, List.length_take, List.length_drop]
      omega
    have hid : fetchNtohs (Memory.checked.flowset fp offset length.toNat) 0 = .ok 0 := by
      rw [← hzero, ← hat.1, fetchNtohs, fetchNtohs, Memory.fetch_flowset hfit (by omega),
        Nat.add_zero]
    have htemplate := processNetflowV9Template_overread_iff hroom fp.sourceId hpeer.counted
      hid
    rw [hlength] at htemplate
    rw [htemplate, and_iff_right hzero]
  · exact iff_of_false not_false fun h => hzero h.1
  -- decoding data stays inside the flowset, since the templates are accepted
  · refine iff_of_false (fun h => ?_) fun h => hzero h.1
    have hlen : length.toNat ≤ (Memory.checked.flowset fp offset length.toNat).length :=
      Memory.le_length_flowset hfit
    have hends := processNetflowV9Data_ok hpeer.accepted fp fp.nf9Header fp.sourceId hlen
    rw [h] at hends
    exact absurd hends.1 (by decide)

/-- The loop over the flowsets reads too far at a flowset that is not readable. -/
theorem flowsetStep_overread_iff (hroom : limits.Room) {offset : ℕ} {res : FlowsetResult}
    (hpeer : res.peer.StoreInv limits) :
    flowsetStep .checked limits fp fp.nf9Header fp.sourceId (offset, res) = .error .overread ↔
      offset < fp.packet.length ∧ ¬ Readable limits fp offset := by
  rw [flowsetStep_eq_error]
  refine and_congr_right fun hlt => ?_
  constructor
  · rintro (⟨-, hshort⟩ | ⟨flowsetId, length, hat, hfit, hflowset⟩) ⟨hheader, hreadable⟩
    · exact Nat.not_lt.mpr hheader hshort
    · obtain ⟨rfl, hlong, hdvd, hacceptable⟩ :=
        (processFlowset_overread_iff hroom hpeer hat hfit).mp hflowset
      exact (hreadable length hat hfit hlong).elim hdvd fun h => h hacceptable
  · intro hnot
    by_cases hheader : offset + 4 ≤ fp.packet.length
    · right
      by_contra hno
      refine hnot ⟨hheader, fun length hat hfit hlong => ?_⟩
      by_contra hread
      obtain ⟨hdvd, hacceptable⟩ := not_or.mp hread
      exact hno ⟨0, length, hat, hfit, (processFlowset_overread_iff hroom hpeer hat hfit).mpr
        ⟨rfl, hlong, hdvd, not_not.mp hacceptable⟩⟩
    · exact .inl ⟨rfl, Nat.lt_of_not_le hheader⟩

/-- A call keeps the invariant of the store wherever it comes to. -/
theorem Arrives.storeInv {mem : Memory} (hroom : limits.Room) (hpeer : peer.StoreInv limits)
    {offset : ℕ} {res : FlowsetResult} (h : Arrives mem limits fp peer offset res) :
    res.peer.StoreInv limits := by
  refine Arrives.invariant (PeerState.onStore_storeInv limits) ?_ hpeer h
  intro peer₁ recs totalLen peer₂ hreg h₁
  obtain ⟨hacc, templateId, hregister⟩ := hreg.register
  exact h₁.register hroom hacc hregister

/-- **When the v9 collector reads only the datagram.** For every datagram and every peer whose
templates satisfy the invariant of the store, no byte behind the datagram, or behind the flowset
that is processed, is read exactly when every flowset `process_netflow_v9` comes to is readable. -/
theorem processNetflowV9_reads_iff (hroom : limits.Room) (hpeer : peer.StoreInv limits) :
    (∀ fuel, processNetflowV9 .checked limits fuel fp peer ≠ .error .overread) ↔
      ∀ offset res, Arrives .checked limits fp peer offset res → offset < fp.packet.length →
        Readable limits fp offset := by
  constructor
  · intro h offset res harrives hlt
    by_contra hnot
    have hres : res.peer.StoreInv limits := harrives.storeInv hroom hpeer
    obtain ⟨fuel, hfuel⟩ := harrives.fails
      ((flowsetStep_overread_iff hroom hres).mpr ⟨hlt, hnot⟩)
    exact h fuel (hfuel 0)
  · intro h fuel hfails
    rcases processNetflowV9_eq_error hfails with hno | ⟨offset, res, harrives, hstep⟩
    · cases hno
    have hres : res.peer.StoreInv limits := harrives.storeInv hroom hpeer
    obtain ⟨hlt, hnot⟩ := (flowsetStep_overread_iff hroom hres).mp hstep
    exact hnot (h offset res harrives hlt)

end Packet

/-- Every peer of a run satisfies the invariant of the store. -/
theorem Peers.run_storeInv {limits : PeerLimits} (hroom : limits.Room) (allowed : Xaddr → Bool)
    (events : List Event) :
    Ends (fun _ => True) (fun peers => ∀ peer ∈ peers.peerList, peer.StoreInv limits)
      (Peers.run limits allowed events) := by
  apply Peers.run_ends trivial (PeerState.StoreInv.new limits)
  intro pre behind fp post peers peer _ _ _ hpeer
  cases hr : processNetflowV9 (.heap behind) limits fp.packet.length fp peer with
  | error e => trivial
  | ok r =>
    refine processNetflowV9_invariant (PeerState.onStore_storeInv limits) ?_ hpeer hr
    intro peer₁ recs totalLen peer₂ hreg h₁
    obtain ⟨hacc, templateId, hregister⟩ := hreg.register
    exact h₁.register hroom hacc hregister

/-- The limits of `init_peers` leave room. -/
theorem PeerLimits.room_default : PeerLimits.Room {} := ⟨by decide, by decide⟩

/-- The flowset of the datagram with one template is read to its end. -/
theorem processNetflowV9_reads_protocolTemplate :
    ¬ ∃ fuel, processNetflowV9 .checked {} fuel protocolTemplate { origin := exporter } =
      .error .overread := by
  refine not_exists.mpr ((processNetflowV9_reads_iff PeerLimits.room_default
    (.new _ _)).mpr fun offset res harrives _ => ?_)
  have honly : FlowsetAt .checked protocolTemplate 20 0 12 := by
    constructor <;> decide +kernel
  obtain rfl := harrives.eq_of_only honly (by decide)
  refine ⟨by decide, fun length hat _ _ => ?_⟩
  obtain rfl : length = 12 := Except.ok.inj (hat.2.symm.trans honly.2)
  exact .inl (by decide)

/-- One byte behind the header of a datagram is taken for a flowset header of four bytes. -/
theorem processNetflowV9_overread :
    processNetflowV9 .checked {} 21 (v9Datagram [0]) { origin := exporter } = .error .overread :=
  rfl

end Flowd
