import NetworkMonitoring.Foundations.ErrorLoops
import NetworkMonitoring.Nsp.As

/-!
# NSP — dispatching packets to autonomous systems

`PerPacketCallBackFunction` gives each packet a source AS and a destination AS. With dispatching
method 1 the prefixes of the two addresses decide, and with method 3 the flow of the packet and its
reverse. What belongs to no AS yet is added to one that is selected at random.

An arrival is a packet with the values that `rand()` has if the source or the destination is added.
A run is defined as long as the random values select ASs.

## Main results

* `prefix_consistent`: with method 1 a prefix belongs to one AS for ever, and packets to or from it
  are given that AS.
* `flow_consistent_iff`: with method 3 this holds of the flows exactly when the two random values
  select the same AS for a new flow that is its own reverse. Method 1 gives equal prefixes one AS;
  method 3 selects twice.
-/

namespace Nsp

open CText Assignments Function

/-- A packet, and the values of `rand()` for its source and its destination. -/
structure Arrival where
  packet : Packet
  randSource : ℕ
  randDest : ℕ

/-- The flow of a packet. -/
def Packet.flow (p : Packet) : As.Flow where
  sourceIp := p.szIpSource
  destIp := p.szIpDest
  sourcePort := atoi p.szSourcePort
  destPort := atoi p.szDestPort
  protocol := p.szProtocol

/-- The loop over the ASs: the numbers of the first AS in which the source is found, and of the
first one in which the destination is found. It ends as soon as both are known. -/
def searchAses (findSource findDest : As → ℤ × As) :
    List As → Option ℤ → Option ℤ → List As × Option ℤ × Option ℤ
  | [], source, dest => ([], source, dest)
  | a :: rest, source, dest =>
    let (foundSource, a) := findSource a
    let source := if foundSource = 1 ∧ source = none then some a.iAsNumber else source
    let (foundDest, a) := findDest a
    let dest := if foundDest = 1 ∧ dest = none then some a.iAsNumber else dest
    if source.isSome ∧ dest.isSome then (a :: rest, source, dest)
    else
      let (rest, source, dest) := searchAses findSource findDest rest source dest
      (a :: rest, source, dest)

/-- The blocks for `!sourceDispatched` and `!destinationDispatched`: where nothing has been found, a
key is added to an AS that is selected at random. -/
def addUnlessDispatched (ases : List As) (dispatched : Option ℤ) (rand : ℕ) (add : As → As) :
    Option (List As × ℤ) :=
  match dispatched with
  | some number => some (ases, number)
  | none => changeSelectedAs ases rand add

/-- `case 1` of `PerPacketCallBackFunction`, up to `ValidateCouple`. -/
def dispatchByPrefix (ipMask : ℤ) (ases : List As) (x : Arrival) : Option (List As × Packet) := do
  let sourceIpPref ← applyMask x.packet.szIpSource ipMask
  let destIpPref ← applyMask x.packet.szIpDest ipMask
  let (ases, source, dest) :=
    searchAses (As.findPrefix sourceIpPref 0) (As.findPrefix destIpPref 1) ases none none
  let (ases, iAsSourceNumber) ←
    addUnlessDispatched ases source x.randSource (As.addPrefix sourceIpPref 0)
  -- the source and dest will belong to the same AS
  let dest := if source = none ∧ sourceIpPref = destIpPref then some iAsSourceNumber else dest
  let (ases, iAsDestNumber) ← addUnlessDispatched ases dest x.randDest (As.addPrefix destIpPref 1)
  return (ases, { x.packet with
    iAsSourceNumber := iAsSourceNumber
    iAsDestNumber := iAsDestNumber })

/-- `case 3` of `PerPacketCallBackFunction`, up to `ValidateCouple`. -/
def dispatchByFlow (ases : List As) (x : Arrival) : Option (List As × Packet) := do
  let (ases, source, dest) :=
    searchAses (fun a => (a.findFlow x.packet.flow, a))
      (fun a => (a.findFlow x.packet.flow.reverse, a)) ases none none
  let (ases, iAsSourceNumber) ←
    addUnlessDispatched ases source x.randSource (As.addFlow x.packet.flow)
  let (ases, iAsDestNumber) ←
    addUnlessDispatched ases dest x.randDest (As.addFlow x.packet.flow.reverse)
  return (ases, { x.packet with
    iAsSourceNumber := iAsSourceNumber
    iAsDestNumber := iAsDestNumber })

/-- Packets one after another: the ASs and the packets with the numbers of their ASs. -/
def dispatchAll (dispatch : List As → Arrival → Option (List As × Packet)) :
    List As → List Arrival → Option (List As × List Packet)
  | ases, [] => some (ases, [])
  | ases, x :: xs => do
    let (ases, p) ← dispatch ases x
    let (ases, ps) ← dispatchAll dispatch ases xs
    return (ases, p :: ps)

/-! ## What belongs to the ASs -/

section Holders

variable (has : As → Text → Bool)

/-- The key belongs to the AS with the number. -/
def Holds (ases : List As) (number : ℤ) (key : Text) : Prop :=
  ∃ a ∈ ases, a.iAsNumber = number ∧ has a key = true

/-- The number of the first AS that has the key. -/
def firstHolder (ases : List As) (key : Text) : Option ℤ :=
  (ases.find? (has · key)).map As.iAsNumber

variable {has} {ases ases' : List As} {number : ℤ} {key : Text}

/-- The first holder of a key holds it. -/
theorem holds_of_firstHolder (h : firstHolder has ases key = some number) :
    Holds has ases number key := by
  obtain ⟨a, hfind, rfl⟩ := Option.map_eq_some_iff.mp h
  exact ⟨a, List.mem_of_find?_eq_some hfind, rfl, List.find?_some (p := (has · key)) hfind⟩

/-- There is no first holder exactly when nobody holds the key. -/
theorem firstHolder_eq_none_iff :
    firstHolder has ases key = none ↔ ∀ number, ¬ Holds has ases number key := by
  rw [firstHolder, Option.map_eq_none_iff, List.find?_eq_none]
  constructor
  · rintro h number ⟨a, ha, -, hhas⟩
    exact h a ha hhas
  · intro h a ha hhas
    exact h a.iAsNumber ⟨a, ha, rfl, hhas⟩

/-- The number and the interval of an AS, which never change. -/
def As.profile (a : As) : ℤ × ℤ × ℤ := (a.iAsNumber, a.minInterval, a.maxInterval)

/-- ASs with the same profiles have the same numbers. -/
theorem map_iAsNumber_eq (h : ases.map As.profile = ases'.map As.profile) :
    ases.map As.iAsNumber = ases'.map As.iAsNumber := by
  have hmap := congrArg (List.map Prod.fst) h
  rwa [List.map_map, List.map_map] at hmap

/-- The ASs of the two lists have the same numbers, intervals and keys. -/
def SameHoldings (has : As → Text → Bool) : List As → List As → Prop :=
  List.Forall₂ fun a b => a.profile = b.profile ∧ ∀ key, has a key = has b key

/-- ASs with the same holdings have the same profiles. -/
theorem SameHoldings.map_profile (h : SameHoldings has ases ases') :
    ases.map As.profile = ases'.map As.profile := by
  induction h with
  | nil => rfl
  | cons hab _ ih => rw [List.map_cons, List.map_cons, hab.1, ih]

/-- An AS or one of the others holds the key. -/
theorem holds_cons {a : As} : Holds has (a :: ases) number key ↔
    (a.iAsNumber = number ∧ has a key = true) ∨ Holds has ases number key := by
  simp [Holds]

/-- ASs with the same holdings hold the same keys. -/
theorem SameHoldings.holds_eq (h : SameHoldings has ases ases') :
    Holds has ases' = Holds has ases := by
  funext number key
  refine propext ?_
  induction h with
  | nil => exact Iff.rfl
  | cons hab _ ih =>
    have hnumber : As.iAsNumber _ = As.iAsNumber _ := congrArg Prod.fst hab.1
    rw [holds_cons, holds_cons, hnumber, hab.2, ih]

/-! ## Looking up a key -/

/-- A function that looks for a key in an AS, and keeps what the AS has. -/
structure Finds (has : As → Text → Bool) (key : Text) (find : As → ℤ × As) : Prop where
  found : ∀ a, (find a).1 = 1 ↔ has a key = true
  profile : ∀ a, (find a).2.profile = a.profile
  keeps : ∀ a x, has (find a).2 x = has a x

variable {findSource findDest : As → ℤ × As} {sourceKey destKey : Text}

/-- The number of an AS is found in it, or not. -/
theorem Finds.number_eq {find : As → ℤ × As} (h : Finds has key find) (a : As) (known : Option ℤ)
    {number : ℤ} (hnumber : number = a.iAsNumber) :
    (if (find a).1 = 1 ∧ known = none then some number else known) =
      known.or (if has a key then some a.iAsNumber else none) := by
  cases known with
  | none => by_cases hhas : has a key = true <;> simp [h.found, hhas, hnumber]
  | some n => simp

/-- The search asks the first AS for both ends, and then the others. -/
theorem searchAses_cons (a : As) (rest : List As) (source dest : Option ℤ) :
    searchAses findSource findDest (a :: rest) source dest =
      let c := (findDest (findSource a).2).2
      let source' := if (findSource a).1 = 1 ∧ source = none then some (findSource a).2.iAsNumber
        else source
      let dest' :=
        if (findDest (findSource a).2).1 = 1 ∧ dest = none then some c.iAsNumber else dest
      if source'.isSome ∧ dest'.isSome then (c :: rest, source', dest')
      else (c :: (searchAses findSource findDest rest source' dest').1,
        (searchAses findSource findDest rest source' dest').2) := rfl

/-- The loop keeps what it knows, and finds the first ASs otherwise. -/
theorem searchAses_eq (hs : Finds has sourceKey findSource) (hd : Finds has destKey findDest)
    (ases : List As) (source dest : Option ℤ) :
    ∃ ases', searchAses findSource findDest ases source dest =
        (ases', source.or (firstHolder has ases sourceKey),
          dest.or (firstHolder has ases destKey)) ∧
      SameHoldings has ases ases' := by
  induction ases generalizing source dest with
  | nil => exact ⟨[], by simp [searchAses, firstHolder], .nil⟩
  | cons a rest ih =>
    have hprofile : (findDest (findSource a).2).2.profile = a.profile :=
      (hd.profile _).trans (hs.profile a)
    have hkeeps : ∀ x, has (findDest (findSource a).2).2 x = has a x := fun x =>
      (hd.keeps _ x).trans (hs.keeps a x)
    have hsame : a.profile = (findDest (findSource a).2).2.profile ∧
        ∀ x, has a x = has (findDest (findSource a).2).2 x :=
      ⟨hprofile.symm, fun x => (hkeeps x).symm⟩
    have hfirst : ∀ x, firstHolder has (a :: rest) x =
        (if has a x then some a.iAsNumber else none).or (firstHolder has rest x) := by
      intro x
      by_cases h : has a x = true <;> simp [firstHolder, h]
    have hnumber : (findSource a).2.iAsNumber = a.iAsNumber := congrArg Prod.fst (hs.profile a)
    have hnumber' : (findDest (findSource a).2).2.iAsNumber = (findSource a).2.iAsNumber :=
      congrArg Prod.fst (hd.profile _)
    have hdest := hd.number_eq (findSource a).2 dest hnumber'
    rw [hs.keeps, hnumber] at hdest
    rw [searchAses_cons]
    simp only [hs.number_eq a source hnumber, hdest]
    rw [hfirst, hfirst, ← Option.or_assoc, ← Option.or_assoc]
    generalize source.or (if has a sourceKey then some a.iAsNumber else none) = source'
    generalize dest.or (if has a destKey then some a.iAsNumber else none) = dest'
    split_ifs with hboth
    -- both are known, and the rest is not searched
    · obtain ⟨⟨n, rfl⟩, ⟨n', rfl⟩⟩ :=
        hboth.imp Option.isSome_iff_exists.mp Option.isSome_iff_exists.mp
      exact ⟨_, rfl, .cons hsame (List.forall₂_same.mpr fun _ _ => ⟨rfl, fun _ => rfl⟩)⟩
    · obtain ⟨rest', hrest, hkept⟩ := ih source' dest'
      exact ⟨_ :: rest', by rw [hrest], .cons hsame hkept⟩

/-! ## Adding a key -/

/-- A function that adds a key to an AS. -/
structure Adds (has : As → Text → Bool) (key : Text) (add : As → As) : Prop where
  profile : ∀ a, (add a).profile = a.profile
  has_iff : ∀ a x, has (add a) x = true ↔ has a x = true ∨ x = key

variable {add : As → As} {rand : ℕ}

/-- The AS with the number holds the key afterwards, and nothing else changes. -/
theorem modifyAs_spec (hadd : Adds has key add) (h : modifyAs number add ases = some ases') :
    ases'.map As.profile = ases.map As.profile ∧
      ∀ m x, Holds has ases' m x ↔ Holds has ases m x ∨ m = number ∧ x = key := by
  induction ases generalizing ases' with
  | nil => cases h
  | cons a rest ih =>
    rw [modifyAs] at h
    split_ifs at h with hnumber
    · obtain rfl := Option.some.inj h
      have hkept : (add a).iAsNumber = a.iAsNumber := congrArg Prod.fst (hadd.profile a)
      refine ⟨by rw [List.map_cons, List.map_cons, hadd.profile], fun m x => ?_⟩
      rw [holds_cons, holds_cons, hkept, hadd.has_iff, hnumber, and_or_left, or_right_comm,
        eq_comm (a := m)]
    · obtain ⟨rest', hrest, rfl⟩ := Option.map_eq_some_iff.mp h
      obtain ⟨hprofile, hholds⟩ := ih hrest
      refine ⟨by rw [List.map_cons, List.map_cons, hprofile], fun m x => ?_⟩
      rw [holds_cons, holds_cons, hholds, or_assoc]

/-- The AS that is selected depends on the intervals only. -/
theorem getRandomAsNumber_congr (h : ases.map As.profile = ases'.map As.profile) (rand : ℕ) :
    getRandomAsNumber ases rand = getRandomAsNumber ases' rand := by
  have hprofile : ∀ as : List As, getRandomAsNumber as rand = ((as.map As.profile).find? fun x =>
      x.2.1 ≤ ((rand % 101 : ℕ) : ℤ) && ((rand % 101 : ℕ) : ℤ) ≤ x.2.2).map Prod.fst := by
    intro as
    rw [getRandomAsNumber, List.find?_map, Option.map_map]
    rfl
  rw [hprofile, hprofile, h]

/-- The AS that is drawn holds the key afterwards, and nothing else changes. -/
theorem changeSelectedAs_spec (hadd : Adds has key add)
    (h : changeSelectedAs ases rand add = some (ases', number)) :
    getRandomAsNumber ases rand = some number ∧ ases'.map As.profile = ases.map As.profile ∧
      ∀ m x, Holds has ases' m x ↔ Holds has ases m x ∨ m = number ∧ x = key := by
  obtain ⟨selected, hselected, h⟩ := Option.bind_eq_some_iff.mp h
  split_ifs at h with hneg
  obtain ⟨changed, hchanged, h⟩ := Option.bind_eq_some_iff.mp h
  obtain ⟨rfl, rfl⟩ := Prod.mk.inj (Option.some.inj h)
  refine ⟨?_, modifyAs_spec hadd hchanged⟩
  rw [selectAsRandomlyBasedOnWeights] at hselected
  split_ifs at hselected with hempty
  exact hselected

/-- A key that has been looked up in `ases₀` belongs to an AS there, or it is added to the AS that
the random value selects. -/
theorem gives_of_lookup {ases₀ : List As} (hadd : Adds has key add)
    (hprofile : ases.map As.profile = ases₀.map As.profile)
    (h : addUnlessDispatched ases (firstHolder has ases₀ key) rand add = some (ases', number)) :
    Gives (Holds has ases₀) key number (Holds has ases) (Holds has ases') ∧
      ases'.map As.profile = ases₀.map As.profile ∧
      (firstHolder has ases₀ key = some number ∨
        firstHolder has ases₀ key = none ∧ getRandomAsNumber ases₀ rand = some number) := by
  cases hfirst : firstHolder has ases₀ key with
  | some n =>
    rw [hfirst] at h
    obtain ⟨rfl, rfl⟩ := Prod.mk.inj (Option.some.inj h)
    exact ⟨.inl ⟨holds_of_firstHolder hfirst, rfl⟩, hprofile, .inl rfl⟩
  | none =>
    rw [hfirst] at h
    obtain ⟨hselected, hkept, hholds⟩ := changeSelectedAs_spec hadd h
    exact ⟨.inr ⟨firstHolder_eq_none_iff.mp hfirst, hholds⟩, hkept.trans hprofile,
      .inr ⟨rfl, (getRandomAsNumber_congr hprofile rand).symm.trans hselected⟩⟩

end Holders

/-! ## One packet -/

section Step

variable {ases ases' : List As} {x : Arrival} {p : Packet} {ipMask : ℤ}

/-- `FindPrefix` finds the prefixes that an AS has. -/
theorem findPrefix_finds (pref : Text) (srcdest : ℤ) :
    Finds As.hasPrefix pref (As.findPrefix pref srcdest) where
  found a := by
    rw [As.findPrefix, As.hasPrefix]
    cases a.prefMap pref <;> simp
  profile a := by
    rw [As.findPrefix]
    cases a.prefMap pref with
    | none => rfl
    | some n => by_cases h : srcdest = 0 <;> simp [h, As.profile]
  keeps a y := by
    rw [As.findPrefix]
    cases hpref : a.prefMap pref with
    | none => rfl
    | some n =>
      by_cases h : srcdest = 0
      · by_cases hy : y = pref <;> simp [h, As.hasPrefix, hy, hpref]
      · simp [h]

/-- `AddPrefix` adds a prefix to those that an AS has. -/
theorem addPrefix_adds (pref : Text) (srcdest : ℤ) :
    Adds As.hasPrefix pref (As.addPrefix pref srcdest) where
  profile _ := rfl
  has_iff a y := by
    by_cases hy : y = pref <;> simp [As.addPrefix, As.hasPrefix, hy]

/-- `FindFlow` finds the flows that an AS has. -/
theorem findFlow_finds (f : As.Flow) :
    Finds As.hasFlow f.getUniqueDescription fun a => (a.findFlow f, a) where
  found a := by
    simp only [As.findFlow, As.hasFlow]
    cases a.flowsMap f.getUniqueDescription <;> simp
  profile _ := rfl
  keeps _ _ := rfl

/-- `AddFlow` adds a flow to those that an AS has. -/
theorem addFlow_adds (f : As.Flow) : Adds As.hasFlow f.getUniqueDescription (As.addFlow f) where
  profile _ := rfl
  has_iff a y := by
    by_cases hy : y = f.getUniqueDescription <;> simp [As.addFlow, As.hasFlow, hy]

/-- Method 1: the prefixes belong to the ASs that the packet is given, and equal prefixes to one
AS. -/
theorem dispatchByPrefix_spec (h : dispatchByPrefix ipMask ases x = some (ases', p)) :
    ∃ s d, applyMask x.packet.szIpSource ipMask = some s ∧
      applyMask x.packet.szIpDest ipMask = some d ∧
      p = { x.packet with iAsSourceNumber := p.iAsSourceNumber, iAsDestNumber := p.iAsDestNumber } ∧
      ases'.map As.profile = ases.map As.profile ∧
      Assigns (Holds As.hasPrefix ases) s d p.iAsSourceNumber p.iAsDestNumber
        (Holds As.hasPrefix ases') ∧ (s = d → p.iAsSourceNumber = p.iAsDestNumber) := by
  obtain ⟨s, hs, h⟩ := Option.bind_eq_some_iff.mp h
  obtain ⟨d, hd, h⟩ := Option.bind_eq_some_iff.mp h
  obtain ⟨ases₀, hsearch, hsame⟩ :=
    searchAses_eq (findPrefix_finds s 0) (findPrefix_finds d 1) ases none none
  rw [Option.none_or, Option.none_or] at hsearch
  rw [hsearch] at h
  obtain ⟨⟨ases₁, source⟩, hsource, h⟩ := Option.bind_eq_some_iff.mp h
  obtain ⟨⟨ases₂, dest⟩, hdest, h⟩ := Option.bind_eq_some_iff.mp h
  obtain ⟨rfl, rfl⟩ := Prod.mk.inj (Option.some.inj h)
  refine ⟨s, d, hs, hd, rfl, ?_⟩
  obtain ⟨hgives, hprofile, hcases⟩ :=
    gives_of_lookup (addPrefix_adds s 0) hsame.map_profile.symm hsource
  rw [hsame.holds_eq] at hgives
  split_ifs at hdest with hself
  -- the destination has the new prefix of the source
  · obtain ⟨rfl, rfl⟩ := Prod.mk.inj (Option.some.inj hdest)
    obtain rfl := hself.2
    exact ⟨hprofile, .of_gives_self hgives, fun _ => rfl⟩
  · obtain ⟨hgives', hprofile', hcases'⟩ := gives_of_lookup (addPrefix_adds d 1) hprofile hdest
    refine ⟨hprofile', .of_gives hgives hgives', ?_⟩
    rintro rfl
    have hfound : firstHolder As.hasPrefix ases s ≠ none := fun hnone => hself ⟨hnone, rfl⟩
    have hsfound := hcases.resolve_right fun hnone => hfound hnone.1
    have hdfound := hcases'.resolve_right fun hnone => hfound hnone.1
    exact Option.some.inj (hsfound.symm.trans hdfound)

/-- The random values of an arrival select the same AS, if its flow is new and its own reverse. -/
def SelectsOnce (ases : List As) (x : Arrival) : Prop :=
  x.packet.szIpSource = x.packet.szIpDest → atoi x.packet.szSourcePort = atoi x.packet.szDestPort →
    (∀ a ∈ ases, a.hasFlow x.packet.flow.getUniqueDescription = false) →
    getRandomAsNumber ases x.randSource = getRandomAsNumber ases x.randDest

/-- Method 3: the flow and its reverse belong to the ASs that the packet is given, and a flow that
is its own reverse to one AS only if the random values select one. -/
theorem dispatchByFlow_spec (h : dispatchByFlow ases x = some (ases', p)) :
    p = { x.packet with iAsSourceNumber := p.iAsSourceNumber, iAsDestNumber := p.iAsDestNumber } ∧
      ases'.map As.profile = ases.map As.profile ∧
      Assigns (Holds As.hasFlow ases) x.packet.flow.getUniqueDescription
        x.packet.flow.reverse.getUniqueDescription p.iAsSourceNumber p.iAsDestNumber
        (Holds As.hasFlow ases') ∧
      ((x.packet.flow = x.packet.flow.reverse → p.iAsSourceNumber = p.iAsDestNumber) ↔
        SelectsOnce ases x) := by
  obtain ⟨ases₀, hsearch, hsame⟩ :=
    searchAses_eq (findFlow_finds x.packet.flow) (findFlow_finds x.packet.flow.reverse) ases
      none none
  rw [Option.none_or, Option.none_or] at hsearch
  rw [dispatchByFlow, hsearch] at h
  obtain ⟨⟨ases₁, source⟩, hsource, h⟩ := Option.bind_eq_some_iff.mp h
  obtain ⟨⟨ases₂, dest⟩, hdest, h⟩ := Option.bind_eq_some_iff.mp h
  obtain ⟨rfl, rfl⟩ := Prod.mk.inj (Option.some.inj h)
  -- the flow gets its AS first, and its reverse in the lists that this has left
  obtain ⟨hgives, hprofile, hcases⟩ :=
    gives_of_lookup (addFlow_adds x.packet.flow) hsame.map_profile.symm hsource
  rw [hsame.holds_eq] at hgives
  obtain ⟨hgives', hprofile', hcases'⟩ :=
    gives_of_lookup (addFlow_adds x.packet.flow.reverse) hprofile hdest
  refine ⟨rfl, hprofile', .of_gives hgives hgives', ?_⟩
  have hnew : (∀ a ∈ ases, a.hasFlow x.packet.flow.getUniqueDescription = false) ↔
      firstHolder As.hasFlow ases x.packet.flow.getUniqueDescription = none := by
    rw [firstHolder, Option.map_eq_none_iff, List.find?_eq_none]
    exact forall₂_congr fun a _ => (Bool.not_eq_true _).symm.to_iff
  rw [SelectsOnce, hnew, As.Flow.reverse_eq_self_iff, and_imp]
  change (x.packet.szIpSource = x.packet.szIpDest →
    atoi x.packet.szSourcePort = atoi x.packet.szDestPort → source = dest) ↔ _
  -- a flow that is its own reverse is looked up twice
  refine forall₂_congr fun hip hport => ?_
  have hself : x.packet.flow.reverse = x.packet.flow :=
    (As.Flow.reverse_eq_self_iff.mpr ⟨hip, hport⟩).symm
  rw [hself] at hcases'
  -- known, it has one AS; new, each lookup is a random choice of its own
  cases hfirst : firstHolder As.hasFlow ases x.packet.flow.getUniqueDescription with
  | some n =>
    rw [hfirst] at hcases hcases'
    have hsource : some n = some source :=
      hcases.resolve_right fun hnone => Option.some_ne_none n hnone.1
    have hdest : some n = some dest :=
      hcases'.resolve_right fun hnone => Option.some_ne_none n hnone.1
    exact iff_of_true (Option.some.inj (hsource.symm.trans hdest))
      fun hnone => absurd hnone (Option.some_ne_none n)
  | none =>
    rw [hfirst] at hcases hcases'
    have hsource := (hcases.resolve_left (Option.some_ne_none source).symm).2
    have hdest := (hcases'.resolve_left (Option.some_ne_none dest).symm).2
    rw [hsource, hdest, Option.some_inj]
    exact ⟨fun heq _ => heq, fun heq => heq rfl⟩

end Step

/-! ## Runs -/

section Runs

variable {has : As → Text → Bool} {dispatch : List As → Arrival → Option (List As × Packet)}
  {ases ases' : List As} {x : Arrival} {xs pre post : List Arrival} {p : Packet}
  {sent : List Packet} {ipMask : ℤ}

/-- The first packet is dispatched, and then the others. -/
theorem dispatchAll_cons_eq_some : dispatchAll dispatch ases (x :: xs) = some (ases', sent) ↔
    ∃ ases₁ p ps, dispatch ases x = some (ases₁, p) ∧
      dispatchAll dispatch ases₁ xs = some (ases', ps) ∧ sent = p :: ps := by
  constructor
  · intro h
    obtain ⟨⟨ases₁, p⟩, hstep, h⟩ := Option.bind_eq_some_iff.mp h
    obtain ⟨⟨ases₂, ps⟩, hrest, h⟩ := Option.bind_eq_some_iff.mp h
    obtain ⟨rfl, rfl⟩ := Prod.mk.inj (Option.some.inj h)
    exact ⟨ases₁, p, ps, hstep, hrest, rfl⟩
  · rintro ⟨ases₁, p, ps, hstep, hrest, rfl⟩
    rw [dispatchAll, hstep, Option.bind_eq_bind, Option.bind_some]
    simp only [hrest]
    rfl

/-- A run goes on where a part of it ends. -/
theorem dispatchAll_append (h : dispatchAll dispatch ases (pre ++ post) = some (ases', sent)) :
    ∃ ases₁ sent₁ sent₂, dispatchAll dispatch ases pre = some (ases₁, sent₁) ∧
      dispatchAll dispatch ases₁ post = some (ases', sent₂) ∧ sent = sent₁ ++ sent₂ := by
  induction pre generalizing ases sent with
  | nil => exact ⟨ases, [], sent, rfl, h, rfl⟩
  | cons x pre ih =>
    obtain ⟨ases₁, p, ps, hstep, hrest, rfl⟩ := dispatchAll_cons_eq_some.mp h
    obtain ⟨ases₂, sent₁, sent₂, hpre, hpost, rfl⟩ := ih hrest
    exact ⟨ases₂, p :: sent₁, sent₂,
      dispatchAll_cons_eq_some.mpr ⟨ases₁, p, sent₁, hstep, hpre, rfl⟩, hpost, rfl⟩

/-- A run gives the keys of each packet to the ASs with the numbers the packet gets. -/
theorem run_of_dispatchAll (keys : Packet → Text × Text)
    (hstep : ∀ {ases x ases' p}, dispatch ases x = some (ases', p) →
      ases'.map As.profile = ases.map As.profile ∧
        Assigns (Holds has ases) (keys p).1 (keys p).2 p.iAsSourceNumber p.iAsDestNumber
          (Holds has ases'))
    (h : dispatchAll dispatch ases xs = some (ases', sent)) :
    ases'.map As.profile = ases.map As.profile ∧
      Run (Holds has ases) (sent.map fun p => (keys p, p.iAsSourceNumber, p.iAsDestNumber))
        (Holds has ases') := by
  induction xs generalizing ases sent with
  | nil =>
    obtain ⟨rfl, rfl⟩ := Prod.mk.inj (Option.some.inj h)
    exact ⟨rfl, .nil _⟩
  | cons x xs ih =>
    obtain ⟨ases₁, p, ps, hfirst, hrest, rfl⟩ := dispatchAll_cons_eq_some.mp h
    obtain ⟨hprofile, hassigns⟩ := hstep hfirst
    obtain ⟨hprofile', hrun⟩ := ih hrest
    exact ⟨hprofile'.trans hprofile, .cons hassigns hrun⟩

/-- The ASs at the start: they have different numbers, and nothing belongs to them. -/
structure Fresh (has : As → Text → Bool) (ases : List As) : Prop where
  numbers : (ases.map As.iAsNumber).Nodup
  empty : ∀ a ∈ ases, ∀ key, has a key = false

/-- Before the first packet no key has two holders. -/
theorem Fresh.singleValued (h : Fresh has ases) : SingleValued (Holds has ases) := by
  rintro key n n' ⟨a, ha, -, hhas⟩ -
  rw [h.empty a ha key] at hhas
  cases hhas

/-- The two ASs have no key in common. -/
def Excludes (has : As → Text → Bool) (a b : As) : Prop :=
  ∀ key, ¬ (has a key = true ∧ has b key = true)

instance : Std.Symm (Excludes has) := ⟨fun _ _ h key hboth => h key hboth.symm⟩

/-- No key belongs to two of the ASs. -/
def Disjoint (has : As → Text → Bool) (ases : List As) : Prop := ases.Pairwise (Excludes has)

/-- No key has two holders exactly when no two ASs share one. -/
theorem singleValued_iff_disjoint (h : (ases.map As.iAsNumber).Nodup) :
    SingleValued (Holds has ases) ↔ Disjoint has ases := by
  constructor
  · intro hsv
    have hne : ases.Pairwise fun a b => a.iAsNumber ≠ b.iAsNumber := List.pairwise_map.mp h
    refine hne.imp_of_mem fun {a b} ha hb hab key ⟨hhas, hhas'⟩ => hab ?_
    exact hsv key _ _ ⟨a, ha, rfl, hhas⟩ ⟨b, hb, rfl, hhas'⟩
  · rintro hdisjoint key _ _ ⟨a, ha, rfl, hhas⟩ ⟨b, hb, rfl, hhas'⟩
    by_contra hne
    have hab : a ≠ b := fun heq => hne (heq ▸ rfl)
    exact List.Pairwise.forall hdisjoint ha hb hab key ⟨hhas, hhas'⟩

/-- The AS that a key belongs to is the only one. -/
theorem exists_holder (h : (ases.map As.iAsNumber).Nodup) (hsv : SingleValued (Holds has ases))
    {number : ℤ} {key : Text} (hholds : Holds has ases number key) :
    ∃ a ∈ ases, a.iAsNumber = number ∧ ∀ b ∈ ases, has b key = true ↔ b = a := by
  obtain ⟨a, ha, rfl, hhas⟩ := hholds
  refine ⟨a, ha, rfl, fun b hb => ⟨fun hhas' => ?_, fun heq => heq ▸ hhas⟩⟩
  have hnumber := hsv key _ _ ⟨b, hb, rfl, hhas'⟩ ⟨a, ha, rfl, hhas⟩
  exact List.inj_on_of_nodup_map h hb ha hnumber

/-- What holds of every packet that is dispatched holds of all of them. -/
theorem forall_of_dispatchAll {Q : Packet → Prop}
    (hstep : ∀ {ases x ases' p}, dispatch ases x = some (ases', p) → Q p)
    (h : dispatchAll dispatch ases xs = some (ases', sent)) : ∀ p ∈ sent, Q p := by
  induction xs generalizing ases sent with
  | nil =>
    obtain ⟨rfl, rfl⟩ := Prod.mk.inj (Option.some.inj h)
    simp
  | cons x xs ih =>
    obtain ⟨ases₁, p, ps, hfirst, hrest, rfl⟩ := dispatchAll_cons_eq_some.mp h
    rw [List.forall_mem_cons]
    exact ⟨hstep hfirst, ih hrest⟩

/-- The prefixes of the source and of the destination. -/
def Packet.prefixes (ipMask : ℤ) (p : Packet) : Text × Text :=
  ((applyMask p.szIpSource ipMask).getD [], (applyMask p.szIpDest ipMask).getD [])

/-- A run with method 1 keeps the numbers of the ASs, and gives no prefix to two. -/
theorem run_of_dispatchByPrefix (hfresh : Fresh As.hasPrefix ases)
    (h : dispatchAll (dispatchByPrefix ipMask) ases xs = some (ases', sent)) :
    (ases'.map As.iAsNumber).Nodup ∧ SingleValued (Holds As.hasPrefix ases') ∧
      ∀ p ∈ sent, Holds As.hasPrefix ases' p.iAsSourceNumber (p.prefixes ipMask).1 ∧
        Holds As.hasPrefix ases' p.iAsDestNumber (p.prefixes ipMask).2 := by
  have hprefixes : ∀ {ases x ases' p}, dispatchByPrefix ipMask ases x = some (ases', p) →
      ases'.map As.profile = ases.map As.profile ∧
        Assigns (Holds As.hasPrefix ases) (p.prefixes ipMask).1 (p.prefixes ipMask).2
          p.iAsSourceNumber p.iAsDestNumber (Holds As.hasPrefix ases') ∧
        ((p.prefixes ipMask).1 = (p.prefixes ipMask).2 → p.iAsSourceNumber = p.iAsDestNumber) := by
    intro ases x ases' p hstep
    obtain ⟨s, d, hs, hd, hp, hprofile, hassigns, hself⟩ := dispatchByPrefix_spec hstep
    have hsource : p.szIpSource = x.packet.szIpSource := by rw [hp]
    have hdest : p.szIpDest = x.packet.szIpDest := by rw [hp]
    rw [Packet.prefixes, hsource, hdest, hs, hd]
    exact ⟨hprofile, hassigns, hself⟩
  obtain ⟨hprofile, hrun⟩ := run_of_dispatchAll (Packet.prefixes ipMask)
    (fun hstep => ⟨(hprefixes hstep).1, (hprefixes hstep).2.1⟩) h
  refine ⟨map_iAsNumber_eq hprofile ▸ hfresh.numbers, ?_, fun p hp => ?_⟩
  · refine (hrun.singleValued_iff hfresh.singleValued).mpr fun step hstep => ?_
    obtain ⟨p, hp, rfl⟩ := List.mem_map.mp hstep
    exact forall_of_dispatchAll (fun hstep => (hprefixes hstep).2.2) h p hp
  · exact hrun.owned (List.mem_map_of_mem hp)

/-- The packet comes from the prefix or goes to it, and the AS it is given for it has the number. -/
def Packet.Dispatched (ipMask : ℤ) (p : Packet) (pref : Text) (number : ℤ) : Prop :=
  applyMask p.szIpSource ipMask = some pref ∧ p.iAsSourceNumber = number ∨
    applyMask p.szIpDest ipMask = some pref ∧ p.iAsDestNumber = number

/-- Behind every part of a run with method 1, no prefix belongs to two ASs, and each prefix from
which or to which a packet has come belongs to one, whose number all packets from it or to it
get. -/
theorem prefix_consistent (hfresh : Fresh As.hasPrefix ases)
    (hrun : dispatchAll (dispatchByPrefix ipMask) ases (pre ++ post) = some (ases', sent)) :
    ∃ ases₁ sent₁ sent₂, dispatchAll (dispatchByPrefix ipMask) ases pre = some (ases₁, sent₁) ∧
      sent = sent₁ ++ sent₂ ∧ Disjoint As.hasPrefix ases₁ ∧
      ∀ p ∈ sent₁, ∀ pref n, p.Dispatched ipMask pref n →
        ∃ a ∈ ases₁, (∀ b ∈ ases₁, b.hasPrefix pref = true ↔ b = a) ∧
          ∀ q ∈ sent, ∀ n', q.Dispatched ipMask pref n' → n' = a.iAsNumber := by
  obtain ⟨ases₁, sent₁, sent₂, hpre, -, rfl⟩ := dispatchAll_append hrun
  obtain ⟨hnodup, hsv, hholds⟩ := run_of_dispatchByPrefix hfresh hpre
  obtain ⟨-, hsv', hholds'⟩ := run_of_dispatchByPrefix hfresh hrun
  have hgiven : ∀ {as : List As} {p : Packet} {pref : Text} {n : ℤ}, p.Dispatched ipMask pref n →
      Holds As.hasPrefix as p.iAsSourceNumber (p.prefixes ipMask).1 ∧
        Holds As.hasPrefix as p.iAsDestNumber (p.prefixes ipMask).2 →
      Holds As.hasPrefix as n pref := by
    rintro as p pref n (⟨hpref, rfl⟩ | ⟨hpref, rfl⟩) ⟨hsource, hdest⟩
    · rwa [Packet.prefixes, hpref] at hsource
    · rwa [Packet.prefixes, hpref] at hdest
  refine ⟨ases₁, sent₁, sent₂, hpre, rfl, (singleValued_iff_disjoint hnodup).mp hsv, ?_⟩
  intro p hp pref n hdispatched
  obtain ⟨a, ha, hnumber, hunique⟩ := exists_holder hnodup hsv (hgiven hdispatched (hholds p hp))
  refine ⟨a, ha, hunique, fun q hq n' hdispatched' => ?_⟩
  -- at the end of the run the prefix still belongs to the AS, and to no other
  have hend := hgiven hdispatched (hholds' p (List.mem_append_left sent₂ hp))
  rw [hnumber]
  exact hsv' pref n' n (hgiven hdispatched' (hholds' q hq)) hend

/-- Two ASs, each of which is selected by half of the random values. -/
def twoAses : List As := [⟨1, 0, 49, fun _ => none, fun _ => none, 0⟩,
  ⟨2, 50, 100, fun _ => none, fun _ => none, 0⟩]

/-- A packet with the given ends. -/
def datagram (szIpSource szIpDest szSourcePort szDestPort : String) : Packet where
  szIpSource := ascii szIpSource
  szIpDest := ascii szIpDest
  szSourcePort := ascii szSourcePort
  szDestPort := ascii szDestPort
  szProtocol := ascii "UDP"

/-- The two ASs have no prefixes yet. -/
theorem twoAses_fresh_prefix : Fresh As.hasPrefix twoAses where
  numbers := by decide
  empty := by
    intro a ha key
    rcases List.mem_pair.mp ha with rfl | rfl <;> rfl

/-- Two packets between the prefixes 10.0 and 10.1, and one that stays in the first one. -/
theorem twoAses_prefixes : ∃ ases' sent,
    dispatchAll (dispatchByPrefix 2) twoAses
      ([⟨datagram "10.0.0.1" "10.1.0.1" "5" "6", 70, 3⟩] ++
        [⟨datagram "10.1.0.9" "10.0.0.1" "7" "8", 0, 0⟩,
          ⟨datagram "10.0.0.3" "10.0.0.4" "1" "1", 1, 99⟩]) = some (ases', sent) ∧
    ∃ ases₁ sent₁ sent₂,
      dispatchAll (dispatchByPrefix 2) twoAses
        [⟨datagram "10.0.0.1" "10.1.0.1" "5" "6", 70, 3⟩] = some (ases₁, sent₁) ∧
      sent = sent₁ ++ sent₂ ∧ Disjoint As.hasPrefix ases₁ ∧
      ∀ p ∈ sent₁, ∀ pref n, p.Dispatched 2 pref n →
        ∃ a ∈ ases₁, (∀ b ∈ ases₁, b.hasPrefix pref = true ↔ b = a) ∧
          ∀ q ∈ sent, ∀ n', q.Dispatched 2 pref n' → n' = a.iAsNumber := by
  obtain ⟨⟨ases', sent⟩, hrun⟩ := Option.isSome_iff_exists.mp
    (show (dispatchAll (dispatchByPrefix 2) twoAses
      ([⟨datagram "10.0.0.1" "10.1.0.1" "5" "6", 70, 3⟩] ++
        [⟨datagram "10.1.0.9" "10.0.0.1" "7" "8", 0, 0⟩,
          ⟨datagram "10.0.0.3" "10.0.0.4" "1" "1", 1, 99⟩])).isSome by decide +kernel)
  exact ⟨ases', sent, hrun, prefix_consistent twoAses_fresh_prefix hrun⟩

/-! ## Runs with method 3 -/

/-- The packets have been dispatched consistently: those of one flow to the same ASs, those of the
other direction to the same ASs the other way round, and no flow belongs to two ASs. -/
structure FlowConsistent (ases : List As) (sent : List Packet) : Prop where
  same : ∀ p ∈ sent, ∀ q ∈ sent, q.flow = p.flow →
    q.iAsSourceNumber = p.iAsSourceNumber ∧ q.iAsDestNumber = p.iAsDestNumber
  swapped : ∀ p ∈ sent, ∀ q ∈ sent, q.flow = p.flow.reverse →
    q.iAsSourceNumber = p.iAsDestNumber ∧ q.iAsDestNumber = p.iAsSourceNumber
  stored : Disjoint As.hasFlow ases

/-- Each new flow that is its own reverse is given to one AS, twice. -/
def AlwaysSelectsOnce (ases : List As) (xs : List Arrival) : Prop :=
  ∀ pre x post, xs = pre ++ x :: post → ∀ ases₁ sent₁,
    dispatchAll dispatchByFlow ases pre = some (ases₁, sent₁) → SelectsOnce ases₁ x

/-- This shows in the numbers that the packets get. -/
theorem alwaysSelectsOnce_iff (h : dispatchAll dispatchByFlow ases xs = some (ases', sent)) :
    AlwaysSelectsOnce ases xs ↔
      ∀ p ∈ sent, p.flow = p.flow.reverse → p.iAsSourceNumber = p.iAsDestNumber := by
  induction xs generalizing ases sent with
  | nil =>
    obtain ⟨rfl, rfl⟩ := Prod.mk.inj (Option.some.inj h)
    refine iff_of_true (fun pre x post hxs => ?_) (by simp)
    exact absurd hxs (List.cons_ne_nil x post |> List.append_ne_nil_of_right_ne_nil pre).symm
  | cons x xs ih =>
    obtain ⟨ases₁, p, ps, hfirst, hrest, rfl⟩ := dispatchAll_cons_eq_some.mp h
    obtain ⟨hp, -, -, honce⟩ := dispatchByFlow_spec hfirst
    have hflow : p.flow = x.packet.flow := by rw [hp]; rfl
    rw [List.forall_mem_cons, ← ih hrest, hflow, honce]
    constructor
    · -- a packet of the rest has one packet more in front of it
      intro hall
      refine ⟨hall [] x xs rfl ases [] rfl, fun pre y post hxs ases₂ sent₂ hpre => ?_⟩
      exact hall (x :: pre) y post (congrArg (x :: ·) hxs) ases₂ (p :: sent₂)
        (dispatchAll_cons_eq_some.mpr ⟨ases₁, p, sent₂, hfirst, hpre, rfl⟩)
    · rintro ⟨hx, hall⟩ pre y post hxs ases₂ sent₂ hpre
      cases pre with
      | nil =>
        obtain ⟨rfl, -⟩ := List.cons.inj hxs
        obtain ⟨rfl, -⟩ := Prod.mk.inj (Option.some.inj hpre)
        exact hx
      | cons z pre =>
        obtain ⟨rfl, htail⟩ := List.cons.inj hxs
        obtain ⟨ases₃, q, qs, hfirst', hpre', -⟩ := dispatchAll_cons_eq_some.mp hpre
        obtain ⟨rfl, -⟩ := Prod.mk.inj (Option.some.inj (hfirst.symm.trans hfirst'))
        exact hall pre y post htail ases₂ qs hpre'

/-- The packets keep their flows. -/
theorem map_flow_of_dispatchByFlow (h : dispatchAll dispatchByFlow ases xs = some (ases', sent)) :
    sent.map Packet.flow = xs.map fun x => x.packet.flow := by
  induction xs generalizing ases sent with
  | nil =>
    obtain ⟨-, rfl⟩ := Prod.mk.inj (Option.some.inj h)
    rfl
  | cons x xs ih =>
    obtain ⟨ases₁, p, ps, hfirst, hrest, rfl⟩ := dispatchAll_cons_eq_some.mp h
    obtain ⟨hp, -⟩ := dispatchByFlow_spec hfirst
    have hflow : p.flow = x.packet.flow := by rw [hp]; rfl
    rw [List.map_cons, List.map_cons, ih hrest, hflow]

/-- The descriptions of the flow of a packet and of its reverse. -/
def Packet.descriptions (p : Packet) : Text × Text :=
  (p.flow.getUniqueDescription, p.flow.reverse.getUniqueDescription)

/-- Method 3 is consistent exactly when each new flow that is its own reverse is given to one AS. -/
theorem flow_consistent_iff (hfresh : Fresh As.hasFlow ases)
    (hspaceless : ∀ x ∈ xs, x.packet.flow.Spaceless)
    (hrun : dispatchAll dispatchByFlow ases xs = some (ases', sent)) :
    FlowConsistent ases' sent ↔ AlwaysSelectsOnce ases xs := by
  obtain ⟨hprofile, hsteps⟩ := run_of_dispatchAll Packet.descriptions (fun {ases x ases' p} hstep => by
    obtain ⟨hp, hprofile, hassigns, -⟩ := dispatchByFlow_spec hstep
    have hflow : p.flow = x.packet.flow := by rw [hp]; rfl
    rw [Packet.descriptions, hflow]
    exact ⟨hprofile, hassigns⟩) hrun
  have hnodup : (ases'.map As.iAsNumber).Nodup := map_iAsNumber_eq hprofile ▸ hfresh.numbers
  -- one AS for each description: this fails at a flow that is its own reverse alone
  have hsv := hsteps.singleValued_iff hfresh.singleValued
  have hspaceless' : ∀ p ∈ sent, p.flow.Spaceless := by
    intro p hp
    have hmem := List.mem_map_of_mem (f := Packet.flow) hp
    rw [map_flow_of_dispatchByFlow hrun] at hmem
    obtain ⟨x, hx, hflow⟩ := List.mem_map.mp hmem
    exact hflow ▸ hspaceless x hx
  rw [alwaysSelectsOnce_iff hrun]
  constructor
  · -- two ASs for such a flow would both hold its description
    intro hconsistent p hp hself
    have hsv' := (singleValued_iff_disjoint hnodup).mpr hconsistent.stored
    refine hsv.mp hsv' _ (List.mem_map_of_mem hp) ?_
    exact congrArg As.Flow.getUniqueDescription hself
  · -- descriptions determine flows, and each packet has the ASs that hold its own
    intro hself
    have hsv' : SingleValued (Holds As.hasFlow ases') := hsv.mpr fun step hstep heq => by
      obtain ⟨p, hp, rfl⟩ := List.mem_map.mp hstep
      refine hself p hp (As.Flow.eq_of_getUniqueDescription (hspaceless' p hp) ?_ heq)
      exact (hspaceless' p hp).symm
    have howned : ∀ p ∈ sent, Holds As.hasFlow ases' p.iAsSourceNumber p.descriptions.1 ∧
        Holds As.hasFlow ases' p.iAsDestNumber p.descriptions.2 := fun p hp =>
      hsteps.owned (List.mem_map_of_mem hp)
    refine ⟨fun p hp q hq hflow => ?_, fun p hp q hq hflow => ?_,
      (singleValued_iff_disjoint hnodup).mp hsv'⟩
    · obtain ⟨hps, hpd⟩ := howned p hp
      obtain ⟨hqs, hqd⟩ := howned q hq
      rw [Packet.descriptions, hflow] at hqs hqd
      exact ⟨hsv' _ _ _ hqs hps, hsv' _ _ _ hqd hpd⟩
    · obtain ⟨hps, hpd⟩ := howned p hp
      obtain ⟨hqs, hqd⟩ := howned q hq
      rw [Packet.descriptions, hflow] at hqs hqd
      exact ⟨hsv' _ _ _ hqs hpd, hsv' _ _ _ hqd hps⟩

/-- The two ASs have no flows yet. -/
theorem twoAses_fresh_flow : Fresh As.hasFlow twoAses where
  numbers := by decide
  empty := by
    intro a ha key
    rcases List.mem_pair.mp ha with rfl | rfl <;> rfl

/-- Two packets of one flow, the random values of the first one select the same AS. -/
theorem twoAses_flows : ∃ ases' sent,
    dispatchAll dispatchByFlow twoAses
      [⟨datagram "127.0.0.1" "127.0.0.1" "53" "53", 70, 71⟩,
        ⟨datagram "127.0.0.1" "127.0.0.1" "53" "53", 0, 99⟩] = some (ases', sent) ∧
    (FlowConsistent ases' sent ↔ AlwaysSelectsOnce twoAses
      [⟨datagram "127.0.0.1" "127.0.0.1" "53" "53", 70, 71⟩,
        ⟨datagram "127.0.0.1" "127.0.0.1" "53" "53", 0, 99⟩]) := by
  obtain ⟨⟨ases', sent⟩, hrun⟩ := Option.isSome_iff_exists.mp
    (show (dispatchAll dispatchByFlow twoAses
      [⟨datagram "127.0.0.1" "127.0.0.1" "53" "53", 70, 71⟩,
        ⟨datagram "127.0.0.1" "127.0.0.1" "53" "53", 0, 99⟩]).isSome by decide +kernel)
  exact ⟨ases', sent, hrun, flow_consistent_iff twoAses_fresh_flow (by decide) hrun⟩

/-- From 127.0.0.1:53 to itself, with different ASs for the two selections: the first packet goes
from the second AS to the first one, and the next packet of the flow stays in the first one. -/
theorem twoAses_split :
    let p := datagram "127.0.0.1" "127.0.0.1" "53" "53"
    let sent := [{ p with iAsSourceNumber := 2, iAsDestNumber := 1 },
      { p with iAsSourceNumber := 1, iAsDestNumber := 1 }]
    ∃ ases', dispatchAll dispatchByFlow twoAses [⟨p, 70, 3⟩, ⟨p, 0, 0⟩] = some (ases', sent) ∧
      ¬ FlowConsistent ases' sent := by
  intro p sent
  obtain ⟨⟨ases', sent'⟩, hrun, hsent⟩ := Option.map_eq_some_iff.mp
    (show (dispatchAll dispatchByFlow twoAses [⟨p, 70, 3⟩, ⟨p, 0, 0⟩]).map Prod.snd = some sent by
      decide +kernel)
  obtain rfl : sent' = sent := hsent
  refine ⟨ases', hrun, fun hconsistent => ?_⟩
  have hsame := (hconsistent.same _ List.mem_cons_self _ (List.mem_cons_of_mem _ List.mem_cons_self)
    rfl).1
  exact absurd hsame (by decide)

/-- The addresses of a captured packet have been printed by `inet_ntoa`. -/
theorem ipv4ToUpLevel_spaceless {m : Bytes.Mem} {caplen : ℕ} {q : Packet} {r : ℤ} {isfrag : Bool}
    (h : ipv4ToUpLevel m caplen p = .ok (some (r, q, isfrag))) : q.flow.Spaceless := by
  have htransport : ∀ {pkt caplen : ℕ} {isfrag : Bool} {protocol : UInt8} {p q : Packet} {r : ℤ},
      transportToUpLevel m pkt caplen isfrag protocol p = .ok (r, q) →
      q.szIpSource = p.szIpSource ∧ q.szIpDest = p.szIpDest := by
    intro pkt caplen isfrag protocol p q r h
    rw [transportToUpLevel] at h
    split_ifs at h <;> cases h <;> exact ⟨rfl, rfl⟩
  have hspace : ∀ a, 32 ∉ InetText.inetNtoa a :=
    InetText.not_mem_inetNtoa (by decide) (by decide)
  rw [ipv4ToUpLevel] at h
  split_ifs at h
  · cases h
  · cases h
  · obtain ⟨⟨r', q'⟩, hq, h⟩ := ErrorLoops.bind_eq_ok.mp h
    obtain ⟨-, rfl, -⟩ : r' = r ∧ q' = q ∧ _ := by simpa using Except.ok.inj h
    obtain ⟨hsource, hdest⟩ := htransport hq
    constructor
    · rw [Packet.flow, hsource]
      split_ifs <;> exact hspace _
    · rw [Packet.flow, hdest]
      split_ifs <;> exact hspace _

end Runs

end Nsp
