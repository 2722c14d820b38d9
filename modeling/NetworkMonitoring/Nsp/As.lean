import NetworkMonitoring.Foundations.Assignments
import NetworkMonitoring.Nsp.Packet

/-!
# NSP — autonomous systems

`class As` with the prefixes and the flows that have been dispatched to it, and what
`SamplingPlatform` does with the list of ASs: it draws one at random, and it finds one by its
number.

A function that ends in an exception it catches itself has no result, nor has one that writes behind
a `char` array; both are `none`.
-/

namespace Nsp

open CText Assignments Function

/-! ## Prefixes of addresses -/

/-- The text before the first dot, and the text behind it. Without a dot `find_first_of` gives -1,
and both are the whole text. -/
def splitAtDot (s : Text) : Text × Text := (cut 46 s).getD (s, s)

/-- `As::GetIpPartNumber`. -/
def getIpPartNumber (ip : Text) (p : ℕ) : Option ℤ :=
  let (first, remaining) := splitAtDot ip
  let part := atoi first
  if p = 0 ∧ part > 0 then some part
  else
    let (part, _) := (fun s : ℤ × Text => let (x, rest) := splitAtDot s.2; (atoi x, rest))^[p]
      (part, remaining)
    if part ≥ 0 then some part else none

/-- `As::ApplyMask`, which prints into `char szTmp[16]`. -/
def applyMask (ip : Text) (mask : ℤ) : Option Text :=
  if mask < 1 ∨ mask > 4 then none
  else do
    let parts ← (List.range mask.toNat).mapM (getIpPartNumber ip)
    let szTmp := joinWith 46 (parts.map decimal)
    if szTmp.length < 16 then return szTmp else none

/-! ## One AS -/

/-- `class As`. The maps are functions. -/
structure As where
  iAsNumber : ℤ
  minInterval : ℤ
  maxInterval : ℤ
  prefMap : Text → Option UInt32 := fun _ => none
  flowsMap : Text → Option UInt32 := fun _ => none
  numberOfPrefix : ℤ := 0

namespace As

/-- `class Flow`. -/
@[ext]
structure Flow where
  sourceIp : Text
  destIp : Text
  sourcePort : ℤ
  destPort : ℤ
  protocol : Text
  deriving DecidableEq, Repr

namespace Flow

/-- `Flow::GetUniqueDescription`. -/
def getUniqueDescription (f : Flow) : Text :=
  f.sourceIp ++ ascii " " ++ f.destIp ++ ascii " " ++ decimal f.sourcePort ++ ascii " " ++
    decimal f.destPort ++ ascii " " ++ f.protocol

/-- The flow of the other direction. -/
def reverse (f : Flow) : Flow where
  sourceIp := f.destIp
  destIp := f.sourceIp
  sourcePort := f.destPort
  destPort := f.sourcePort
  protocol := f.protocol

@[simp]
theorem reverse_reverse (f : Flow) : f.reverse.reverse = f := rfl

/-- A flow is its own reverse when its two ends are the same. -/
theorem reverse_eq_self_iff {f : Flow} :
    f = f.reverse ↔ f.sourceIp = f.destIp ∧ f.sourcePort = f.destPort := by
  constructor
  · intro h
    exact ⟨congrArg sourceIp h, congrArg sourcePort h⟩
  · rintro ⟨hip, hport⟩
    exact Flow.ext hip hip.symm hport hport.symm rfl

/-- There is no space in the addresses. -/
def Spaceless (f : Flow) : Prop := 32 ∉ f.sourceIp ∧ 32 ∉ f.destIp

instance (f : Flow) : Decidable f.Spaceless := inferInstanceAs (Decidable (_ ∧ _))

/-- The description tells flows apart, since there is no space in an address. -/
theorem eq_of_getUniqueDescription {f g : Flow} (hf : f.Spaceless) (hg : g.Spaceless)
    (h : f.getUniqueDescription = g.getUniqueDescription) : f = g := by
  have hdecimal : ∀ n : ℤ, 32 ∉ decimal n := not_mem_decimal (by decide) (by decide)
  have hshape : ∀ f : Flow, f.getUniqueDescription = f.sourceIp ++ 32 :: (f.destIp ++
      32 :: (decimal f.sourcePort ++ 32 :: (decimal f.destPort ++ 32 :: f.protocol))) := by
    intro f
    simp [getUniqueDescription, ascii]
  -- equal texts are cut in the same way
  have hcut : ∀ {x y x' y' : Text}, 32 ∉ x → 32 ∉ x' → x ++ 32 :: y = x' ++ 32 :: y' →
      x = x' ∧ y = y' := by
    intro x y x' y' hx hx' heq
    have hsplit := (cut_append hx y).symm.trans ((congrArg (cut 32) heq).trans (cut_append hx' y'))
    exact Prod.mk.inj (Option.some.inj hsplit)
  rw [hshape f, hshape g] at h
  obtain ⟨hsrc, h⟩ := hcut hf.1 hg.1 h
  obtain ⟨hdst, h⟩ := hcut hf.2 hg.2 h
  obtain ⟨hsport, h⟩ := hcut (hdecimal _) (hdecimal _) h
  obtain ⟨hdport, hprotocol⟩ := hcut (hdecimal _) (hdecimal _) h
  exact Flow.ext hsrc hdst (decimal_injective hsport) (decimal_injective hdport) hprotocol

end Flow

/-- `As::AddPrefix`. -/
def addPrefix (p : Text) (srcdest : ℤ) (a : As) : As :=
  { a with
    prefMap := update a.prefMap p (some (if srcdest = 0 then 1 else 0))
    numberOfPrefix := a.numberOfPrefix + 1 }

/-- `As::FindPrefix`, which counts the packets from the prefix. -/
def findPrefix (pref : Text) (srcdest : ℤ) (a : As) : ℤ × As :=
  match a.prefMap pref with
  | some n =>
    (1, if srcdest = 0 then { a with prefMap := update a.prefMap pref (some (n + 1)) } else a)
  | none => (0, a)

/-- `As::AddFlow`. -/
def addFlow (f : Flow) (a : As) : As :=
  { a with flowsMap := update a.flowsMap f.getUniqueDescription (some 1) }

/-- `As::FindFlow`. -/
def findFlow (f : Flow) (a : As) : ℤ :=
  match a.flowsMap f.getUniqueDescription with
  | some _ => 1
  | none => 0

/-- `As::IsItWithinInterval`. -/
def isItWithinInterval (randomValue : ℤ) (a : As) : Bool :=
  a.minInterval ≤ randomValue && randomValue ≤ a.maxInterval

/-- The prefix belongs to the AS. -/
def hasPrefix (a : As) (pref : Text) : Bool := (a.prefMap pref).isSome

/-- The flow with the description belongs to the AS. -/
def hasFlow (a : As) (description : Text) : Bool := (a.flowsMap description).isSome

end As

/-! ## The list of ASs -/

/-- `SamplingPlatform::GetRandomAsNumber` for the value of `rand()`. -/
def getRandomAsNumber (ases : List As) (rand : ℕ) : Option ℤ :=
  (ases.find? (·.isItWithinInterval (rand % 101 : ℕ))).map As.iAsNumber

/-- `SamplingPlatform::SelectAsRandomlyBasedOnWeights`; `asImportance` has an entry for each AS. -/
def selectAsRandomlyBasedOnWeights (ases : List As) (rand : ℕ) : Option ℤ :=
  if ases.isEmpty then none else getRandomAsNumber ases rand

/-- Change the AS that the loop of `SamplingPlatform::GetAs` finds. -/
def modifyAs (iNumber : ℤ) (change : As → As) : List As → Option (List As)
  | [] => none
  | a :: rest =>
    if a.iAsNumber = iNumber then some (change a :: rest)
    else (modifyAs iNumber change rest).map (a :: ·)

/-- Select an AS with `SelectAsRandomlyBasedOnWeights` and `GetAs`, and change it. -/
def changeSelectedAs (ases : List As) (rand : ℕ) (change : As → As) : Option (List As × ℤ) := do
  let selectedAsNumber ← selectAsRandomlyBasedOnWeights ases rand
  if selectedAsNumber < 0 then none
  else return (← modifyAs selectedAsNumber change ases, selectedAsNumber)

end Nsp
