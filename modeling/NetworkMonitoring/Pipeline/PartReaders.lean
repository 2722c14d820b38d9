import NetworkMonitoring.Foundations.SeparatedFields
import NetworkMonitoring.Sampling.ControlMessages
import NetworkMonitoring.Softflowd.Emulator

/-!
# The readers of message parts

Both programs take a message apart with the same function: `get_emulator_packet_part` of softflowd
for the fifteen parts of an emulator message, `get_control_packet_part` of softflowd and of NSP for
the three of a control message. All of them are `readPart`, at their last part and their separator.

## Main results

* `messageParts_iff`: for which messages and part numbers each of them reads the field that
  `splitFields` says;
* `messageParts_wrong`: a field that is passed over, one that is missed, and a message without a
  separator.
-/

/-- `SamplingManager::get_control_packet_part`. The exception for an error is caught at its end,
where the value to return is missing. -/
def Nsp.getControlPacketPart (completePacket : CText.Text) (partNumber : ℕ) :
    Except Sampling.ControlFault (Option CText.Text) := do
  match ← Sampling.getControlPacketPart completePacket partNumber with
  | none => .error .noReturn
  | some part => return some part

namespace Pipeline

open CText ErrorLoops Sampling Softflowd

/-! ## Emulator messages -/

theorem partLoop_eq_scanPart (i n : ℕ) (rest : Text) :
    Softflowd.partLoop i n rest =
      match scanPart separator maxEmulatorMessageParts i n rest with
      | none => .error .fail
      | some part => .ok part := by
  induction n generalizing i rest with
  | zero =>
    unfold Softflowd.partLoop scanPart
    split
    · rfl
    · cases cut separator rest <;> rfl
  | succ n ih =>
    unfold Softflowd.partLoop scanPart
    split
    · rfl
    · cases cut separator rest with
      | none => rfl
      | some x => exact ih (i + 1) x.2

/-- What softflowd returns for a part that is or is not there. -/
def emulatorPart : Option Text → Except Softflowd.Stop Text
  | none => .error .fail
  | some part => .ok part

theorem emulatorPart_injective : Function.Injective emulatorPart := by
  rintro (_ | x) (_ | y) h <;> cases h <;> rfl

theorem getEmulatorPacketPart_eq_readPart (msg : Text) (k : ℕ) :
    getEmulatorPacketPart msg k =
      match readPart separator maxEmulatorMessageParts msg k with
      | none => .error (.fault .pointer)
      | some part => emulatorPart part := by
  unfold getEmulatorPacketPart readPart
  split
  · split
    · cases cut 35 msg <;> rfl
    · cases msg with
      | nil => rfl
      | cons b rest => exact partLoop_eq_scanPart 0 k rest
  · rfl

/-! ## Control messages -/

/-- `MAX_CONTROL_MESSAGE_PARTS -1`. -/
abbrev lastControlPart : ℕ := maxControlMessageParts - 1

theorem controlLoop_eq_scanPart (i n : ℕ) (rest : Text) :
    Sampling.partLoop i n rest = scanPart separator lastControlPart i n rest := by
  induction n generalizing i rest with
  | zero => rfl
  | succ n ih =>
    unfold Sampling.partLoop scanPart
    simp only [ih]

theorem getControlPacketPart_eq_readPart (msg : Text) (k : ℕ) :
    Sampling.getControlPacketPart msg k =
      match readPart separator lastControlPart msg k with
      | none => .error .pointer
      | some part => .ok part := by
  unfold Sampling.getControlPacketPart readPart
  split
  · split
    · cases cut separator msg <;> rfl
    · cases msg with
      | nil => rfl
      | cons b rest => exact congrArg Except.ok (controlLoop_eq_scanPart 0 k rest)
  · rfl

/-- The reader of NSP has no result where that of softflowd has its error. -/
theorem nspPart_eq_ok_iff {msg : Text} {k : ℕ} {part : Option Text} :
    Nsp.getControlPacketPart msg k = .ok part ↔
      Sampling.getControlPacketPart msg k = .ok part ∧ part.isSome := by
  unfold Nsp.getControlPacketPart
  cases Sampling.getControlPacketPart msg k with
  | error e => exact iff_of_false error_ne_ok fun h => error_ne_ok h.1
  | ok o =>
    cases o with
    | none =>
      refine iff_of_false error_ne_ok ?_
      rintro ⟨h, hsome⟩
      obtain rfl := Except.ok.inj h
      cases hsome
    | some x =>
      refine ⟨fun h => ⟨h, ?_⟩, fun h => h.1⟩
      rw [← Except.ok.inj h]
      rfl

/-- What a server gets from a part is what its reader gets. -/
theorem samplingManagerPart_eq (size : ℕ) (behind buf : Text) (k : ℕ) :
    SamplingManager.part size behind buf k =
      Nsp.getControlPacketPart buf k >>= fun part => arrayText size behind (part.getD []) := by
  unfold SamplingManager.part Nsp.getControlPacketPart
  cases Sampling.getControlPacketPart buf k with
  | error e => rfl
  | ok part => cases part <;> rfl

/-! ## Right parts -/

/-- A reader whose results are told apart is right exactly when the scan is. -/
theorem readPart_result_iff {ε α : Type} {last k : ℕ} {msg : Text}
    {result : Option Text → Except ε α} (hinj : Function.Injective result) {e : ε} (hlast : 0 < last)
    (hne : ∀ part, result part ≠ .error e) :
    (match readPart separator last msg k with
      | none => .error e
      | some part => result part) = result (splitFields separator last msg)[k]? ↔
      ReadsPart separator last msg k := by
  rw [← readPart_eq_iff hlast]
  cases readPart separator last msg k with
  | none => exact iff_of_false (fun h => hne _ h.symm) fun h => nomatch h
  | some part => exact hinj.eq_iff.trans Option.some_inj.symm

theorem getEmulatorPacketPart_iff (msg : Text) (k : ℕ) :
    getEmulatorPacketPart msg k =
        emulatorPart (splitFields separator maxEmulatorMessageParts msg)[k]? ↔
      ReadsPart separator maxEmulatorMessageParts msg k := by
  rw [getEmulatorPacketPart_eq_readPart]
  refine readPart_result_iff emulatorPart_injective (by decide) ?_
  rintro (_ | part) h <;> cases h

theorem getControlPacketPart_iff (msg : Text) (k : ℕ) :
    Sampling.getControlPacketPart msg k = .ok (splitFields separator lastControlPart msg)[k]? ↔
      ReadsPart separator lastControlPart msg k := by
  rw [getControlPacketPart_eq_readPart]
  exact readPart_result_iff (fun _ _ => Except.ok.inj) (by decide) fun _ => ok_ne_error

/-- A message whose parts are all read right is put together again from what is read. -/
theorem exists_emulatorParts {msg : Text}
    (h : ∀ k, ReadsPart separator maxEmulatorMessageParts msg k) :
    ∃ parts, joinWith separator parts = msg ∧
      ∀ k : ℕ, getEmulatorPacketPart msg k = emulatorPart parts[k]? :=
  ⟨splitFields separator maxEmulatorMessageParts msg, joinWith_splitFields _ _,
    fun k => (getEmulatorPacketPart_iff msg k).mpr (h k)⟩

/-- **Message parts.** The readers return the field of that number, the last one with the rest of
the message, or their error when there is none, exactly for the messages that `ReadsPart` describes;
NSP only when the field is there. -/
theorem messageParts_iff (msg : Text) (k : ℕ) :
    (getEmulatorPacketPart msg k =
        emulatorPart (splitFields separator maxEmulatorMessageParts msg)[k]? ↔
      ReadsPart separator maxEmulatorMessageParts msg k) ∧
    (Sampling.getControlPacketPart msg k = .ok (splitFields separator lastControlPart msg)[k]? ↔
      ReadsPart separator lastControlPart msg k) ∧
    (Nsp.getControlPacketPart msg k = .ok (splitFields separator lastControlPart msg)[k]? ↔
      ReadsPart separator lastControlPart msg k ∧ k ≤ msg.count separator ∧
        k ≤ lastControlPart) := by
  refine ⟨getEmulatorPacketPart_iff msg k, getControlPacketPart_iff msg k, ?_⟩
  rw [nspPart_eq_ok_iff, getControlPacketPart_iff, isSome_getElem?, length_splitFields,
    Nat.lt_succ_iff, le_min_iff]

/-- A message that starts with a separator has its parts shifted, the last field of a short one is
an error, and a message without a separator has no first part. -/
theorem messageParts_wrong :
    getEmulatorPacketPart (ascii "#x#y#z") 1 = .ok (ascii "y") ∧
      (splitFields separator maxEmulatorMessageParts (ascii "#x#y#z"))[1]? = some (ascii "x") ∧
    Sampling.getControlPacketPart (ascii "5#6") 1 = .ok none ∧
      (splitFields separator lastControlPart (ascii "5#6"))[1]? = some (ascii "6") ∧
    Sampling.getControlPacketPart (ascii "5") 0 = .error .pointer ∧
      (splitFields separator lastControlPart (ascii "5"))[0]? = some (ascii "5") := by
  refine ⟨?_, ?_, ?_, ?_, ?_, ?_⟩ <;> decide

end Pipeline
