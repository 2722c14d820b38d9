import Mathlib.Algebra.GroupWithZero.Nat
import Mathlib.Data.Int.Notation
import Mathlib.Data.Nat.Notation
import Mathlib.Logic.Relation
import Mathlib.Tactic.Set

/-!
# NSP — the loader and the sender

`LoadTcpDumpBinaryFile` loads packets while `DataNeeded` holds, and `StartSendingPackets` sends them
while it does not. Both work under `sendingSem`, but look at `DataNeeded` without it. Steps are the
looks, the semaphore operations and the iterations of the inner loops, in any order.

At the end of a trace the loader has just found that data is needed. Then nobody changes the two
counters any more, so the sender waits for ever: it sends neither what is left in the queues, nor
does it find out that loading has ended.

## Main results

* `Reachable.inv`: the two parties never both want to go on;
* `sender_stuck`: in every trace loading can end, and then the sender cannot go on.
-/

namespace Nsp

/-- `TIME_AXIS_SLOT`. -/
def timeAxisSlot : ℤ := 5

/-- `MAX_TL_LOOP_PACKETS`. -/
def maxTlLoopPackets : ℕ := 1000

/-- `MAX_ITERATIONS`. -/
def maxIterations : ℕ := 10

/-- Where the loader is. -/
inductive LoaderPhase where
  /-- In front of its look at `DataNeeded`. -/
  | outside
  /-- In front of `GetSendingSem`. -/
  | waiting
  /-- In the inner loop; `r` is what `pcap_dispatch` has returned. -/
  | loading (r : ℕ)
  /-- Behind `ReleaseSendingSem`. -/
  | released (r : ℕ)
  | ended
  deriving DecidableEq, Repr

/-- Where the sender is. -/
inductive SenderPhase where
  | outside
  | waiting
  /-- In the loop over the axis. -/
  | sending
  | stopped
  deriving DecidableEq, Repr

/-- What loader and sender share, and the trace that is left. A packet is the number of entries it
adds to the axis. -/
structure SendingState where
  file : List ℕ
  files : List (List ℕ)
  timeAxisSize : ℕ := 0
  lastTimeAxisSize : ℕ := 0
  uaxe : ℕ := 0
  iteration : ℕ := 0
  loadingThreadStatus : Bool := true
  stopSending : Bool := false
  /-- `sendingSem` is free. -/
  sendingSem : Bool := true
  loader : LoaderPhase := .outside
  sender : SenderPhase := .outside
  deriving DecidableEq, Repr

namespace SendingState

/-- `DataNeeded`. -/
def DataNeeded (s : SendingState) : Prop :=
  (s.timeAxisSize : ℤ) - s.lastTimeAxisSize < timeAxisSlot ∨ s.timeAxisSize = s.lastTimeAxisSize

instance (s : SendingState) : Decidable s.DataNeeded :=
  inferInstanceAs (Decidable (_ ∨ _))

/-- One step of the loader or of the sender. -/
inductive Step : SendingState → SendingState → Prop
  | loaderLooks {s : SendingState} (hloader : s.loader = .outside) (hneeded : s.DataNeeded) :
    Step s { s with loader := .waiting }
  -- `r` is not initialised
  | loaderTakes {s : SendingState} (hloader : s.loader = .waiting) (hsem : s.sendingSem = true)
    (r : ℕ) : Step s { s with sendingSem := false, loader := .loading r }
  | dispatch {s : SendingState} {r : ℕ} (hloader : s.loader = .loading r) (hneeded : s.DataNeeded)
    (hfile : s.file ≠ []) :
    Step s { s with
      file := s.file.drop maxTlLoopPackets
      timeAxisSize := s.timeAxisSize + (s.file.take maxTlLoopPackets).sum
      loader := .loading (s.file.take maxTlLoopPackets).length }
  -- pcap EOF
  | endOfFile {s : SendingState} {r : ℕ} (hloader : s.loader = .loading r)
    (hneeded : s.DataNeeded) (hfile : s.file = []) :
    Step s { s with sendingSem := true, loader := .released 0 }
  | loaderReleases {s : SendingState} {r : ℕ} (hloader : s.loader = .loading r)
    (hneeded : ¬ s.DataNeeded) : Step s { s with sendingSem := true, loader := .released r }
  | goOn {s : SendingState} {r : ℕ} (hloader : s.loader = .released r) (hr : r ≠ 0) :
    Step s { s with loader := .outside }
  | nextFile {s : SendingState} {file : List ℕ} {files : List (List ℕ)}
    (hloader : s.loader = .released 0) (hfiles : s.files = file :: files) :
    Step s { s with file := file, files := files, loader := .outside }
  | loadingEnded {s : SendingState} (hloader : s.loader = .released 0) (hfiles : s.files = []) :
    Step s { s with loadingThreadStatus := false, loader := .ended }
  | senderStops {s : SendingState} (hsender : s.sender = .outside) (hstop : s.stopSending = true) :
    Step s { s with sender := .stopped }
  | senderLooks {s : SendingState} (hsender : s.sender = .outside) (hstop : s.stopSending = false)
    (hneeded : ¬ s.DataNeeded) : Step s { s with sender := .waiting }
  | senderTakes {s : SendingState} (hsender : s.sender = .waiting) (hsem : s.sendingSem = true)
    (haxis : s.uaxe < s.timeAxisSize ∨ maxIterations < s.iteration ∧ 0 < s.uaxe) :
    Step s { s with sendingSem := false, sender := .sending }
  | senderPasses {s : SendingState} (hsender : s.sender = .waiting) (hsem : s.sendingSem = true)
    (haxis : ¬ (s.uaxe < s.timeAxisSize ∨ maxIterations < s.iteration ∧ 0 < s.uaxe)) :
    Step s { s with iteration := s.iteration + 1, sender := .outside }
  | send {s : SendingState} (hsender : s.sender = .sending) (haxis : s.uaxe < s.timeAxisSize) :
    Step s { s with
      uaxe := s.uaxe + 1
      stopSending := s.stopSending || !s.loadingThreadStatus }
  | senderReleases {s : SendingState} (hsender : s.sender = .sending)
    (haxis : ¬ s.uaxe < s.timeAxisSize) :
    Step s { s with
      lastTimeAxisSize := s.uaxe
      iteration := 1
      sendingSem := true
      sender := .outside }

/-- The states of the runs with a trace. -/
def Reachable (file : List ℕ) (files : List (List ℕ)) (s : SendingState) : Prop :=
  Relation.ReflTransGen Step { file := file, files := files } s

/-- With the trace loaded, the sender goes on until everything is sent and it has stopped. -/
def Drains (s : SendingState) : Prop :=
  s.loadingThreadStatus = false →
    s.uaxe < s.timeAxisSize ∨ s.sender ≠ .stopped → ¬ s.DataNeeded

/-! ## The invariant -/

/-- What holds of loader and sender, whatever their order is. -/
structure Inv (s : SendingState) : Prop where
  axis : s.lastTimeAxisSize ≤ s.uaxe ∧ s.uaxe ≤ s.timeAxisSize
  /-- The sender has told what it has sent. -/
  told : s.sender ≠ .sending → s.lastTimeAxisSize = s.uaxe
  sem : s.sender = .sending → s.sendingSem = false
  semLoading : ∀ r, s.loader = .loading r → s.sendingSem = false ∧ s.sender ≠ .sending
  needed : s.loader = .waiting ∨ s.loader = .loading 0 ∨ s.loader = .released 0 ∨
    s.loader = .ended → s.DataNeeded
  notNeeded : s.sender = .waiting ∨ s.sender = .sending → ¬ s.DataNeeded
  status : s.loadingThreadStatus = false ↔ s.loader = .ended
  stop : s.stopSending = false
  stopped : s.sender ≠ .stopped

theorem inv_start (file : List ℕ) (files : List (List ℕ)) :
    Inv { file := file, files := files } := by
  constructor <;> simp [DataNeeded]

/-- One party at a time changes the counters, and it changes them in its own favour only: loading
makes the axis longer, and sending makes up for it. -/
theorem Inv.step {s s' : SendingState} (h : s.Inv) (hstep : Step s s') : s'.Inv := by
  obtain ⟨haxis, htold, hsem, hloading, hneeded, hnot, hstatus, hstop, hstopped⟩ := h
  cases hstep with
  | loaderLooks hloader hn => constructor <;> simp_all [DataNeeded]
  | loaderTakes hloader hsem' r => constructor <;> simp_all [DataNeeded]
  | dispatch hloader hn hfile =>
    have hsender : s.sender ≠ .waiting := fun hw => hnot (Or.inl hw) hn
    have hle : s.uaxe ≤ s.timeAxisSize + (s.file.take maxTlLoopPackets).sum := by omega
    constructor <;> simp_all [DataNeeded, maxTlLoopPackets]
  | endOfFile hloader hn hfile => constructor <;> simp_all [DataNeeded]
  | loaderReleases hloader hn => constructor <;> simp_all [DataNeeded]
  | goOn hloader hr => constructor <;> simp_all [DataNeeded]
  | nextFile hloader hfiles => constructor <;> simp_all [DataNeeded]
  | loadingEnded hloader hfiles => constructor <;> simp_all [DataNeeded]
  | senderStops hsender hstop' => constructor <;> simp_all [DataNeeded]
  | senderLooks hsender hstop' hn => constructor <;> simp_all [DataNeeded]
  | senderTakes hsender hsem' haxis' => constructor <;> simp_all [DataNeeded]
  | senderPasses hsender hsem' haxis' => constructor <;> simp_all [DataNeeded]
  | send hsender haxis' =>
    have hn : ¬ s.DataNeeded := hnot (Or.inr hsender)
    -- the loader cannot have ended while the sender holds the semaphore
    have hrunning : s.loadingThreadStatus = true := by
      rw [← Bool.not_eq_false, hstatus]
      exact fun hended => hn (hneeded (by simp [hended]))
    have hle : s.lastTimeAxisSize ≤ s.uaxe + 1 := by omega
    have hlt : s.uaxe + 1 ≤ s.timeAxisSize := haxis'
    constructor <;> simp_all [DataNeeded]
  | senderReleases hsender haxis' =>
    have hall : s.timeAxisSize = s.uaxe := by omega
    constructor <;> simp_all [DataNeeded]

theorem Inv.steps {s s' : SendingState} (h : s.Inv) (hsteps : Relation.ReflTransGen Step s s') :
    s'.Inv := by
  induction hsteps with
  | refl => exact h
  | tail _ hstep ih => exact ih.step hstep

theorem Reachable.inv {file : List ℕ} {files : List (List ℕ)} {s : SendingState}
    (h : Reachable file files s) : s.Inv :=
  (inv_start file files).steps h

/-- Once loading has ended, the sender's guard is off. -/
theorem Inv.drains_iff {s : SendingState} (h : s.Inv) :
    s.Drains ↔ s.loadingThreadStatus = true := by
  constructor
  · intro hdrains
    rw [← Bool.not_eq_false]
    intro hstatus
    exact hdrains hstatus (Or.inr h.stopped) (h.needed (by simp [h.status.mp hstatus]))
  · intro hrunning hstatus
    rw [hrunning] at hstatus
    contradiction

/-! ## Loading can end -/

open Relation (ReflTransGen)

/-- Nobody is at work, and the trace is not loaded. -/
structure Pausing (s : SendingState) : Prop where
  inv : s.Inv
  loader : s.loader = .outside
  sender : s.sender = .outside
  sem : s.sendingSem = true

theorem Pausing.running {s : SendingState} (h : s.Pausing) : s.loadingThreadStatus = true := by
  rw [← Bool.not_eq_false, h.inv.status, h.loader]
  simp

/-- The loop over the axis. -/
theorem sends_axis {s : SendingState} (hsender : s.sender = .sending)
    (hrunning : s.loadingThreadStatus = true) (k : ℕ) (hk : s.uaxe + k ≤ s.timeAxisSize) :
    ReflTransGen Step s { s with uaxe := s.uaxe + k } := by
  have hstop : (s.stopSending || !s.loadingThreadStatus) = s.stopSending := by simp [hrunning]
  induction k with
  | zero => exact ReflTransGen.refl
  | succ k ih =>
    have hstep := @Step.send { s with uaxe := s.uaxe + k } hsender hk
    dsimp only at hstep
    rw [hstop] at hstep
    exact (ih (by omega)).tail hstep

/-- The sender makes room for the loader. -/
theorem Pausing.drain {s : SendingState} (h : s.Pausing) :
    ∃ s', ReflTransGen Step s s' ∧ s'.Pausing ∧ s'.DataNeeded ∧ s'.file = s.file ∧
      s'.files = s.files := by
  by_cases hn : s.DataNeeded
  · exact ⟨s, .refl, h, hn, rfl, rfl⟩
  have htold := h.inv.told (by simp [h.sender])
  have haxis := h.inv.axis
  have hlt : s.uaxe < s.timeAxisSize := by
    have hne : s.timeAxisSize ≠ s.lastTimeAxisSize := fun he => hn (Or.inr he)
    omega
  have hlooks := Step.senderLooks h.sender h.inv.stop hn
  have htakes := @Step.senderTakes { s with sender := .waiting } rfl h.sem (Or.inl hlt)
  obtain ⟨k, hk⟩ := Nat.exists_eq_add_of_le haxis.2
  have hsends := @sends_axis { s with sendingSem := false, sender := .sending } rfl h.running k
    (Nat.le_of_eq hk.symm)
  have hreleases := @Step.senderReleases
    { s with sendingSem := false, sender := .sending, uaxe := s.uaxe + k } rfl (by simp [hk])
  have hsteps := ((ReflTransGen.single hlooks).tail htakes).trans hsends |>.tail hreleases
  exact ⟨_, hsteps, ⟨h.inv.steps hsteps, h.loader, rfl, rfl⟩, Or.inr hk, rfl, rfl⟩

/-- The loader gets the semaphore. -/
theorem Pausing.load {s : SendingState} (h : s.Pausing) :
    ∃ s', ReflTransGen Step s s' ∧ s'.loader = .loading 0 ∧ s'.sender = .outside ∧
      s'.file = s.file ∧ s'.files = s.files := by
  obtain ⟨t, hdrain, ht, hn, hfile, hfiles⟩ := h.drain
  have hlooks := Step.loaderLooks ht.loader hn
  have htakes := @Step.loaderTakes { t with loader := .waiting } rfl ht.sem 0
  exact ⟨_, (hdrain.tail hlooks).tail htakes, rfl, ht.sender, hfile, hfiles⟩

/-- The packets and the ends of files in front of the loader. -/
def left (s : SendingState) : ℕ :=
  s.file.length + (s.files.map fun file => file.length + 1).sum

/-- What is left becomes less with every call of `pcap_dispatch` and with every file. -/
theorem loading_ends {s : SendingState} {r : ℕ} (h : s.Inv) (hloader : s.loader = .loading r)
    (hsender : s.sender = .outside) (hn : s.DataNeeded) :
    ∃ s', ReflTransGen Step s s' ∧ s'.loadingThreadStatus = false := by
  induction hleft : s.left using Nat.strongRecOn generalizing s r with
  | ind n ih =>
    -- a pause after which less is left
    have hpause : ∀ t : SendingState, ReflTransGen Step s t → t.Pausing → t.left < n →
        ∃ s', ReflTransGen Step s s' ∧ s'.loadingThreadStatus = false := by
      intro t hst ht hlt
      obtain ⟨u, htu, huloader, husender, hufile, hufiles⟩ := ht.load
      have huinv := ht.inv.steps htu
      have huleft : u.left = t.left := by rw [left, left, hufile, hufiles]
      obtain ⟨s', hs', hend⟩ := ih u.left (by omega) huinv huloader husender
        (huinv.needed (by simp [huloader])) rfl
      exact ⟨s', (hst.trans htu).trans hs', hend⟩
    by_cases hfile : s.file = []
    · have heof := ReflTransGen.single (Step.endOfFile hloader hn hfile)
      match hfiles : s.files with
      | [] =>
        exact ⟨_, heof.tail (Step.loadingEnded rfl hfiles), rfl⟩
      | file :: files =>
        have hnext := heof.tail (Step.nextFile rfl hfiles)
        apply hpause _ hnext ⟨h.steps hnext, rfl, hsender, rfl⟩
        simp only [left, hfile, hfiles, List.length_nil, List.map_cons, List.sum_cons] at hleft ⊢
        omega
    · have hdispatch := Step.dispatch hloader hn hfile
      set t : SendingState := { s with
        file := s.file.drop maxTlLoopPackets
        timeAxisSize := s.timeAxisSize + (s.file.take maxTlLoopPackets).sum
        loader := .loading (s.file.take maxTlLoopPackets).length } with ht
      have hpos : 0 < s.file.length := List.length_pos_iff.mpr hfile
      have hlt : t.left < n := by
        simp only [left, ht, List.length_drop, maxTlLoopPackets] at hleft ⊢
        omega
      by_cases htn : t.DataNeeded
      · obtain ⟨s', hs', hend⟩ := ih t.left hlt (h.step hdispatch) rfl hsender htn rfl
        exact ⟨s', hs'.head hdispatch, hend⟩
      · have hreleases := (ReflTransGen.single hdispatch).tail (Step.loaderReleases rfl htn)
        have hgoes := hreleases.tail (Step.goOn rfl (by
          simp only [List.length_take, maxTlLoopPackets]
          omega))
        exact hpause _ hgoes ⟨h.steps hgoes, rfl, hsender, rfl⟩ hlt

/-- The trace can be loaded, whatever it is. -/
theorem reachable_loaded (file : List ℕ) (files : List (List ℕ)) :
    ∃ s, Reachable file files s ∧ s.loadingThreadStatus = false := by
  have hstart : Pausing { file := file, files := files } := ⟨inv_start file files, rfl, rfl, rfl⟩
  obtain ⟨t, hload, hloader, hsender, -, -⟩ := hstart.load
  have hinv := hstart.inv.steps hload
  obtain ⟨s, hs, hend⟩ := loading_ends hinv hloader hsender (hinv.needed (by simp [hloader]))
  exact ⟨s, hload.trans hs, hend⟩

/-- The sender does not drain a trace, whatever its files are: loading can end, and from then on the
sender's guard is off. -/
theorem sender_stuck (file : List ℕ) (files : List (List ℕ)) :
    (∃ s, Reachable file files s ∧ ¬ s.Drains) ∧
      ∀ s, Reachable file files s → (s.Drains ↔ s.loadingThreadStatus = true) := by
  obtain ⟨s, hs, hended⟩ := reachable_loaded file files
  refine ⟨⟨s, hs, ?_⟩, fun t ht => ht.inv.drains_iff⟩
  rw [hs.inv.drains_iff, hended]
  decide

/-- One packet that does not fill a slot. -/
theorem not_sender_drains :
    ∃ s, Reachable [1] [] s ∧ s.uaxe < s.timeAxisSize ∧ ¬ s.Drains := by
  have hlooks := @Step.loaderLooks { file := [1], files := [] } rfl (by decide)
  have htakes := @Step.loaderTakes { file := [1], files := [], loader := .waiting } rfl rfl 0
  have hdispatch := @Step.dispatch
    { file := [1], files := [], sendingSem := false, loader := .loading 0 } 0 rfl (by decide)
    (by decide)
  have heof := @Step.endOfFile
    { file := [], files := [], timeAxisSize := 1, sendingSem := false, loader := .loading 1 } 1 rfl
    (by decide) rfl
  have hended := @Step.loadingEnded
    { file := [], files := [], timeAxisSize := 1, loader := .released 0 } rfl rfl
  refine ⟨_, ((((ReflTransGen.single hlooks).tail htakes).tail hdispatch).tail heof).tail hended,
    by decide, ?_⟩
  exact fun hdrains => hdrains rfl (Or.inl (by decide)) (by decide)

end SendingState

end Nsp
