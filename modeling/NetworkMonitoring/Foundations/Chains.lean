import NetworkMonitoring.Foundations.FueledLoops
import Mathlib.Data.Set.Finite.Basic
import Mathlib.Logic.Relation
import Mathlib.Order.WellFounded

/-!
# Following a partial function

A table that has at most one next element for each element is a partial function `f`. `Leads f a b`:
following it from `a` comes to `b`; `EndsAt f a b`: it ends there, as `b` has no next element.
`Path f a l`: the elements it comes to until it ends are `l`.

* `Path.nodup`: no element comes twice on a path;
* `exists_path_iff`: following `f` from `a` ends exactly when it comes to no cycle, provided that it
  comes to finitely many elements.

`Follows` says that the iterations of a loop follow `f`. Such a loop returns exactly when there is a
path (`Follows.returns_iff`), and it comes to whatever `f` leads to (`Follows.reaches`).
-/

namespace Chains

open FueledLoops

variable {V : Type*} {f : V → Option V} {a b c : V} {l l' : List V}

/-- Following `f` from `a` comes to `b`. -/
def Leads (f : V → Option V) : V → V → Prop := Relation.ReflTransGen fun a b => f a = some b

/-- Following `f` from `a` comes back to `a`. -/
def Returns (f : V → Option V) (a : V) : Prop := ∃ b, f a = some b ∧ Leads f b a

/-- Following `f` from `a` ends at `b`. -/
def EndsAt (f : V → Option V) (a b : V) : Prop := Leads f a b ∧ f b = none

/-- Following `f` from `a` comes to the elements of the list, and ends. -/
inductive Path (f : V → Option V) : V → List V → Prop
  | stop {a : V} : f a = none → Path f a [a]
  | step {a b : V} {l : List V} : f a = some b → Path f b l → Path f a (a :: l)

theorem Leads.refl (a : V) : Leads f a a := Relation.ReflTransGen.refl

theorem Leads.head (h : f a = some b) (h' : Leads f b c) : Leads f a c :=
  Relation.ReflTransGen.head h h'

theorem Leads.tail (h : Leads f a b) (h' : f b = some c) : Leads f a c :=
  Relation.ReflTransGen.tail h h'

theorem Leads.trans (h : Leads f a b) (h' : Leads f b c) : Leads f a c :=
  Relation.ReflTransGen.trans h h'

/-- Whatever is not where it starts lies behind the next element. -/
theorem Leads.cases (h : Leads f a c) : a = c ∨ ∃ b, f a = some b ∧ Leads f b c :=
  h.cases_head

/-- What every step preserves holds wherever `f` leads to. -/
theorem Leads.invariant {P : V → Prop} (h : Leads f a b) (ha : P a)
    (hstep : ∀ x y, Leads f a x → P x → f x = some y → P y) : P b := by
  induction h with
  | refl => exact ha
  | tail hx hy ih => exact hstep _ _ hx ih hy

/-- There is one end at most. -/
theorem EndsAt.unique {b' : V} (h : EndsAt f a b) (h' : EndsAt f a b') : b = b' := by
  obtain ⟨hreach, hend⟩ := h
  induction hreach using Relation.ReflTransGen.head_induction_on with
  | refl =>
    rcases h'.1.cases with heq | ⟨m, hm, -⟩
    · exact heq
    · rw [hend] at hm
      cases hm
  | head hstep _ ih =>
    refine ih ⟨?_, h'.2⟩
    rcases h'.1.cases with heq | ⟨m, hm, hreach'⟩
    · rw [heq, h'.2] at hstep
      cases hstep
    · rwa [Option.some.inj (hstep.symm.trans hm)]

/-! ## Paths -/

/-- Following `f` ends at the last element of the path. -/
theorem Path.endsAt (h : Path f a l) : ∃ b, l.getLast? = some b ∧ EndsAt f a b := by
  induction h with
  | stop hnone => exact ⟨_, rfl, .refl _, hnone⟩
  | step hstep hpath ih =>
    obtain ⟨b, hlast, hend⟩ := ih
    exact ⟨b, by rw [List.getLast?_cons, hlast]; rfl, hend.1.head hstep, hend.2⟩

theorem EndsAt.exists_path (h : EndsAt f a b) : ∃ l, Path f a l ∧ l.getLast? = some b := by
  obtain ⟨hreach, hend⟩ := h
  induction hreach using Relation.ReflTransGen.head_induction_on with
  | refl => exact ⟨[b], .stop hend, rfl⟩
  | head hstep _ ih =>
    obtain ⟨l, hpath, hlast⟩ := ih
    exact ⟨_, .step hstep hpath, by rw [List.getLast?_cons, hlast]; rfl⟩

theorem Path.unique (h : Path f a l) (h' : Path f a l') : l = l' := by
  induction h generalizing l' with
  | stop hnone =>
    cases h' with
    | stop _ => rfl
    | step hstep _ =>
      rw [hnone] at hstep
      cases hstep
  | step hstep _ ih =>
    cases h' with
    | stop hnone =>
      rw [hnone] at hstep
      cases hstep
    | step hstep' hpath' =>
      obtain rfl := Option.some.inj (hstep.symm.trans hstep')
      rw [ih hpath']

/-- From each of its elements the path goes on to the same end. -/
theorem Path.exists_suffix (h : Path f a l) (hc : c ∈ l) : ∃ l', Path f c l' ∧ l' <:+ l := by
  induction h with
  | @stop a hnone =>
    rw [List.mem_singleton.mp hc]
    exact ⟨[a], .stop hnone, List.suffix_rfl⟩
  | @step a b l hstep hpath ih =>
    rcases List.mem_cons.mp hc with rfl | hc
    · exact ⟨c :: l, .step hstep hpath, List.suffix_rfl⟩
    · obtain ⟨l', hpath', hsuffix⟩ := ih hc
      exact ⟨l', hpath', hsuffix.trans (List.suffix_cons a l)⟩

/-- No element comes twice. -/
theorem Path.nodup (h : Path f a l) : l.Nodup := by
  induction h with
  | stop _ => exact List.nodup_singleton _
  | @step a b l hstep hpath ih =>
    refine List.nodup_cons.mpr ⟨fun ha => ?_, ih⟩
    -- the path from the second visit on would be as long as the whole path
    obtain ⟨l', hpath', hsuffix⟩ := hpath.exists_suffix ha
    have hlength := hsuffix.length_le
    rw [← (Path.step hstep hpath).unique hpath', List.length_cons] at hlength
    omega

/-! ## Cycles -/

/-- The element behind one on a cycle is on it, too. -/
theorem Returns.next (h : Returns f a) (hstep : f a = some b) : Returns f b := by
  obtain ⟨b', hstep', hback⟩ := h
  obtain rfl := Option.some.inj (hstep.symm.trans hstep')
  rcases hback.cases with rfl | ⟨c, hc, hback⟩
  · exact ⟨b, hstep, .refl b⟩
  · exact ⟨c, hc, hback.tail hstep⟩

/-- A path does not come to a cycle. -/
theorem Path.not_returns (h : Path f a l) (hc : Leads f a c) : ¬ Returns f c := by
  induction h generalizing c with
  | stop hnone =>
    rintro ⟨b, hb, -⟩
    rcases hc.cases with rfl | ⟨m, hm, -⟩
    · exact Option.some_ne_none b (hb.symm.trans hnone)
    · exact Option.some_ne_none m (hm.symm.trans hnone)
  | @step a b l hstep _ ih =>
    intro hback
    rcases hc.cases with rfl | ⟨m, hm, hc⟩
    · exact ih (.refl b) (hback.next hstep)
    · obtain rfl := Option.some.inj (hstep.symm.trans hm)
      exact ih hc hback

/-- Following `f` ends exactly when it comes to no cycle. -/
theorem exists_path_iff (hfin : {b | Leads f a b}.Finite) :
    (∃ l, Path f a l) ↔ ¬ ∃ c, Leads f a c ∧ Returns f c := by
  constructor
  · rintro ⟨l, hpath⟩ ⟨c, hc, hback⟩
    exact hpath.not_returns hc hback
  · intro hno
    -- without a cycle, being behind another element is a well-founded order
    let Behind (x y : {b | Leads f a b}) : Prop := ∃ m, f y.1 = some m ∧ Leads f m x.1
    have : Finite {b | Leads f a b} := hfin
    have : IsTrans _ Behind := ⟨by
      rintro x y z ⟨m, hm, hx⟩ ⟨m', hm', hy⟩
      exact ⟨m', hm', hy.trans (hx.head hm)⟩⟩
    have : Std.Irrefl Behind := ⟨fun x hx => hno ⟨x.1, x.2, hx⟩⟩
    have hwf : WellFounded Behind := Finite.wellFounded_of_trans_of_irrefl Behind
    suffices hall : ∀ x : {b | Leads f a b}, ∃ l, Path f x.1 l from hall ⟨a, .refl a⟩
    intro x
    induction x using hwf.induction with
    | _ x ih =>
      cases hx : f x.1 with
      | none => exact ⟨[x.1], .stop hx⟩
      | some m =>
        obtain ⟨l, hpath⟩ := ih ⟨m, x.2.tail hx⟩ ⟨m, hx, .refl m⟩
        exact ⟨x.1 :: l, .step hx hpath⟩

/-! ## Loops that follow a partial function -/

section Loops

variable {σ ρ ε : Type*} {step : σ → Except ε (ρ ⊕ σ)} {e : ε} {At : List V → V → σ → Prop}
  {Q : List V → ρ → Prop} {pre : List V} {s : σ}

/-- A loop goes on from an element to the next one, and where there is no next one it returns.
`At pre a s` says that the loop has come to `a` in the state `s`, by way of the elements in `pre`;
`Q l r` that it returns `r` when it has followed the path `l`. -/
structure Follows (f : V → Option V) (step : σ → Except ε (ρ ⊕ σ)) (e : ε)
    (At : List V → V → σ → Prop) (Q : List V → ρ → Prop) : Prop where
  go : ∀ {pre a b s}, At pre a s → f a = some b → ∃ s', step s = .ok (.inr s') ∧ At (pre ++ [a]) b s'
  stop : ∀ {pre a s}, At pre a s → f a = none →
    ∃ fuel r, iterate (orFail step) (.error e) fuel s = .ok r ∧ Q (pre ++ [a]) r

/-- On a path the loop returns. -/
theorem Follows.returns (h : Follows f step e At Q) (hs : At pre a s) (hpath : Path f a l) :
    ∃ fuel r, iterate (orFail step) (.error e) fuel s = .ok r ∧ Q (pre ++ l) r := by
  induction hpath generalizing pre s with
  | stop hnone => exact h.stop hs hnone
  | step hstep _ ih =>
    obtain ⟨s', hgo, hs'⟩ := h.go hs hstep
    obtain ⟨fuel, r, hiter, hr⟩ := ih hs'
    refine ⟨fuel + 1, r, ?_, ?_⟩
    · rw [iterate_succ_inr (orFail_eq_inr.mpr hgo), hiter]
    · rwa [List.append_assoc] at hr

/-- A loop that returns has followed a path. -/
theorem Follows.exists_path (h : Follows f step e At Q) (hs : At pre a s) {fuel : ℕ} {r : ρ}
    (hiter : iterate (orFail step) (.error e) fuel s = .ok r) : ∃ l, Path f a l := by
  induction fuel generalizing pre s a with
  | zero => cases hiter
  | succ fuel ih =>
    cases hnext : f a with
    | none => exact ⟨[a], .stop hnext⟩
    | some b =>
      obtain ⟨s', hgo, hs'⟩ := h.go hs hnext
      rw [iterate_succ_inr (orFail_eq_inr.mpr hgo)] at hiter
      obtain ⟨l, hpath⟩ := ih hs' hiter
      exact ⟨a :: l, .step hnext hpath⟩

/-- The loop returns exactly when following `f` ends. -/
theorem Follows.returns_iff (h : Follows f step e At Q) (pre : List V) (hs : At pre a s) :
    (∃ fuel r, iterate (orFail step) (.error e) fuel s = .ok r) ↔ ∃ l, Path f a l := by
  constructor
  · rintro ⟨fuel, r, hiter⟩
    exact h.exists_path hs hiter
  · rintro ⟨l, hpath⟩
    obtain ⟨fuel, r, hiter, -⟩ := h.returns hs hpath
    exact ⟨fuel, r, hiter⟩

/-- The loop comes to whatever `f` leads to. -/
theorem Follows.reaches (h : Follows f step e At Q) (hs : At pre a s) (hlead : Leads f a b) :
    ∃ pre' t, Reaches (orFail step) s t ∧ At pre' b t := by
  induction hlead with
  | refl => exact ⟨pre, s, .refl s, hs⟩
  | @tail b c _ hstep ih =>
    obtain ⟨pre', t, hreach, ht⟩ := ih
    obtain ⟨t', hgo, ht'⟩ := h.go ht hstep
    exact ⟨pre' ++ [b], t', hreach.tail (orFail_eq_inr.mpr hgo), ht'⟩

end Loops

end Chains
