import Mathlib.Data.List.Basic

/-!
# Computations and loops that may fail

Functions that can stop with an error are `Except` computations, and a C loop over an array is a
`foldlM`. This module has the rules to take such a computation apart: `bind_eq_ok` peels off one
call, and `foldlM_ok_rel` carries a relation between the start and the end of a loop through its
iterations. `bind_ne_error` and `foldlM_ne_error` show that one particular error does not occur, and
`foldlM_map` that two loops go on in step.

`Ends E P x` has a postcondition for each of the two ways `x` can end; `Ends.bind` and
`Ends.foldlM` are its rules for a sequence and for a loop.
-/

namespace ErrorLoops

universe u v

variable {ε : Type u} {α β : Type v}

/-- A computation that has a result is followed by the next one. -/
theorem ok_bind (a : α) (f : α → Except ε β) : (Except.ok a >>= f) = f a := pure_bind a f

/-- A computation does not both have a result and fail. -/
theorem ok_ne_error {a : α} {e : ε} : (Except.ok a : Except ε α) ≠ .error e := by
  rintro ⟨⟩

theorem error_ne_ok {a : α} {e : ε} : (Except.error e : Except ε α) ≠ .ok a := by
  rintro ⟨⟩

/-- A sequence of two computations succeeds when both do. -/
theorem bind_eq_ok {x : Except ε α} {f : α → Except ε β} {b : β} :
    x >>= f = .ok b ↔ ∃ a, x = .ok a ∧ f a = .ok b := by
  cases x with
  | error e => exact ⟨fun h => absurd h error_ne_ok, fun ⟨_, h, _⟩ => absurd h error_ne_ok⟩
  | ok a => exact ⟨fun h => ⟨a, rfl, h⟩, fun ⟨_, ha, h⟩ => (Except.ok.inj ha) ▸ h⟩

/-- It fails when one of them does. -/
theorem bind_eq_error {x : Except ε α} {f : α → Except ε β} {e : ε} :
    x >>= f = .error e ↔ x = .error e ∨ ∃ a, x = .ok a ∧ f a = .error e := by
  cases x with
  | error e' =>
    refine ⟨fun h => .inl (congrArg Except.error (Except.error.inj h)), ?_⟩
    rintro (h | ⟨_, h, _⟩)
    · exact congrArg Except.error (Except.error.inj h)
    · exact absurd h error_ne_ok
  | ok a =>
    refine ⟨fun h => .inr ⟨a, rfl, h⟩, ?_⟩
    rintro (h | ⟨_, ha, h⟩)
    · exact absurd h ok_ne_error
    · exact (Except.ok.inj ha) ▸ h

/-- A test of the result that comes out true has a result. -/
theorem exists_of_any {x : Except ε α} {p : α → Bool} (h : x.toOption.any p = true) :
    ∃ a, x = .ok a ∧ p a = true := by
  cases x with
  | error e => cases h
  | ok a => exact ⟨a, rfl, h⟩

/-- The first iteration of a loop. -/
theorem foldlM_cons_ok {f : β → α → Except ε β} {x : α} {xs : List α} {s s' : β} :
    (x :: xs).foldlM f s = .ok s' ↔ ∃ s₁, f s x = .ok s₁ ∧ xs.foldlM f s₁ = .ok s' := by
  rw [List.foldlM_cons, bind_eq_ok]

/-- Lists that agree behind a first element. -/
theorem map_cons_inj {x y : Except ε (List α)} {a : α}
    (h : x.map (a :: ·) = y.map (a :: ·)) : x = y := by
  cases x with
  | error e =>
    cases y with
    | error e' => exact congrArg Except.error (Except.error.inj h)
    | ok ys => cases h
  | ok xs =>
    cases y with
    | error e' => cases h
    | ok ys => exact congrArg Except.ok (List.cons.inj (Except.ok.inj h)).2

/-- A reflexive and transitive relation that every iteration respects holds between the start and
the end of the loop. -/
theorem foldlM_ok_rel {f : β → α → Except ε β} {R : β → β → Prop} (hrefl : ∀ s, R s s)
    (htrans : ∀ a b c, R a b → R b c → R a c) (hstep : ∀ s x s', f s x = .ok s' → R s s')
    {xs : List α} {s s' : β} (h : xs.foldlM f s = .ok s') : R s s' := by
  induction xs generalizing s with
  | nil => exact (Except.ok.inj h) ▸ hrefl s
  | cons x xs ih =>
    obtain ⟨s₁, hx, hxs⟩ := foldlM_cons_ok.mp h
    exact htrans s s₁ s' (hstep s x s₁ hx) (ih hxs)

/-- A loop over an array that cannot fail on any of its elements. -/
theorem mapM_eq_ok {f : α → Except ε β} {g : α → β} {xs : List α}
    (h : ∀ x ∈ xs, f x = .ok (g x)) : xs.mapM f = .ok (xs.map g) := by
  induction xs with
  | nil => rfl
  | cons x xs ih =>
    rw [List.mapM_cons, h x List.mem_cons_self, ih fun y hy => h y (List.mem_cons_of_mem x hy)]
    rfl

/-- Two loops over an array go on in step: what one has is the image of what the other has. -/
theorem foldlM_map {γ : Type v} {δ : Type v} {f : γ → δ → Except ε γ} {g : β → δ → Except ε β}
    {φ : β → γ} (hstep : ∀ s x, f (φ s) x = (g s x).map φ) {xs : List δ} {s : β} :
    xs.foldlM f (φ s) = (xs.foldlM g s).map φ := by
  induction xs generalizing s with
  | nil => rfl
  | cons x xs ih =>
    rw [List.foldlM_cons, List.foldlM_cons, hstep]
    cases g s x with
    | error e => rfl
    | ok s' => exact ih

/-- The computation has a result that satisfies `P`, or it fails with an error that satisfies
`E`. -/
def Ends (E : ε → Prop) (P : α → Prop) : Except ε α → Prop
  | .error e => E e
  | .ok a => P a

@[simp]
theorem ends_ok {E : ε → Prop} {P : α → Prop} {a : α} : Ends E P (.ok a) ↔ P a := Iff.rfl

@[simp]
theorem ends_error {E : ε → Prop} {P : α → Prop} {e : ε} : Ends E P (.error e) ↔ E e := Iff.rfl

/-- What a computation can end in. -/
theorem Ends.cases {E : ε → Prop} {P : α → Prop} {x : Except ε α} (h : Ends E P x) :
    (∃ e, x = .error e ∧ E e) ∨ ∃ a, x = .ok a ∧ P a := by
  cases x with
  | error e => exact .inl ⟨e, rfl, h⟩
  | ok a => exact .inr ⟨a, rfl, h⟩

/-- A computation that cannot fail has a result. -/
theorem Ends.exists_ok {P : α → Prop} {x : Except ε α} (h : Ends (fun _ => False) P x) :
    ∃ a, x = .ok a ∧ P a :=
  h.cases.resolve_left fun ⟨_, _, hfalse⟩ => hfalse

/-- The postconditions can be weakened. -/
theorem Ends.imp {E E' : ε → Prop} {P P' : α → Prop} {x : Except ε α} (h : Ends E P x)
    (hE : ∀ e, E e → E' e) (hP : ∀ a, P a → P' a) : Ends E' P' x := by
  cases x with
  | error e => exact hE e h
  | ok a => exact hP a h

/-- A sequence of two computations: the second one starts where the first one ended. -/
theorem Ends.bind {E : ε → Prop} {P : α → Prop} {Q : β → Prop} {x : Except ε α}
    {f : α → Except ε β} (hx : Ends E P x) (hf : ∀ a, P a → Ends E Q (f a)) :
    Ends E Q (x >>= f) := by
  cases x with
  | error e => exact hx
  | ok a => exact hf a hx

theorem Ends.map {E : ε → Prop} {P : α → Prop} {Q : β → Prop} {x : Except ε α} {f : α → β}
    (hx : Ends E P x) (hf : ∀ a, P a → Q (f a)) : Ends E Q (x.map f) := by
  cases x with
  | error e => exact hx
  | ok a => exact hf a hx

/-- A computation whose errors are renamed. -/
theorem Ends.mapError {ε' : Type*} {E : ε' → Prop} {P : α → Prop} {x : Except ε α} {f : ε → ε'}
    (h : Ends (fun e => E (f e)) P x) : Ends E P (x.mapError f) := by
  cases x with
  | error e => exact h
  | ok a => exact h

/-- The element that an iteration of a loop handles. -/
theorem mem_of_eq_append {xs pre post : List α} {x : α} (h : xs = pre ++ x :: post) : x ∈ xs :=
  h ▸ List.mem_append_right pre List.mem_cons_self

/-- A loop over an array, with an invariant about the elements it has handled. -/
theorem Ends.foldlM {f : β → α → Except ε β} {E : ε → Prop} {I : List α → β → Prop}
    {xs : List α} (hstep : ∀ pre x post s, xs = pre ++ x :: post → I pre s →
      Ends E (I (pre ++ [x])) (f s x)) {s : β} (h : I [] s) : Ends E (I xs) (xs.foldlM f s) := by
  suffices hrest : ∀ pre post s, xs = pre ++ post → I pre s →
      Ends E (I xs) (post.foldlM f s) from hrest [] xs s rfl h
  intro pre post
  induction post generalizing pre with
  | nil =>
    intro s hxs hs
    rw [List.append_nil] at hxs
    exact hxs ▸ hs
  | cons x post ih =>
    intro s hxs hs
    rw [List.foldlM_cons]
    refine (hstep pre x post s hxs hs).bind fun s' hs' => ?_
    exact ih (pre ++ [x]) s' (by rw [hxs, List.append_assoc]; rfl) hs'

/-- A loop that fills the entry of each element of an array: `P` holds of an entry before it is
filled, and `Q` afterwards. -/
theorem Ends.foldlM_update [DecidableEq α] {g : (α → β) → α → Except ε β} {E : ε → Prop}
    {I : (α → β) → Prop} {P Q : α → β → Prop} {xs : List α} (hxs : xs.Nodup)
    (hstep : ∀ m, ∀ x ∈ xs, I m → P x (m x) →
      Ends E (fun b => Q x b ∧ I (Function.update m x b)) (g m x))
    {m : α → β} (h : I m) (hP : ∀ x ∈ xs, P x (m x)) :
    Ends E (fun m' => I m' ∧ (∀ x ∈ xs, Q x (m' x)) ∧ ∀ x, x ∉ xs → m' x = m x)
      (xs.foldlM (fun m x => do return Function.update m x (← g m x)) m) := by
  refine Ends.foldlM (I := fun pre m' => I m' ∧ (∀ x ∈ pre, Q x (m' x)) ∧
    ∀ x, x ∉ pre → m' x = m x) ?_ ⟨h, fun x hx => absurd hx List.not_mem_nil, fun x _ => rfl⟩
  rintro pre x post m' rfl ⟨hm', hfilled, hrest⟩
  have hx : x ∈ pre ++ x :: post := mem_of_eq_append rfl
  have hnew : x ∉ pre := fun hmem =>
    (List.nodup_append.mp hxs).2.2 x hmem x List.mem_cons_self rfl
  refine (hstep m' x hx hm' (hrest x hnew ▸ hP x hx)).bind fun b ⟨hb, hI⟩ => ⟨hI, ?_, ?_⟩
  · intro y hy
    rw [Function.update_apply]
    split_ifs with heq
    · exact heq ▸ hb
    · exact hfilled y ((List.mem_append.mp hy).resolve_right fun h => heq (List.mem_singleton.mp h))
  · intro y hy
    rw [List.mem_append, List.mem_singleton, not_or] at hy
    rw [Function.update_apply, if_neg hy.2]
    exact hrest y hy.1

/-- A sequence of two computations avoids an error that both avoid. -/
theorem bind_ne_error {x : Except ε α} {f : α → Except ε β} {e : ε} (hx : x ≠ .error e)
    (hf : ∀ a, x = .ok a → f a ≠ .error e) : x >>= f ≠ .error e := by
  cases x with
  | error e' => exact fun h => hx (congrArg Except.error (Except.error.inj h))
  | ok a => exact hf a rfl

/-- A loop whose iterations keep an invariant, and avoid an error as long as it holds. -/
theorem foldlM_ne_error {f : β → α → Except ε β} {I : β → Prop} {e : ε} {xs : List α}
    (hstep : ∀ s, ∀ x ∈ xs, I s → f s x ≠ .error e ∧ ∀ s', f s x = .ok s' → I s') {s : β}
    (h : I s) : xs.foldlM f s ≠ .error e ∧ ∀ s', xs.foldlM f s = .ok s' → I s' := by
  induction xs generalizing s with
  | nil =>
    refine ⟨ok_ne_error, fun s' hnil => ?_⟩
    exact (Except.ok.inj hnil) ▸ h
  | cons x xs ih =>
    obtain ⟨hne, hok⟩ := hstep s x List.mem_cons_self h
    have hrest := fun s₁ hs₁ => ih (fun s y hy => hstep s y (List.mem_cons_of_mem x hy)) (hok s₁ hs₁)
    refine ⟨?_, fun s' hrun => ?_⟩
    · rw [List.foldlM_cons]
      exact bind_ne_error hne fun s₁ hs₁ => (hrest s₁ hs₁).1
    · obtain ⟨s₁, hs₁, hxs⟩ := foldlM_cons_ok.mp hrun
      exact (hrest s₁ hs₁).2 s' hxs

end ErrorLoops
