import NetworkMonitoring.Foundations.SeparatedFields

/-!
# Estimation — the path of an AS pair

`Add_path` of `GlobalEstimation.c` splits the path that the emulator has sent, in which a `#` stands
behind each interface, into the list of its interfaces.

## Main results

* `addPath_closed`: the interfaces come out in order, however many there are.
* `addPath_eq`: for any text, they come out when it ends in a `#`.
-/

namespace Estimation

open CText

/-- The loop of `Add_path`; `prevSepPosition` is the offset of `prev_sep_position`. The result is
`none` where `strchr` gives NULL, whose distance from the text `malloc` and `strncpy` then use. -/
def addPathLoop (receivedPath : Text) (prevSepPosition : ℕ) (pathh : List Text) :
    Option (List Text) :=
  match cut 35 (receivedPath.drop prevSepPosition) with
  | none => none
  | some (currentInterface, _) =>
    let sepPosition := prevSepPosition + currentInterface.length
    if sepPosition + 1 < receivedPath.length then
      addPathLoop receivedPath (sepPosition + 1) (pathh ++ [currentInterface])
    else some (pathh ++ [currentInterface])
termination_by receivedPath.length - prevSepPosition

/-- `Add_path`. -/
def addPath (receivedPath : Text) : Option (List Text) := addPathLoop receivedPath 0 []

/-- The texts, each with a `#` behind it. -/
def closed (interfaces : List Text) : Text := (interfaces.map (· ++ ascii "#")).flatten

@[simp]
theorem closed_nil : closed [] = [] := rfl

@[simp]
theorem closed_cons (x : Text) (xs : List Text) : closed (x :: xs) = x ++ 35 :: closed xs :=
  List.append_assoc x [35] (closed xs)

theorem closed_ne_nil {xs : List Text} (h : xs ≠ []) : closed xs ≠ [] := by
  obtain ⟨x, xs, rfl⟩ := List.exists_cons_of_ne_nil h
  simp

/-- From the first character of an interface the loop goes through it and those behind it. -/
theorem addPathLoop_closed {xs : List Text} (hne : xs ≠ []) (hsep : ∀ x ∈ xs, 35 ∉ x)
    (pre : Text) (pathh : List Text) :
    addPathLoop (pre ++ closed xs) pre.length pathh = some (pathh ++ xs) := by
  induction xs generalizing pre pathh with
  | nil => exact absurd rfl hne
  | cons x xs ih =>
    have hcut : cut 35 ((pre ++ closed (x :: xs)).drop pre.length) = some (x, closed xs) := by
      rw [List.drop_left, closed_cons, cut_append (hsep x List.mem_cons_self)]
    rw [addPathLoop, hcut]
    simp only
    have hnext : pre.length + x.length + 1 = (pre ++ x ++ ascii "#").length := by
      simp [ascii, Nat.add_assoc]
    have hsplit : pre ++ closed (x :: xs) = (pre ++ x ++ ascii "#") ++ closed xs := by
      simp [ascii]
    rw [hsplit, hnext]
    -- behind the last interface there is the end of the text
    by_cases hrest : xs = []
    · rw [if_neg (by simp [hrest]), hrest]
    · have hlt : (pre ++ x ++ ascii "#").length <
          ((pre ++ x ++ ascii "#") ++ closed xs).length := by
        have hpos := List.length_pos_of_ne_nil (closed_ne_nil hrest)
        have hlength : ((pre ++ x ++ ascii "#") ++ closed xs).length =
            (pre ++ x ++ ascii "#").length + (closed xs).length := List.length_append
        omega
      rw [if_pos hlt, ih hrest (fun y hy => hsep y (List.mem_cons_of_mem x hy)), List.append_assoc]
      rfl

/-- `Add_path` returns the interfaces of a path. -/
theorem addPath_closed {xs : List Text} (hne : xs ≠ []) (hsep : ∀ x ∈ xs, 35 ∉ x) :
    addPath (closed xs) = some xs :=
  addPathLoop_closed hne hsep [] []

/-! ## Any text -/

/-- The segments of a text that have a `#` behind them; what is behind the last `#` is none. -/
def segments (s : Text) : List Text := (s.splitOn 35).dropLast

theorem segments_cons {x : Text} (hx : 35 ∉ x) (y : Text) :
    segments (x ++ 35 :: y) = x :: segments y := by
  rw [segments, List.splitOn_append_cons_self_of_not_mem hx,
    List.dropLast_cons_of_ne_nil (List.splitOn_ne_nil 35 y), segments]

/-- From any place of the text on, the loop returns when the text ends in a `#`. Otherwise it comes
to a search that finds none. -/
theorem addPathLoop_eq (receivedPath : Text) (pos : ℕ) (pathh : List Text) :
    addPathLoop receivedPath pos pathh =
      if (receivedPath.drop pos).getLast? = some 35 then
        some (pathh ++ segments (receivedPath.drop pos))
      else none := by
  induction hrest : receivedPath.length - pos using Nat.strong_induction_on
    generalizing pos pathh with
  | h rest ih =>
    rw [addPathLoop]
    cases hcut : cut 35 (receivedPath.drop pos) with
    | none =>
      have hlast : (receivedPath.drop pos).getLast? ≠ some 35 := fun h =>
        cut_eq_none_iff.mp hcut (List.mem_of_getLast? h)
      rw [if_neg hlast]
    | some found =>
      obtain ⟨x, y⟩ := found
      obtain ⟨htext, hx⟩ := cut_eq_some hcut
      -- what is behind the separator that is found
      have hbehind : receivedPath.drop (pos + x.length + 1) = y := by
        rw [Nat.add_assoc, ← List.drop_drop, htext, ← List.drop_drop, List.drop_left]
        rfl
      have hlength : y.length = receivedPath.length - (pos + x.length + 1) := by
        rw [← hbehind, List.length_drop]
      have hsize : receivedPath.length - pos = x.length + (y.length + 1) := by
        rw [← List.length_drop, htext, List.length_append, List.length_cons]
      rw [htext, segments_cons hx]
      show (if pos + x.length + 1 < receivedPath.length then _ else _) = _
      by_cases hmore : pos + x.length + 1 < receivedPath.length
      · have hy : y ≠ [] := by
          intro hy
          rw [hy, List.length_nil] at hlength
          omega
        rw [if_pos hmore, ih _ (by omega) _ _ rfl, hbehind,
          List.getLast?_append_of_ne_nil _ (by simp), List.getLast?_cons_of_ne_nil hy, List.append_assoc]
        rfl
      · have hy : y = [] := List.length_eq_zero_iff.mp (by omega)
        rw [if_neg hmore, hy, if_pos (by simp)]
        rfl

/-- **The path of any reply.** `Add_path` returns the segments that end in a `#`, in order and
without reading outside the text, exactly when the text ends in a `#`. -/
theorem addPath_eq (receivedPath : Text) :
    addPath receivedPath = some (segments receivedPath) ↔ receivedPath.getLast? = some 35 := by
  rw [addPath, addPathLoop_eq, List.drop_zero, List.nil_append]
  by_cases hlast : receivedPath.getLast? = some 35
  · exact iff_of_true (if_pos hlast) hlast
  · rw [if_neg hlast]
    exact iff_of_false (Option.some_ne_none _).symm hlast

/-- A reply that is empty has no segments, and the first search finds none. -/
theorem addPath_empty : addPath [] ≠ some (segments []) := by
  decide +kernel

end Estimation
