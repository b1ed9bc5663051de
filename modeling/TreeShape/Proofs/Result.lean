import Mathlib.Data.List.Forall2

/-!
Computations that may fail, taken apart at their success. A sequence succeeds when each part of it
does, and a list of computations succeeds pointwise.
-/

namespace TreeShape

variable {ε α β : Type}

theorem bind_eq_ok_iff {x : Except ε α} {f : α → Except ε β} {b : β} :
    (x >>= f) = .ok b ↔ ∃ a, x = .ok a ∧ f a = .ok b := by
  cases x <;> simp [bind, Except.bind]

theorem bind_eq_error_iff {x : Except ε α} {f : α → Except ε β} {e : ε} :
    (x >>= f) = .error e ↔ x = .error e ∨ ∃ a, x = .ok a ∧ f a = .error e := by
  cases x <;> simp [bind, Except.bind]

/-- A check comes first. -/
theorem check_bind_eq_ok_iff {x : Except ε Unit} {f : Unit → Except ε β} {b : β} :
    (x >>= f) = .ok b ↔ x = .ok () ∧ f () = .ok b := by
  cases x <;> simp [bind, Except.bind]

theorem check_bind_eq_error_iff {x : Except ε Unit} {f : Unit → Except ε β} {e : ε} :
    (x >>= f) = .error e ↔ x = .error e ∨ x = .ok () ∧ f () = .error e := by
  cases x <;> simp [bind, Except.bind]

theorem map_eq_ok_iff {x : Except ε α} {f : α → β} {b : β} :
    x.map f = .ok b ↔ ∃ a, x = .ok a ∧ f a = b := by
  cases x <;> simp [Except.map]

theorem mapError_eq_ok_iff {x : Except ε α} {f : ε → β} {a : α} :
    x.mapError f = .ok a ↔ x = .ok a := by
  cases x <;> simp [Except.mapError]

theorem mapError_eq_error_iff {x : Except ε α} {f : ε → β} {e : β} :
    x.mapError f = .error e ↔ ∃ e', x = .error e' ∧ f e' = e := by
  cases x <;> simp [Except.mapError]

theorem pure_eq_ok_iff {a b : α} : (pure a : Except ε α) = .ok b ↔ a = b := by
  simp [pure, Except.pure]

theorem mapM_eq_ok_iff {f : α → Except ε β} {xs : List α} {ys : List β} :
    xs.mapM f = .ok ys ↔ List.Forall₂ (fun x y => f x = .ok y) xs ys := by
  induction xs generalizing ys with
  | nil => cases ys <;> simp [pure, Except.pure]
  | cons x xs ih =>
      simp only [List.mapM_cons, bind_eq_ok_iff, pure_eq_ok_iff, ih, List.forall₂_cons_left_iff]
      constructor
      · rintro ⟨y, hy, ys', hys, rfl⟩
        exact ⟨y, ys', hy, hys, rfl⟩
      · rintro ⟨y, ys', hy, hys, rfl⟩
        exact ⟨y, hy, ys', hys, rfl⟩

theorem exists_forall₂_iff {relation : α → β → Prop} {xs : List α} :
    (∃ ys, List.Forall₂ relation xs ys) ↔ ∀ x ∈ xs, ∃ y, relation x y := by
  induction xs with
  | nil => simp
  | cons x xs ih =>
      rw [List.forall_mem_cons, ← ih]
      constructor
      · intro ⟨_, h⟩
        cases h with
        | cons first others => exact ⟨⟨_, first⟩, _, others⟩
      · intro ⟨⟨y, first⟩, ys, others⟩
        exact ⟨y :: ys, .cons first others⟩

theorem exists_mapM_eq_ok {f : α → Except ε β} {xs : List α} (h : ∀ x ∈ xs, ∃ y, f x = .ok y) :
    ∃ ys, xs.mapM f = .ok ys := by
  obtain ⟨ys, all⟩ := exists_forall₂_iff.mpr h
  exact ⟨ys, mapM_eq_ok_iff.mpr all⟩

/-- A list of computations fails where the first of them does, after others that succeed. -/
theorem mapM_eq_error_iff {f : α → Except ε β} {xs : List α} {e : ε} :
    xs.mapM f = .error e ↔ ∃ before x after, xs = before ++ x :: after ∧
      (∀ y ∈ before, ∃ z, f y = .ok z) ∧ f x = .error e := by
  induction xs with
  | nil => simp [pure, Except.pure]
  | cons x xs ih =>
      rw [List.mapM_cons, bind_eq_error_iff]
      constructor
      · intro h
        obtain here | ⟨z, hz, h⟩ := h
        · exact ⟨[], x, xs, rfl, List.forall_mem_nil _, here⟩
        · obtain later | ⟨_, _, done⟩ := bind_eq_error_iff.mp h
          · obtain ⟨before, y, after, split, good, bad⟩ := ih.mp later
            refine ⟨x :: before, y, after, by rw [split]; rfl, ?_, bad⟩
            exact List.forall_mem_cons.mpr ⟨⟨z, hz⟩, good⟩
          · cases done
      · intro ⟨before, y, after, split, good, bad⟩
        cases before with
        | nil =>
            cases split
            exact .inl bad
        | cons first before =>
            cases split
            obtain ⟨⟨z, hz⟩, good⟩ := List.forall_mem_cons.mp good
            refine .inr ⟨z, hz, bind_eq_error_iff.mpr (.inl (ih.mpr ?_))⟩
            exact ⟨before, y, after, rfl, good, bad⟩

theorem exists_of_mapM_eq_error {f : α → Except ε β} {xs : List α} {e : ε}
    (h : xs.mapM f = .error e) : ∃ x ∈ xs, f x = .error e := by
  obtain ⟨before, x, after, rfl, _, bad⟩ := mapM_eq_error_iff.mp h
  exact ⟨x, List.mem_append_right _ List.mem_cons_self, bad⟩

/-- What a member of a list is related to, where lists are related pointwise. -/
theorem exists_mem_of_forall₂ {relation : α → β → Prop} {xs : List α} {ys : List β}
    (h : List.Forall₂ relation xs ys) {x : α} (hx : x ∈ xs) : ∃ y ∈ ys, relation x y := by
  induction h with
  | nil => cases hx
  | cons first _ ih =>
      cases hx with
      | head => exact ⟨_, List.mem_cons_self, first⟩
      | tail _ hx =>
          obtain ⟨y, hy, hr⟩ := ih hx
          exact ⟨y, List.mem_cons_of_mem _ hy, hr⟩

/-- What two members of a list are related to, one before the other as they are. -/
theorem exists_pair_of_forall₂ {relation : α → β → Prop} {xs : List α} {ys : List β}
    (h : List.Forall₂ relation xs ys) {x x' : α} (hx : [x, x'].Sublist xs) :
    ∃ y y', [y, y'].Sublist ys ∧ relation x y ∧ relation x' y' := by
  induction h with
  | nil => cases hx
  | cons first others ih =>
      cases hx with
      | cons _ hx =>
          obtain ⟨y, y', order, here, later⟩ := ih hx
          exact ⟨y, y', .cons _ order, here, later⟩
      | cons_cons _ hx =>
          obtain ⟨y', hy, later⟩ := exists_mem_of_forall₂ others (List.singleton_sublist.mp hx)
          exact ⟨_, y', .cons_cons _ (List.singleton_sublist.mpr hy), first, later⟩

/-- A fold that fails does so at one of its steps. -/
theorem exists_of_foldlM_eq_error {step : β → α → Except ε β} {xs : List α} {start : β} {e : ε}
    (h : xs.foldlM step start = .error e) : ∃ x ∈ xs, ∃ b, step b x = .error e := by
  induction xs generalizing start with
  | nil => cases h
  | cons x xs ih =>
      rw [List.foldlM_cons] at h
      cases hs : step start x with
      | error e' =>
          rw [hs] at h
          exact ⟨x, List.mem_cons_self, start, hs.trans h⟩
      | ok b =>
          rw [hs] at h
          obtain ⟨y, hy, b', hb⟩ := ih h
          exact ⟨y, List.mem_cons_of_mem _ hy, b', hb⟩

end TreeShape
