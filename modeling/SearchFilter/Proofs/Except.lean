import Mathlib.Data.List.Forall2

/-!
# Computations that may fail

How a chain of computations that may fail is taken apart.
-/

namespace SearchFilter

variable {ε α β γ δ : Type}

@[simp] theorem except_ok_bind (a : α) (f : α → Except ε β) : (Except.ok a >>= f) = f a := rfl

@[simp] theorem except_error_bind (e : ε) (f : α → Except ε β) :
    (Except.error e >>= f) = .error e := rfl

@[simp] theorem except_map_ok (f : α → β) (a : α) :
    (Except.ok a : Except ε α).map f = .ok (f a) := rfl

@[simp] theorem except_map_error (f : α → β) (e : ε) :
    (Except.error e : Except ε α).map f = .error e := rfl

@[simp] theorem except_pure (a : α) : (pure a : Except ε α) = .ok a := rfl

/-- A chain that gives a result gives one at each of its links. -/
theorem except_bind_eq_ok {x : Except ε α} {f : α → Except ε β} {b : β} :
    (x >>= f) = .ok b ↔ ∃ a, x = .ok a ∧ f a = .ok b := by
  cases x <;> simp

/-- Two steps succeed if the first one does and then the second one. -/
theorem except_seq_eq_ok {x : Except ε Unit} {y : Except ε β} {b : β} :
    (do x; y) = .ok b ↔ x = .ok () ∧ y = .ok b := by
  cases x <;> simp

theorem except_map_eq_ok {x : Except ε α} {f : α → β} {b : β} :
    x.map f = .ok b ↔ ∃ a, x = .ok a ∧ f a = b := by
  cases x with
  | ok a => simp
  | error e => simp only [except_map_error, reduceCtorEq, false_and, exists_false]

theorem except_bind_pure (x : Except ε α) (f : α → β) : (do let a ← x; return f a) = x.map f := by
  cases x <;> rfl

theorem except_map_map (x : Except ε α) (f : α → β) (g : β → γ) :
    (x.map f).map g = x.map (g ∘ f) := by
  cases x <;> rfl

/-- Two computations that agree on one view of their results agree on every view that the first
one determines. -/
theorem except_map_congr {x : Except ε α} {y : Except ε β} {f : α → γ} {g : β → γ} {f' : α → δ}
    {g' : β → δ} (h : x.map f = y.map g) (hview : ∀ a b, f a = g b → f' a = g' b) :
    x.map f' = y.map g' := by
  cases x with
  | error e =>
    cases y with
    | error e' => cases h; rfl
    | ok b => cases h
  | ok a =>
    cases y with
    | error e' => cases h
    | ok b => rw [except_map_ok, except_map_ok, hview a b (Except.ok.inj h)]

/-! ## Outcomes -/

/-- Whether a computation succeeds, and why not if it fails. -/
def outcome (x : Except ε α) : Except ε Unit :=
  x.map fun _ => ()

@[simp] theorem outcome_ok (a : α) : outcome (Except.ok a : Except ε α) = .ok () := rfl

@[simp] theorem outcome_error (e : ε) : outcome (Except.error e : Except ε α) = .error e := rfl

@[simp] theorem outcome_map (x : Except ε α) (f : α → β) : outcome (x.map f) = outcome x := by
  cases x <;> rfl

theorem outcome_eq_ok_iff {x : Except ε α} : outcome x = .ok () ↔ ∃ a, x = .ok a := by
  cases x <;> simp

theorem outcome_eq_error_iff {x : Except ε α} {e : ε} : outcome x = .error e ↔ x = .error e := by
  cases x <;> simp

/-- The computations have the same results. Where one of them fails the other one fails too, perhaps
for another reason. -/
def SameResults (x y : Except ε α) : Prop :=
  ∀ a, x = .ok a ↔ y = .ok a

theorem SameResults.exists_error_iff {x y : Except ε α} (h : SameResults x y) :
    (∃ e, x = .error e) ↔ ∃ e, y = .error e := by
  cases x with
  | ok a => simp [(h a).mp rfl]
  | error e =>
    cases y with
    | ok b => cases (h b).mpr rfl
    | error e' => simp

theorem SameResults.map {x y : Except ε α} (h : SameResults x y) (f : α → β) :
    SameResults (x.map f) (y.map f) := by
  intro b
  rw [except_map_eq_ok, except_map_eq_ok]
  exact exists_congr fun a => and_congr_left' (h a)

/-- What comes of two steps: the second one counts only where the first one succeeds. -/
theorem outcome_bind_map (x : Except ε α) (y : Except ε β) (f : α → β → γ) :
    outcome (do let a ← x; return f a (← y)) = (do outcome x; outcome y) := by
  cases x with
  | error e => rfl
  | ok a => cases y <;> rfl

/-! ## Causes of failure -/

/-- If the computation fails, its error has the property. -/
def FailsOnly (P : ε → Prop) (x : Except ε α) : Prop :=
  ∀ e, x = .error e → P e

namespace FailsOnly

variable {P Q : ε → Prop}

theorem ok (a : α) : FailsOnly P (.ok a : Except ε α) := by
  intro e h
  cases h

theorem error {e : ε} (h : P e) : FailsOnly P (.error e : Except ε α) := by
  intro e' he
  cases he
  exact h

theorem mono {x : Except ε α} (h : FailsOnly P x) (hPQ : ∀ e, P e → Q e) : FailsOnly Q x :=
  fun e he => hPQ e (h e he)

theorem bind {x : Except ε α} {f : α → Except ε β} (h : FailsOnly P x)
    (hf : ∀ a, FailsOnly P (f a)) : FailsOnly P (x >>= f) := by
  cases x with
  | ok a => exact hf a
  | error e => exact error (h e rfl)

theorem map {x : Except ε α} (h : FailsOnly P x) (f : α → β) : FailsOnly P (x.map f) := by
  cases x with
  | ok a => exact ok (f a)
  | error e => exact error (h e rfl)

theorem ite {c : Prop} [Decidable c] {x y : Except ε α} (h : FailsOnly P x)
    (h' : FailsOnly P y) : FailsOnly P (if c then x else y) := by
  split
  · exact h
  · exact h'

theorem mapM {f : α → Except ε β} (h : ∀ a, FailsOnly P (f a)) (xs : List α) :
    FailsOnly P (xs.mapM f) := by
  induction xs with
  | nil => exact ok []
  | cons x xs ih =>
    rw [List.mapM_cons]
    exact (h x).bind fun _ => ih.bind fun _ => ok _

end FailsOnly

/-! ## Lists -/

/-- Every result of a list comes from a member of the list. -/
theorem exists_of_mem_of_mapM {f : α → Except ε β} {xs : List α} {ys : List β} {y : β}
    (h : xs.mapM f = .ok ys) (hy : y ∈ ys) : ∃ x ∈ xs, f x = .ok y := by
  induction xs generalizing ys with
  | nil =>
    cases h
    cases hy
  | cons x xs ih =>
    rw [List.mapM_cons] at h
    obtain ⟨z, hz, h⟩ := except_bind_eq_ok.mp h
    obtain ⟨zs, hzs, h⟩ := except_bind_eq_ok.mp h
    cases h
    rcases List.mem_cons.mp hy with rfl | hy
    · exact ⟨x, List.mem_cons_self, hz⟩
    · obtain ⟨x', hx', hy⟩ := ih hzs hy
      exact ⟨x', List.mem_cons_of_mem x hx', hy⟩

/-- A list has results only if each of its members has one. -/
theorem exists_of_mapM_of_mem {f : α → Except ε β} {xs : List α} {ys : List β} {x : α}
    (h : xs.mapM f = .ok ys) (hx : x ∈ xs) : ∃ y, f x = .ok y := by
  induction xs generalizing ys with
  | nil => cases hx
  | cons x' xs ih =>
    rw [List.mapM_cons] at h
    obtain ⟨z, hz, h⟩ := except_bind_eq_ok.mp h
    obtain ⟨zs, hzs, -⟩ := except_bind_eq_ok.mp h
    rcases List.mem_cons.mp hx with rfl | hx
    · exact ⟨z, hz⟩
    · exact ih hzs hx

/-- Where a list has results, the members before each one have, and so has the member itself. -/
theorem split_of_mapM {f : α → Except ε β} {before after : List α} {x : α} {ys : List β}
    (h : (before ++ x :: after).mapM f = .ok ys) :
    (∃ zs, before.mapM f = .ok zs) ∧ ∃ y, f x = .ok y := by
  have hx := exists_of_mapM_of_mem h (List.mem_append_right before List.mem_cons_self)
  rw [List.mapM_append] at h
  obtain ⟨zs, hzs, -⟩ := except_bind_eq_ok.mp h
  exact ⟨⟨zs, hzs⟩, hx⟩

/-- A list has the results of its members, in their order. -/
theorem mapM_eq_some_iff {f : α → Option β} {xs : List α} {ys : List β} :
    xs.mapM f = some ys ↔ List.Forall₂ (fun x y => f x = some y) xs ys := by
  induction xs generalizing ys with
  | nil => simp [eq_comm]
  | cons x xs ih =>
    rw [List.mapM_cons, List.forall₂_cons_left_iff]
    simp only [← ih]
    cases f x <;> cases xs.mapM f <;> simp [eq_comm]

theorem forM_congr {f g : α → Except ε Unit} {xs : List α} (h : ∀ x ∈ xs, f x = g x) :
    forM xs f = forM xs g := by
  induction xs with
  | nil => rfl
  | cons x xs ih =>
    rw [List.forM_cons, List.forM_cons, h x List.mem_cons_self,
      ih fun y hy => h y (List.mem_cons_of_mem x hy)]

/-- A loop succeeds if each of its steps does. -/
theorem forM_eq_ok_iff {f : α → Except ε Unit} {xs : List α} :
    forM xs f = .ok () ↔ ∀ x ∈ xs, f x = .ok () := by
  induction xs with
  | nil => simp
  | cons x xs ih => simp [except_seq_eq_ok, ih]

/-- A loop fails as the first of its steps that fails. -/
theorem forM_eq_error_iff {f : α → Except ε Unit} {xs : List α} {e : ε} :
    forM xs f = .error e ↔ ∃ before x after, xs = before ++ x :: after ∧
      (∀ y ∈ before, f y = .ok ()) ∧ f x = .error e := by
  induction xs with
  | nil => simp
  | cons y ys ih =>
    rw [List.forM_cons]
    cases hy : f y with
    | error e' =>
      constructor
      · intro h
        have heq : e' = e := Except.error.inj h
        exact ⟨[], y, ys, rfl, by simp, by rw [hy, heq]⟩
      · rintro ⟨before, x, after, hsplit, hbefore, hx⟩
        cases before with
        | nil =>
          cases hsplit
          rw [← hx, hy]
          rfl
        | cons y' before =>
          cases hsplit
          have hok := hbefore y List.mem_cons_self
          rw [hy] at hok
          cases hok
    | ok u =>
      rw [except_ok_bind, ih]
      constructor
      · rintro ⟨before, x, after, rfl, hbefore, hx⟩
        refine ⟨y :: before, x, after, rfl, ?_, hx⟩
        intro y' hy'
        rcases List.mem_cons.mp hy' with rfl | hy'
        · exact hy
        · exact hbefore y' hy'
      · rintro ⟨before, x, after, hsplit, hbefore, hx⟩
        cases before with
        | nil =>
          cases hsplit
          rw [hy] at hx
          cases hx
        | cons y' before =>
          cases hsplit
          exact ⟨before, x, after, rfl, fun z hz => hbefore z (List.mem_cons_of_mem _ hz), hx⟩

/-- A loop fails if one of its steps does. -/
theorem exists_forM_eq_error_iff {f : α → Except ε Unit} {xs : List α} :
    (∃ e, forM xs f = .error e) ↔ ∃ x ∈ xs, ∃ e, f x = .error e := by
  constructor
  · rintro ⟨e, h⟩
    obtain ⟨before, x, after, rfl, -, hx⟩ := forM_eq_error_iff.mp h
    exact ⟨x, by simp, e, hx⟩
  · rintro ⟨x, hmem, e, hx⟩
    cases h : forM xs f with
    | error e' => exact ⟨e', rfl⟩
    | ok u =>
      have hok := forM_eq_ok_iff.mp h x hmem
      rw [hx] at hok
      cases hok

end SearchFilter
