import Mathlib.Data.List.Pairwise
import SearchFilter.Operation.Registry

/-!
# What a registry holds and what it finds

A list of registrations makes a registry exactly if no two of them collide. The registry holds them
in ascending order of priority. Where operations apply by their signatures alone, a rule belongs to
the operation with the least priority among those that apply to it, wherever that one was
registered.
-/

namespace SearchFilter

/-- The operation applies to exactly the rules that its signature names. -/
def Operation.AppliesBySignature (o : Operation) : Prop :=
  o.applies = o.signature.accepts

namespace Signature

/-- A rule is named by one signature only. -/
theorem eq_of_accepts {s t : Signature} {r : Rule} (hs : s.accepts r = true)
    (ht : t.accepts r = true) : s = t := by
  simp only [accepts, Bool.and_eq_true, beq_iff_eq] at hs ht
  cases s
  cases t
  simp_all

end Signature

namespace Registration

theorem collides_iff {a b : Registration} : a.collides b = true ↔
    a.priority = b.priority ∧ a.operation.signature = b.operation.signature := by
  simp only [collides, Bool.and_eq_true, beq_iff_eq]

theorem collides_comm (a b : Registration) : a.collides b = b.collides a := by
  rw [Bool.eq_iff_iff, collides_iff, collides_iff]
  exact and_congr eq_comm eq_comm

/-- The two registrations do not collide. -/
def Apart (a b : Registration) : Prop :=
  a.collides b = false

instance : Std.Symm Apart where
  symm a b h := (collides_comm b a).trans h

/-- There is no collision exactly if no registration collides with one before it. -/
theorem collision?_eq_none_iff {earlier rs : List Registration} : collision? earlier rs = none ↔
    (∀ r ∈ rs, ∀ e ∈ earlier, r.Apart e) ∧ rs.Pairwise Apart := by
  induction rs generalizing earlier with
  | nil => simp [collision?]
  | cons r rest ih =>
    rw [collision?]
    cases hfound : earlier.find? (collides r) with
    | some e =>
      have hcollides := List.find?_some hfound
      have hmem := List.mem_of_find?_eq_some hfound
      refine ⟨fun h => (nomatch h), fun h => ?_⟩
      have hfree := h.1 r (by simp) e hmem
      rw [Apart, hcollides] at hfree
      cases hfree
    | none =>
      have hfree : ∀ e ∈ earlier, r.Apart e := by simpa [Apart] using hfound
      have hcomm (r' : Registration) : r'.Apart r ↔ r.Apart r' := comm
      rw [ih, List.pairwise_cons]
      simp only [List.forall_mem_cons, hcomm, forall_and, iff_true_intro hfree, true_and]
      rw [and_left_comm, and_assoc]

end Registration

namespace Registry

/-- Registrations in the order in which they are looked up. -/
def ordered (rs : List Registration) : List Registration :=
  rs.mergeSort fun a b => a.priority ≤ b.priority

theorem perm_ordered (rs : List Registration) : (ordered rs).Perm rs :=
  List.mergeSort_perm rs _

theorem pairwise_ordered (rs : List Registration) :
    (ordered rs).Pairwise fun a b => a.priority ≤ b.priority := by
  have hsorted : (ordered rs).Pairwise fun a b => decide (a.priority ≤ b.priority) = true :=
    List.pairwise_mergeSort (by simp only [decide_eq_true_eq]; omega)
      (by simp only [Bool.or_eq_true, decide_eq_true_eq]; omega) rs
  exact hsorted.imp of_decide_eq_true

theorem ordered_of_pairwise {rs : List Registration}
    (h : rs.Pairwise fun a b => a.priority ≤ b.priority) : ordered rs = rs :=
  List.mergeSort_of_pairwise (h.imp decide_eq_true)

/-- Registrations make a registry exactly if no two of them collide. -/
theorem build_eq_ok_iff {rs : List Registration} {g : Registry} : build rs = .ok g ↔
    rs.Pairwise Registration.Apart ∧ g = ⟨ordered rs⟩ := by
  have hfree : Registration.collision? [] (ordered rs) = none ↔
      rs.Pairwise Registration.Apart := by
    rw [Registration.collision?_eq_none_iff, (perm_ordered rs).pairwise_iff symm]
    simp
  rw [← hfree, build]
  split
  next hsome =>
    have hsome : Registration.collision? [] (ordered rs) = some _ := hsome
    simp [hsome]
  next hnone =>
    have hnone : Registration.collision? [] (ordered rs) = none := hnone
    rw [← ordered]
    simp [hnone, eq_comm]

/-! ## Look-up -/

/-- The registration is the one with the least priority among those that apply to a rule. -/
structure IsLeast (rs : List Registration) (r : Rule) (e : Registration) : Prop where
  mem : e ∈ rs
  applies : e.operation.applies r = true
  le : ∀ e' ∈ rs, e'.operation.applies r = true → e.priority ≤ e'.priority

/-- What is found in a sorted list comes before everything else that could be found in it. -/
theorem rel_of_find? {α : Type} {R : α → α → Prop} {p : α → Bool} {xs : List α} {a : α}
    (hsorted : xs.Pairwise R) (h : xs.find? p = some a) :
    ∀ b ∈ xs, p b = true → b = a ∨ R a b := by
  obtain ⟨-, earlier, later, rfl, hearlier⟩ := List.find?_eq_some_iff_append.mp h
  rw [List.pairwise_append, List.pairwise_cons] at hsorted
  intro b hb hp
  rcases List.mem_append.mp hb with hb | hb
  · -- What stands before the one that is found does not have the property.
    have hnot := hearlier b hb
    rw [hp] at hnot
    cases hnot
  · exact (List.mem_cons.mp hb).imp_right (hsorted.2.1.1 b)

/-- What is found in a registry is what a registration with the least priority registers. -/
theorem exists_isLeast_of_find? {rs : List Registration} {r : Rule} {o : Operation}
    (h : find? ⟨ordered rs⟩ r = some o) : ∃ e, IsLeast rs r e ∧ e.operation = o := by
  obtain ⟨e, he, rfl⟩ : ∃ e, (ordered rs).find? (fun e => e.operation.applies r) = some e ∧
      e.operation = o := by
    simpa [find?, List.find?_map, Function.comp_def] using h
  have hmem (e' : Registration) : e' ∈ ordered rs ↔ e' ∈ rs := (perm_ordered rs).mem_iff
  have happlies := List.find?_some he
  have hmem' : e ∈ rs := (hmem e).mp (List.mem_of_find?_eq_some he)
  refine ⟨e, ⟨hmem', happlies, fun e' he' happlies' => ?_⟩, rfl⟩
  rcases rel_of_find? (pairwise_ordered rs) he e' ((hmem e').mpr he') happlies' with rfl | hle
  · exact Int.le_refl _
  · exact hle

theorem isSome_find?_of_isLeast {rs : List Registration} {r : Rule} {e : Registration}
    (h : IsLeast rs r e) : (find? ⟨ordered rs⟩ r).isSome = true := by
  have hmem : e ∈ ordered rs := (perm_ordered rs).mem_iff.mpr h.mem
  rw [find?, List.find?_isSome]
  exact ⟨e.operation, List.mem_map_of_mem hmem, h.applies⟩

/-- Without collisions, operations that apply by their signatures have different priorities where
they apply to the same rule. -/
theorem IsLeast.unique {rs : List Registration} {r : Rule} {e e' : Registration}
    (hfree : rs.Pairwise Registration.Apart)
    (hsignature : ∀ e ∈ rs, e.operation.AppliesBySignature)
    (h : IsLeast rs r e) (h' : IsLeast rs r e') : e = e' := by
  by_contra hne
  have hapart : e.collides e' = false := hfree.forall h.mem h'.mem hne
  have haccepts : e.operation.signature.accepts r = true := by
    rw [← hsignature e h.mem]
    exact h.applies
  have haccepts' : e'.operation.signature.accepts r = true := by
    rw [← hsignature e' h'.mem]
    exact h'.applies
  have hpriority : e.priority = e'.priority :=
    Int.le_antisymm (h.le e' h'.mem h'.applies) (h'.le e h.mem h.applies)
  have hcollides : e.collides e' = true :=
    Registration.collides_iff.mpr ⟨hpriority, Signature.eq_of_accepts haccepts haccepts'⟩
  rw [hapart] at hcollides
  cases hcollides

/-- A rule belongs to the operation with the least priority among those with its signature. -/
theorem find?_eq_some_iff {rs : List Registration} {g : Registry} (h : build rs = .ok g)
    (hsignature : ∀ e ∈ rs, e.operation.AppliesBySignature) {r : Rule} {o : Operation} :
    g.find? r = some o ↔ ∃ e, IsLeast rs r e ∧ e.operation = o := by
  obtain ⟨hfree, rfl⟩ := build_eq_ok_iff.mp h
  refine ⟨exists_isLeast_of_find?, ?_⟩
  rintro ⟨e, hleast, rfl⟩
  obtain ⟨o, ho⟩ := Option.isSome_iff_exists.mp (isSome_find?_of_isLeast hleast)
  obtain ⟨e', hleast', rfl⟩ := exists_isLeast_of_find? ho
  rw [ho, hleast.unique hfree hsignature hleast']

end Registry

end SearchFilter
