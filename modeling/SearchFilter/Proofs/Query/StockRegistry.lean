import Mathlib.Data.List.Nodup
import SearchFilter.Catalogue
import SearchFilter.Proofs.Operation.Registry

/-!
# The registry of the stock operations

No two stock operations claim the same signature, so they can always be registered together, and a
rule belongs to the one stock operation with its signature.
-/

namespace SearchFilter

namespace StockOperation

/-- The stock operation to which a rule belongs. -/
def find? (r : Rule) : Option StockOperation :=
  catalogue.find? fun o => o.signature.accepts r

theorem nodup_signatures : (catalogue.map signature).Nodup := by decide

theorem accepts_of_find? {r : Rule} {o : StockOperation} (h : find? r = some o) :
    o ∈ catalogue ∧ o.signature.accepts r = true := by
  rw [find?] at h
  have haccepts := List.find?_some h
  exact ⟨List.mem_of_find?_eq_some h, haccepts⟩

/-- A rule belongs to a stock operation exactly if the operation's signature names it. -/
theorem find?_eq_some_iff {r : Rule} {o : StockOperation} :
    find? r = some o ↔ o ∈ catalogue ∧ o.signature.accepts r = true := by
  constructor
  · exact accepts_of_find?
  · rintro ⟨hmem, haccepts⟩
    have hsome : (find? r).isSome = true := List.find?_isSome.mpr ⟨o, hmem, haccepts⟩
    obtain ⟨o', ho'⟩ := Option.isSome_iff_exists.mp hsome
    obtain ⟨hmem', haccepts'⟩ := accepts_of_find? ho'
    have hsignature : o'.signature = o.signature := Signature.eq_of_accepts haccepts' haccepts
    rw [ho', List.inj_on_of_nodup_map nodup_signatures hmem' hmem hsignature]

theorem apart_registrations (res : Resolver) (form : Clause.Traversal) :
    (registrations res form).Pairwise Registration.Apart := by
  rw [registrations, List.pairwise_map]
  refine (List.pairwise_map.mp nodup_signatures).imp fun hne => ?_
  rw [Registration.Apart, Bool.eq_false_iff]
  exact fun hcollides => hne (Registration.collides_iff.mp hcollides).2

theorem pairwise_registrations (res : Resolver) (form : Clause.Traversal) :
    (registrations res form).Pairwise fun a b => a.priority ≤ b.priority := by
  rw [registrations, List.pairwise_map]
  exact List.pairwise_of_forall fun _ _ => Int.le_refl _

/-- The stock operations can be registered together, and are looked up in their order. -/
theorem build_registrations (res : Resolver) (form : Clause.Traversal) :
    Registry.build (registrations res form) = .ok ⟨registrations res form⟩ := by
  rw [Registry.build_eq_ok_iff, Registry.ordered_of_pairwise (pairwise_registrations res form)]
  exact ⟨apart_registrations res form, rfl⟩

/-- There is one registry of the stock operations. -/
theorem eq_of_build_registrations {res : Resolver} {form : Clause.Traversal} {g : Registry}
    (h : Registry.build (registrations res form) = .ok g) : ⟨registrations res form⟩ = g :=
  Except.ok.inj ((build_registrations res form).symm.trans h)

theorem find?_registrations (res : Resolver) (form : Clause.Traversal) (r : Rule) :
    Registry.find? ⟨registrations res form⟩ r
      = (find? r).map fun o => o.toOperation res form := by
  simp only [Registry.find?, registrations, List.map_map, List.find?_map, find?]
  rfl

/-- A rule that asks for a traversal has an operation if its values are queries. -/
theorem find?_of_traversal (inverted : Bool) {r : Rule}
    (h : r.operation = (traversal inverted).signature.operation) :
    find? r = if r.type = .uri then some (traversal inverted) else none := by
  have huri : ∀ o ∈ catalogue, o.signature.operation = (traversal inverted).signature.operation →
      o.signature.type = .uri := by cases inverted <;> decide
  have htype : (traversal inverted).signature.type = .uri := by cases inverted <;> rfl
  have hmem : traversal inverted ∈ catalogue := by cases inverted <;> decide
  by_cases hr : r.type = .uri
  · rw [if_pos hr, find?_eq_some_iff]
    exact ⟨hmem, by simp [Signature.accepts, htype, hr, h]⟩
  · rw [if_neg hr, find?, List.find?_eq_none]
    intro o ho haccepts
    simp only [Signature.accepts, Bool.and_eq_true, beq_iff_eq] at haccepts
    exact hr (haccepts.1 ▸ huri o ho (haccepts.2.trans h))

end StockOperation

end SearchFilter
