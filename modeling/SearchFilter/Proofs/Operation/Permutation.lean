import Mathlib.Data.List.Basic
import SearchFilter.Proofs.Query.StockRegistry
import SearchFilter.Query.Compile

/-!
# The order of registration

Operations that apply by their signatures may be registered in any order. Either no order makes a
registry, or all of them make one, and then they all find the same operation for every rule. A tree
is written by the operations that its rules belong to, so its query is the same as well.
-/

namespace SearchFilter

namespace Compiler

variable {g g' : Registry}

theorem writeRule_congr (hfind : ∀ r, g.find? r = g'.find? r) (d : Dialect)
    (nested : Rule → Node → Except QueryError String) (r : Rule) :
    (Compiler.mk g d).writeRule nested r = (Compiler.mk g' d).writeRule nested r := by
  simp only [writeRule, hfind r]

mutual

/-- A registry takes part in writing only through what it finds. -/
theorem writeNode_congr (hfind : ∀ r, g.find? r = g'.find? r) (d : Dialect)
    (nested : Rule → Node → Except QueryError String) (n : Node) :
    (Compiler.mk g d).writeNode nested n = (Compiler.mk g' d).writeNode nested n := by
  match n with
  | .rule r =>
    rw [writeNode, writeNode]
    exact writeRule_congr hfind d nested r
  | .condition ⟨id, junction, boost, children⟩ =>
    rw [writeNode, writeNode]
    simp only [writeChildren_congr hfind d nested junction _ children]

theorem writeChildren_congr (hfind : ∀ r, g.find? r = g'.find? r) (d : Dialect)
    (nested : Rule → Node → Except QueryError String) (j : Junction) (start : Nat)
    (ns : List Node) : (Compiler.mk g d).writeChildren nested j start ns
      = (Compiler.mk g' d).writeChildren nested j start ns := by
  match ns with
  | [] => rw [writeChildren, writeChildren]
  | n :: ns =>
    rw [writeChildren, writeChildren, writeNode_congr hfind d nested n,
      writeChildren_congr hfind d nested j start ns]

end

/-- The same holds of all that operations ask for, on every level. -/
theorem nested_congr (hfind : ∀ r, g.find? r = g'.find? r) (d : Dialect) (levels : Nat) :
    (Compiler.mk g d).nested levels = (Compiler.mk g' d).nested levels := by
  induction levels with
  | zero => rfl
  | succ levels ih =>
    funext r n
    rw [nested, nested, ih, writeNode_congr hfind d _ n]

theorem compile_congr (hfind : ∀ r, g.find? r = g'.find? r) (d : Dialect) (n : Node) (room : Nat) :
    (Compiler.mk g d).compile n room = (Compiler.mk g' d).compile n room := by
  rw [compile, compile, nested_congr hfind d, writeNode_congr hfind d _ n]

end Compiler

namespace Registry

variable {rs rs' : List Registration}

theorem exists_build_of_perm {g : Registry} (hperm : rs.Perm rs') (h : build rs = .ok g) :
    ∃ g', build rs' = .ok g' := by
  obtain ⟨hapart, -⟩ := build_eq_ok_iff.mp h
  exact ⟨_, build_eq_ok_iff.mpr ⟨(hperm.pairwise_iff symm).mp hapart, rfl⟩⟩

theorem IsLeast.of_perm {r : Rule} {e : Registration} (hperm : rs.Perm rs')
    (h : IsLeast rs r e) : IsLeast rs' r e where
  mem := hperm.mem_iff.mp h.mem
  applies := h.applies
  le e' he' := h.le e' (hperm.mem_iff.mpr he')

theorem isLeast_iff_of_perm {r : Rule} {e : Registration} (hperm : rs.Perm rs') :
    IsLeast rs r e ↔ IsLeast rs' r e :=
  ⟨.of_perm hperm, .of_perm hperm.symm⟩

/-- The order of registration does not matter for operations that apply by their signatures: if one
order makes a registry then so does every other, and the registries find the same operations and
have the same queries or the same errors. -/
theorem registration_order_is_irrelevant (hperm : rs.Perm rs')
    (hsignature : ∀ e ∈ rs, e.operation.AppliesBySignature) :
    ((∃ g, build rs = .ok g) ↔ ∃ g', build rs' = .ok g') ∧
    ∀ g g', build rs = .ok g → build rs' = .ok g' →
      (∀ r, g.find? r = g'.find? r) ∧
      ∀ (d : Dialect) (n : Node) (room : Nat),
        (Compiler.mk g d).compile n room = (Compiler.mk g' d).compile n room := by
  have hsignature' : ∀ e ∈ rs', e.operation.AppliesBySignature := fun e he =>
    hsignature e (hperm.mem_iff.mpr he)
  refine ⟨⟨?_, ?_⟩, fun g g' h h' => ?_⟩
  · rintro ⟨g, h⟩
    exact exists_build_of_perm hperm h
  · rintro ⟨g', h'⟩
    exact exists_build_of_perm hperm.symm h'
  have hfind (r : Rule) : g.find? r = g'.find? r := by
    apply Option.ext
    intro o
    rw [find?_eq_some_iff h hsignature, find?_eq_some_iff h' hsignature']
    simp only [isLeast_iff_of_perm hperm]
  exact ⟨hfind, Compiler.compile_congr hfind⟩

/-- An operation that overrides the stock one for equal texts may be registered before the stock
operations or after them; it writes the texts of embedded queries too. -/
theorem registration_order_is_irrelevant_for_override :
    let override : Registration :=
      ⟨10, { name := "term", signature := ⟨.string, "equals"⟩,
             write := fun _ r => Writer.append ("term:" ++ r.field) }⟩
    let stock := StockOperation.registrations (Namespaces.toResolver {}) .standard
    let n : Node := .condition ⟨"c", .or, .none,
      [.rule ⟨"a", "title", .string, "equals", [.literal "x"], false⟩,
        .rule ⟨"b", "owner", .uri, "set_to_query",
          [.query (.rule ⟨"a", "name", .string, "equals", [.literal "y"], false⟩)], false⟩]⟩
    (override :: stock).Perm (stock ++ [override]) ∧
    (∀ e ∈ override :: stock, e.operation.AppliesBySignature) ∧
    ∃ g g', build (override :: stock) = .ok g ∧ build (stock ++ [override]) = .ok g' ∧
      (∀ r, g.find? r = g'.find? r) ∧
      (Compiler.mk g {}).compile n = .ok "(term:title OR owner:\x7bterm:name\x7d)" ∧
      (Compiler.mk g' {}).compile n = .ok "(term:title OR owner:\x7bterm:name\x7d)" := by
  intro override stock n
  have hperm : (override :: stock).Perm (stock ++ [override]) :=
    (List.perm_append_singleton override stock).symm
  have hsignature : ∀ e ∈ override :: stock, e.operation.AppliesBySignature := by
    rw [List.forall_mem_cons]
    refine ⟨rfl, fun e he => ?_⟩
    obtain ⟨o, -, rfl⟩ := List.mem_map.mp he
    rfl
  have hpriority : ∀ e ∈ stock, e.priority = Registration.defaultPriority := by
    intro e he
    obtain ⟨o, -, rfl⟩ := List.mem_map.mp he
    rfl
  have hbuild : build (override :: stock) = .ok ⟨override :: stock⟩ := by
    have hsorted : (override :: stock).Pairwise fun a b => a.priority ≤ b.priority := by
      refine List.pairwise_cons.mpr ⟨fun e he => ?_, StockOperation.pairwise_registrations _ _⟩
      rw [hpriority e he]
      decide
    rw [build_eq_ok_iff, ordered_of_pairwise hsorted]
    refine ⟨List.pairwise_cons.mpr ⟨fun e he => ?_, StockOperation.apart_registrations _ _⟩, rfl⟩
    rw [Registration.Apart, Registration.collides, hpriority e he]
    rfl
  have hall := registration_order_is_irrelevant hperm hsignature
  obtain ⟨g', hbuild'⟩ := hall.1.mp ⟨_, hbuild⟩
  obtain ⟨hfind, hcompile⟩ := hall.2 _ g' hbuild hbuild'
  have htext : (Compiler.mk ⟨override :: stock⟩ {}).compile n
      = .ok "(term:title OR owner:\x7bterm:name\x7d)" := by decide +kernel
  exact ⟨hperm, hsignature, _, g', hbuild, hbuild', hfind, htext, (hcompile {} n _).symm.trans htext⟩

end Registry

end SearchFilter
