import SearchFilter.Proofs.Operation.Registry
import SearchFilter.Query.Compile

/-!
# The order of look-up

A registry is walked in ascending order of priority, and within a priority in the order of
registration. So every registration has a place of its own in the walk, and a rule belongs to the
first registration on the walk that applies to it, whatever the others would do with the rule. Its
operation writes the rule, and the others only come in for the trees that this operation asks for.
-/

namespace SearchFilter

namespace Registration

/-- Of two registrations with their numbers in the order of registration, the first one is looked up
before the other. -/
def Before (a b : Registration × Nat) : Prop :=
  a.1.priority < b.1.priority ∨ a.1.priority = b.1.priority ∧ a.2 < b.2

theorem before_asymm {a b : Registration × Nat} (h : Before a b) : ¬ Before b a := by
  unfold Before at *
  omega

theorem before_trans {a b c : Registration × Nat} (hab : Before a b) (hbc : Before b c) :
    Before a c := by
  unfold Before at *
  omega

theorem before_of_zipIdxLE {a b : Registration × Nat} (hne : a.2 ≠ b.2)
    (h : List.zipIdxLE (fun a b => a.priority ≤ b.priority) a b = true) : Before a b := by
  simp only [List.zipIdxLE, decide_eq_true_eq] at h
  unfold Before
  split at h
  · split at h
    · have hle : a.2 ≤ b.2 := of_decide_eq_true h
      omega
    · omega
  · cases h

end Registration

namespace Registry

open Registration (Before before_asymm before_of_zipIdxLE)

/-! ## The walk -/

/-- The registrations with their numbers, in the order in which they are looked up. -/
def walk (rs : List Registration) : List (Registration × Nat) :=
  rs.zipIdx.mergeSort (List.zipIdxLE fun a b => a.priority ≤ b.priority)

theorem perm_walk (rs : List Registration) : (walk rs).Perm rs.zipIdx :=
  List.mergeSort_perm _ _

theorem map_fst_walk (rs : List Registration) : (walk rs).map Prod.fst = ordered rs :=
  List.mergeSort_zipIdx

theorem mem_walk {rs : List Registration} {a : Registration × Nat} :
    a ∈ walk rs ↔ a ∈ rs.zipIdx :=
  (perm_walk rs).mem_iff

theorem pairwise_walk (rs : List Registration) : (walk rs).Pairwise Before := by
  have hsorted : (walk rs).Pairwise fun a b =>
      List.zipIdxLE (fun a b => a.priority ≤ b.priority) a b = true :=
    List.pairwise_mergeSort (List.zipIdxLE_trans (by simp only [decide_eq_true_eq]; omega))
      (List.zipIdxLE_total (by simp only [Bool.or_eq_true, decide_eq_true_eq]; omega)) rs.zipIdx
  have hnumbers : ((walk rs).map Prod.snd).Nodup := by
    rw [((perm_walk rs).map Prod.snd).nodup_iff, List.zipIdx_map_snd]
    exact List.nodup_range'
  exact ((List.pairwise_map.mp hnumbers).and hsorted).imp fun h => before_of_zipIdxLE h.1 h.2

/-- There is only one walk: no other order of the registrations is ascending. -/
theorem eq_walk_of_perm {rs : List Registration} {order : List (Registration × Nat)}
    (hperm : order.Perm rs.zipIdx) (hsorted : order.Pairwise Before) : order = walk rs :=
  (hperm.trans (perm_walk rs).symm).eq_of_pairwise
    (fun _ _ _ _ hab hba => absurd hba (before_asymm hab)) hsorted (pairwise_walk rs)

/-! ## The first registration that applies -/

/-- The registration is the first one in the order of look-up that applies to a rule. -/
structure IsFirst (rs : List Registration) (r : Rule) (a : Registration × Nat) : Prop where
  mem : a ∈ rs.zipIdx
  applies : a.1.operation.applies r = true
  before : ∀ b ∈ rs.zipIdx, b.1.operation.applies r = true → b ≠ a → Before a b

theorem IsFirst.unique {rs : List Registration} {r : Rule} {a b : Registration × Nat}
    (ha : IsFirst rs r a) (hb : IsFirst rs r b) : a = b := by
  by_contra hne
  have hbefore : Before a b := ha.before b hb.mem hb.applies fun heq => hne heq.symm
  exact before_asymm hbefore (hb.before a ha.mem ha.applies hne)

theorem isFirst_of_find?_walk {rs : List Registration} {r : Rule} {a : Registration × Nat}
    (h : (walk rs).find? (fun a => a.1.operation.applies r) = some a) : IsFirst rs r a := by
  have happlies := List.find?_some h
  refine ⟨mem_walk.mp (List.mem_of_find?_eq_some h), happlies, fun b hb hb' hne => ?_⟩
  exact (rel_of_find? (pairwise_walk rs) h b (mem_walk.mpr hb) hb').resolve_left hne

/-- A rule belongs to the first registration that applies to it. -/
theorem find?_ordered_eq_some_iff {rs : List Registration} {r : Rule} {o : Operation} :
    find? ⟨ordered rs⟩ r = some o ↔ ∃ a, IsFirst rs r a ∧ a.1.operation = o := by
  have hfind : find? ⟨ordered rs⟩ r
      = ((walk rs).find? fun a => a.1.operation.applies r).map fun a => a.1.operation := by
    rw [find?, ← map_fst_walk, List.map_map, List.find?_map]
    rfl
  rw [hfind, Option.map_eq_some_iff]
  constructor
  · rintro ⟨a, ha, rfl⟩
    exact ⟨a, isFirst_of_find?_walk ha, rfl⟩
  · rintro ⟨a, ha, rfl⟩
    have hsome : ((walk rs).find? fun a => a.1.operation.applies r).isSome = true :=
      List.find?_isSome.mpr ⟨a, mem_walk.mpr ha.mem, ha.applies⟩
    obtain ⟨b, hb⟩ := Option.isSome_iff_exists.mp hsome
    rw [ha.unique (isFirst_of_find?_walk hb)]
    exact ⟨b, hb, rfl⟩

theorem find?_ordered_eq_none_iff {rs : List Registration} {r : Rule} :
    find? ⟨ordered rs⟩ r = none ↔ ∀ e ∈ rs, e.operation.applies r = false := by
  simp only [find?, List.find?_map, Option.map_eq_none_iff, List.find?_eq_none, Function.comp_apply,
    Bool.not_eq_true, (perm_ordered rs).mem_iff]

end Registry

/-- The error for a rule that does not have the number of values that the operation takes. -/
def Operation.arityError (o : Operation) (r : Rule) : QueryError :=
  .malformed r (.wrongArity o.arity r.values.length)

namespace Compiler

variable {c : Compiler} {r : Rule} {o : Operation}

/-- A rule with the right number of values is written by its operation. -/
theorem writeNode_of_find? (h : c.registry.find? r = some o)
    (harity : o.arity.accepts r.values.length = true)
    (nested : Rule → Node → Except QueryError String) :
    c.writeNode nested (.rule r) = o.write ⟨c.dialect, nested r⟩ r := by
  rw [writeNode, writeRule, h]
  exact if_pos harity

/-- Whatever was written before, a rule with the wrong number of values for its operation is
malformed. -/
theorem writeNode_of_wrongArity (h : c.registry.find? r = some o)
    (harity : o.arity.accepts r.values.length = false)
    (nested : Rule → Node → Except QueryError String) :
    c.writeNode nested (.rule r) = throw (o.arityError r) := by
  rw [writeNode, writeRule, h, Operation.arityError]
  simp only [harity, Bool.false_eq_true, if_false]

end Compiler

/-- A registry holds the registrations in ascending order of priority and number, and a rule belongs
to the first of them that applies to it. No other one is consulted for the rule. If the operation
takes the number of values it writes the rule, in the context of the compiler itself, and otherwise
the rule is malformed. -/
theorem Registry.consults_first_applicable_only {rs : List Registration} {g : Registry}
    (h : build rs = .ok g) :
    (∃ order : List (Registration × Nat), order.Perm rs.zipIdx ∧
      order.Pairwise Registration.Before ∧ g.entries = order.map Prod.fst) ∧
    ∀ r : Rule,
      (g.find? r = none ↔ ∀ e ∈ rs, e.operation.applies r = false) ∧
      (∀ o, g.find? r = some o ↔ ∃ a, IsFirst rs r a ∧ a.1.operation = o) ∧
      ∀ a, IsFirst rs r a → ∀ d : Dialect,
        (a.1.operation.arity.accepts r.values.length = true →
          (∀ nested, (Compiler.mk g d).writeNode nested (.rule r)
            = a.1.operation.write ⟨d, nested r⟩ r) ∧
          ∀ room, (Compiler.mk g d).compile (.rule r) room = do
            (Node.rule r).checkIds
            (a.1.operation.write
              ⟨d, (Compiler.mk g d).nested ((Node.rule r).height + room) r⟩ r).text) ∧
        (a.1.operation.arity.accepts r.values.length = false →
          (∀ nested s, ((Compiler.mk g d).writeNode nested (.rule r)).run s
            = .error (a.1.operation.arityError r) s) ∧
          ∀ room, (Compiler.mk g d).compile (.rule r) room
            = do (Node.rule r).checkIds; .error (a.1.operation.arityError r)) := by
  obtain ⟨-, rfl⟩ := build_eq_ok_iff.mp h
  refine ⟨⟨walk rs, perm_walk rs, pairwise_walk rs, (map_fst_walk rs).symm⟩, fun r => ?_⟩
  refine ⟨find?_ordered_eq_none_iff, fun o => find?_ordered_eq_some_iff, fun a ha d => ?_⟩
  have hfind : find? ⟨ordered rs⟩ r = some a.1.operation :=
    find?_ordered_eq_some_iff.mpr ⟨a, ha, rfl⟩
  refine ⟨fun harity => ?_, fun harity => ?_⟩
  · have hwrite (nested : Rule → Node → Except QueryError String) :
        (Compiler.mk ⟨ordered rs⟩ d).writeNode nested (.rule r)
          = a.1.operation.write ⟨d, nested r⟩ r :=
      Compiler.writeNode_of_find? hfind harity nested
    refine ⟨hwrite, fun room => ?_⟩
    rw [Compiler.compile, hwrite]
  · have hwrite (nested : Rule → Node → Except QueryError String) :
        (Compiler.mk ⟨ordered rs⟩ d).writeNode nested (.rule r)
          = throw (a.1.operation.arityError r) :=
      Compiler.writeNode_of_wrongArity hfind harity nested
    refine ⟨fun nested s => ?_, fun room => ?_⟩
    · rw [hwrite]
      rfl
    · rw [Compiler.compile, hwrite]
      rfl

/-- Operations whose tests overlap, registered out of order. The pair that the rule `r` belongs to
takes two values, so the rule is malformed, although the operation behind it would take the one
value. The negation that `n` belongs to asks for the query of a rule that it makes. -/
theorem Registry.consults_first_applicable_only_with_overlaps :
    let field (_ : Context) (r : Rule) : Writer Unit := Writer.append r.field
    let any : Registration := ⟨5,
      { name := "any", signature := ⟨.string, "like"⟩, applies := fun _ => true, write := field }⟩
    let day : Registration := ⟨-3,
      { name := "day", signature := ⟨.date, "equals"⟩, write := field }⟩
    let negation : Registration := ⟨-2,
      { name := "not", signature := ⟨.date, "not"⟩,
        write := fun cx r => do
          let query ← Writer.lift (cx.compile (.rule { r with operation := "equals" }))
          Writer.append ("NOT " ++ query) }⟩
    let pair : Registration := ⟨-1,
      { name := "pair", signature := ⟨.string, "near"⟩, arity := .exactly 2,
        applies := fun r => r.type == .string, write := field }⟩
    let term : Registration := ⟨-1,
      { name := "term", signature := ⟨.string, "equals"⟩, write := field }⟩
    let rs := [any, day, negation, pair, term]
    let g : Registry := ⟨[day, negation, pair, term, any]⟩
    let r : Rule := ⟨"r", "title", .string, "equals", [.literal "x"], true⟩
    let n : Rule := ⟨"n", "born", .date, "not", [.literal "x"], false⟩
    build rs = .ok g ∧ IsFirst rs r (pair, 3) ∧ g.find? r = some pair.operation ∧
      term.operation.applies r = true ∧ term.operation.arity.accepts 1 = true ∧
      (Compiler.mk g {}).compile (.rule r) = .error (.malformed r (.wrongArity (.exactly 2) 1)) ∧
      IsFirst rs n (negation, 2) ∧ (Compiler.mk g {}).compile (.rule n) = .ok "NOT born" := by
  intro field any day negation pair term rs g r n
  have hwalk : [(day, 1), (negation, 2), (pair, 3), (term, 4), (any, 0)] = walk rs := by
    refine eq_walk_of_perm (List.perm_append_singleton (any, 0)
      [(day, 1), (negation, 2), (pair, 3), (term, 4)]) ?_
    simp [any, day, negation, pair, term, Registration.Before]
  have hordered : ordered rs = g.entries := by
    rw [← map_fst_walk, ← hwalk]
    rfl
  have hapart : rs.Pairwise Registration.Apart := by
    simp [rs, any, day, negation, pair, term, Registration.Apart, Registration.collides]
  have hbuild : build rs = .ok g := build_eq_ok_iff.mpr ⟨hapart, by rw [hordered]⟩
  have hfirst : IsFirst rs r (pair, 3) := by
    refine ⟨by simp [rs], rfl, fun b hb happlies hne => ?_⟩
    simp only [rs, List.zipIdx_cons, List.zipIdx_nil, List.mem_cons, List.not_mem_nil,
      or_false] at hb
    rcases hb with rfl | rfl | rfl | rfl | rfl
    · exact .inl (by decide)
    · cases happlies
    · cases happlies
    · exact absurd rfl hne
    · exact .inr ⟨rfl, by decide⟩
  have hfirst' : IsFirst rs n (negation, 2) := by
    refine ⟨by simp [rs], rfl, fun b hb happlies hne => ?_⟩
    simp only [rs, List.zipIdx_cons, List.zipIdx_nil, List.mem_cons, List.not_mem_nil,
      or_false] at hb
    rcases hb with rfl | rfl | rfl | rfl | rfl
    · exact .inl (by decide)
    · cases happlies
    · exact absurd rfl hne
    · cases happlies
    · cases happlies
  obtain ⟨-, hrule⟩ := consults_first_applicable_only hbuild
  obtain ⟨-, hfind, hwrite⟩ := hrule r
  obtain ⟨-, harity⟩ := hwrite _ hfirst {}
  obtain ⟨hwritten, -⟩ := (hrule n).2.2 _ hfirst' {}
  exact ⟨hbuild, hfirst, (hfind _).mpr ⟨_, hfirst, rfl⟩, rfl, rfl, (harity rfl).2 _, hfirst',
    (hwritten rfl).2 _⟩

end SearchFilter
