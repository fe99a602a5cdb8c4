import SearchFilter.Proofs.Query.Failure
import SearchFilter.Proofs.Query.Spelling
import SearchFilter.Proofs.Tree.Height
import SearchFilter.Proofs.Tree.Repetition

/-!
# Checking ids once

The ids of a tree and of all queries embedded in it are checked before anything is written, and the
embedded queries are then written without another check. A compiler that checks each embedded query
again before it is written has the same results. What a decoded tree can still fail for is one of
its rules.
-/

namespace SearchFilter

namespace Compiler

/-! ## A compiler that checks again -/

/-- The answer to an operation by a compiler that checks each tree again before it is written. -/
def nestedChecking (c : Compiler) : Nat → Rule → Node → Except QueryError String
  | 0, r, _ => .error (.malformed r .noLevelLeft)
  | levels + 1, _, n => do
    n.checkIds
    (c.writeNode (c.nestedChecking levels) n).text

/-- The query of a tree, where each tree that an operation asks for is checked again, as often as it
is asked for. -/
def compileChecking (c : Compiler) (n : Node) (room : Nat := 64) : Except QueryError String := do
  n.checkIds
  (c.writeNode (c.nestedChecking (n.height + room)) n).text

/-- A tree that passes the check is answered by its text, as each query embedded in it passes. -/
theorem nestedChecking_eq_nodeText {c : Compiler} (h : c.registry.IsStock) (levels : Nat)
    (r : Rule) (n : Node) (hlevels : n.height ≤ levels) (hids : n.checkIds = .ok ()) :
    c.nestedChecking levels r n = c.nodeText n := by
  induction levels generalizing r n with
  | zero =>
    have hpos := n.height_pos
    omega
  | succ levels ih =>
    rw [nestedChecking, hids, except_ok_bind]
    refine text_writeNode h n fun r m hm => ?_
    have hlt : m.height < n.height := n.height_lt_of_mem_embedded m hm
    exact ih r m (by omega) (Node.checkIds_of_mem_embedded hids m hm)

/-- The compiler that checks again has the same results. -/
theorem compileChecking_eq {c : Compiler} (h : c.registry.IsStock) (n : Node) (room : Nat) :
    c.compileChecking n room = c.compile n room := by
  rw [compileChecking, compile_eq_nodeText h]
  cases hids : n.checkIds with
  | error e => rfl
  | ok u =>
    refine text_writeNode h n fun r m hm => ?_
    have hlt : m.height < n.height := n.height_lt_of_mem_embedded m hm
    have hm' := Node.checkIds_of_mem_embedded hids m hm
    exact nestedChecking_eq_nodeText h _ r m (by omega) hm'

end Compiler

/-! ## Why a rule has no text -/

/-- The error is about the rule: no operation applies to it, or the one that does cannot write
it. -/
def QueryError.IsOfRule (e : QueryError) (r : Rule) : Prop :=
  e = .unknown r ∨ ∃ fault, e = .malformed r fault

namespace Clause

variable (res : Resolver) (r : Rule)

theorem failsOnly_fieldOf : FailsOnly (·.IsOfRule r) (fieldOf res r) := by
  rw [fieldOf]
  split
  · exact .error (.inr ⟨_, rfl⟩)
  · exact .ite (.ok _) (.error (.inr ⟨_, rfl⟩))

theorem failsOnly_literalAt (i : Nat) : FailsOnly (·.IsOfRule r) (literalAt r i) := by
  rw [literalAt]
  split
  · exact .ok _
  · exact .error (.inr ⟨_, rfl⟩)

theorem failsOnly_truthOf (literal : String) : FailsOnly (·.IsOfRule r) (truthOf r literal) :=
  .ite (.ok _) (.ite (.ok _) (.error (.inr ⟨_, rfl⟩)))

theorem failsOnly_scalarOf (literal : String) : FailsOnly (·.IsOfRule r) (scalarOf r literal) := by
  unfold scalarOf
  dsimp only
  split
  · exact .ite (.ok _) (.error (.inr ⟨_, rfl⟩))
  · exact .ite (.ok _) (.error (.inr ⟨_, rfl⟩))
  · exact .ok _

theorem failsOnly_checkBounds (lower upper : String) :
    FailsOnly (·.IsOfRule r) (checkBounds r lower upper) :=
  .ite (.error (.inr ⟨_, rfl⟩)) (.ok _)

theorem TextTest.failsOnly_clause (t : TextTest) : FailsOnly (·.IsOfRule r) (t.clause res r) := by
  apply (failsOnly_fieldOf res r).bind
  intro field
  cases t with
  | anyOf => exact (FailsOnly.mapM (failsOnly_literalAt r) _).bind fun _ => .ok _
  | _ => exact (failsOnly_literalAt r 0).bind fun _ => .ok _

theorem IntervalTest.failsOnly_clause (t : IntervalTest) :
    FailsOnly (·.IsOfRule r) (t.clause res r) := by
  apply (failsOnly_fieldOf res r).bind
  intro field
  apply (failsOnly_literalAt r 0).bind
  intro literal
  apply (failsOnly_scalarOf r literal).bind
  intro value
  cases t with
  | between =>
    apply (failsOnly_literalAt r 1).bind
    intro literal'
    apply (failsOnly_scalarOf r literal').bind
    intro upper
    exact (failsOnly_checkBounds r value upper).bind fun _ => .ok _
  | _ => exact .ok _

theorem failsOnly_truthClause (inverted : Bool) :
    FailsOnly (·.IsOfRule r) (truthClause inverted res r) := by
  apply (failsOnly_fieldOf res r).bind
  intro field
  apply (failsOnly_literalAt r 0).bind
  intro literal
  exact (failsOnly_truthOf r literal).bind fun _ => .ok _

theorem failsOnly_presenceClause (present : Bool) :
    FailsOnly (·.IsOfRule r) (presenceClause present res r) :=
  (failsOnly_fieldOf res r).bind fun _ => .ok _

/-- A traversal fails as its rule, or as the query that is embedded in it. -/
theorem Traversal.failsOnly_clause (form : Traversal) (inverted : Bool)
    (embedded : Option (Except QueryError String)) :
    FailsOnly (fun e => e.IsOfRule r ∨ embedded = some (.error e))
      (form.clause inverted res embedded r) := by
  have hfield : FailsOnly (fun e => e.IsOfRule r ∨ embedded = some (.error e)) (fieldOf res r) :=
    (failsOnly_fieldOf res r).mono fun _ => .inl
  apply hfield.bind
  intro field
  cases h : embedded with
  | none => exact .error (.inl (.inr ⟨_, rfl⟩))
  | some result =>
    dsimp only
    cases result with
    | error e => exact .error (.inr rfl)
    | ok query => exact .ite (.error (.inl (.inr ⟨_, rfl⟩))) (.ok _)

end Clause

theorem StockOperation.failsOnly_clause (o : StockOperation) (res : Resolver)
    (form : Clause.Traversal) (embedded : Option (Except QueryError String)) (r : Rule) :
    FailsOnly (fun e => e.IsOfRule r ∨ embedded = some (.error e))
      (o.clause res form embedded r) := by
  cases o with
  | text t type => exact (t.failsOnly_clause res r).mono fun _ => .inl
  | interval t type => exact (t.failsOnly_clause res r).mono fun _ => .inl
  | truth inverted => exact (Clause.failsOnly_truthClause res r inverted).mono fun _ => .inl
  | presence present type =>
    exact (Clause.failsOnly_presenceClause res r present).mono fun _ => .inl
  | traversal inverted => exact form.failsOnly_clause res r inverted embedded

/-! ## Why a tree has no text -/

/-- The error is about one of the rules, or about a rule of one of the trees. -/
def QueryError.IsAmong (e : QueryError) (rs : List Rule) (ns : List Node) : Prop :=
  ∃ r, (r ∈ rs ∨ ∃ n ∈ ns, r ∈ n.rules) ∧ e.IsOfRule r

theorem QueryError.IsAmong.mono {e : QueryError} {rs rs' : List Rule} {ns ns' : List Node}
    (h : e.IsAmong rs ns) (hrules : rs ⊆ rs') (hnodes : ns ⊆ ns') : e.IsAmong rs' ns' := by
  obtain ⟨r, hr | ⟨n, hn, hr⟩, he⟩ := h
  · exact ⟨r, .inl (hrules hr), he⟩
  · exact ⟨r, .inr ⟨n, hnodes hn, hr⟩, he⟩

namespace Compiler

variable {res : Resolver} {form : Clause.Traversal} {d : Dialect}

theorem failsOnly_ruleText (nested : Node → Except QueryError String) (r : Rule) :
    FailsOnly (fun e => e.IsOfRule r ∨ (r.query? 0).map nested = some (.error e))
      ((stock res form d).ruleText nested r) := by
  rw [ruleText_eq_clause]
  split
  · exact .ite (.ok _) (.error (.inl (.inl rfl)))
  · exact .ite ((StockOperation.failsOnly_clause _ res form _ r).map _)
      (.error (.inl (.inr ⟨_, rfl⟩)))

mutual

theorem failsOnly_nodeText (n : Node) :
    FailsOnly (fun e => e.IsAmong n.rules n.embedded) ((stock res form d).nodeText n) := by
  match n with
  | .rule ⟨id, field, type, operation, values, optional⟩ =>
    rw [nodeText_rule (isStock_stock res form d)]
    intro e he
    rcases failsOnly_ruleText _ _ e he with hrule | hembedded
    · exact ⟨_, .inl (List.mem_singleton.mpr rfl), hrule⟩
    · rw [Node.embedded]
      have hamong := isAmong_of_firstQuery values hembedded
      exact hamong.mono (List.nil_subset _) (List.Subset.refl _)
  | .condition ⟨id, junction, boost, children⟩ =>
    rw [nodeText, Node.rules, Node.embedded]
    exact (failsOnly_memberTexts children).bind fun _ => .ok _

theorem failsOnly_memberTexts (ns : List Node) :
    FailsOnly (fun e => e.IsAmong (Node.rulesOfAll ns) (Node.embeddedOfAll ns))
      ((stock res form d).memberTexts ns) := by
  match ns with
  | [] => exact .ok []
  | n :: ns =>
    rw [memberTexts, Node.rulesOfAll, Node.embeddedOfAll]
    have hn : FailsOnly
        (fun e => e.IsAmong (n.rules ++ Node.rulesOfAll ns) (n.embedded ++ Node.embeddedOfAll ns))
        ((stock res form d).nodeText n) := fun e he =>
      (failsOnly_nodeText n e he).mono (List.subset_append_left _ _) (List.subset_append_left _ _)
    have hns : FailsOnly
        (fun e => e.IsAmong (n.rules ++ Node.rulesOfAll ns) (n.embedded ++ Node.embeddedOfAll ns))
        ((stock res form d).memberTexts ns) := fun e he =>
      (failsOnly_memberTexts ns e he).mono (List.subset_append_right _ _)
        (List.subset_append_right _ _)
    exact hn.bind fun _ => hns.bind fun _ => .ok _

theorem isAmong_of_firstQuery (vs : List Value) {e : QueryError}
    (h : (vs[0]?.bind Value.query?).map (stock res form d).nodeText = some (.error e)) :
    e.IsAmong [] (Node.embeddedOfValues vs) := by
  match vs with
  | [] => cases h
  | .literal _ :: _ => cases h
  | .query n :: vs =>
    have hn : (stock res form d).nodeText n = .error e := Option.some.inj h
    rw [Node.embeddedOfValues]
    obtain ⟨r, hr | ⟨m, hm, hr⟩, he⟩ := failsOnly_nodeText n e hn
    · exact ⟨r, .inr ⟨n, List.mem_cons_self, hr⟩, he⟩
    · exact ⟨r, .inr ⟨m, List.mem_cons_of_mem n (List.mem_append_left _ hm), hr⟩, he⟩

end

/-- A tree with unique ids has no query only because of a rule of the tree, or of a query embedded
in it. -/
theorem isAmong_of_compile {n : Node} {e : QueryError} (hids : n.checkIds = .ok ())
    (h : (stock res form d).compile n = .error e) : e.IsAmong n.rules n.embedded := by
  rw [compile_eq_nodeText (isStock_stock res form d), hids, except_ok_bind] at h
  exact failsOnly_nodeText n e h

/-- The ids are checked once, before anything is written: each query embedded in a tree that passes
has different ids in its own scope and passes itself, and to check it again before it is written
changes nothing. A tree that was decoded has passed already, so if it has no query, this is because
of one of its rules. -/
theorem checking_ids_once_is_enough (res : Resolver) (form : Clause.Traversal) (d : Dialect) :
    ∃ g, Registry.build (StockOperation.registrations res form) = .ok g ∧
      (∀ (n : Node) (room : Nat),
        (Compiler.mk g d).compileChecking n room = (Compiler.mk g d).compile n room) ∧
      (∀ n : Node, n.checkIds = .ok () → ∀ m ∈ n.embedded, m.checkIds = .ok () ∧ m.ids.Nodup) ∧
      ∀ (v : Json) (n : Node) (e : QueryError), Node.ofJson v = .ok n →
        (Compiler.mk g d).compile n = .error e →
        ∃ r, (r ∈ n.rules ∨ ∃ m ∈ n.embedded, r ∈ m.rules) ∧
          (e = .unknown r ∨ ∃ fault, e = .malformed r fault) := by
  refine ⟨_, StockOperation.build_registrations res form, ?_, ?_, ?_⟩
  · exact fun n room => compileChecking_eq (isStock_stock res form d) n room
  · intro n hids m hm
    have hpasses := Node.checkIds_of_mem_embedded hids m hm
    exact ⟨hpasses, Node.nodup_ids_of_checkIds hpasses⟩
  · intro v n e hv he
    exact isAmong_of_compile (Node.eq_of_ofJson hv).2 he

/-- A query embedded in an embedded query. The ids of the outermost tree are used again in both,
and the innermost one has a rule without an operation. -/
theorem checking_ids_once_is_enough_in_traversals :
    let res := Namespaces.toResolver {}
    let g : Registry := ⟨StockOperation.registrations res .standard⟩
    let unknown : Rule := ⟨"b", "name", .string, "fuzzy", [.literal "x"], false⟩
    let innermost : Node := .condition ⟨"a", .and, .none, [.rule unknown]⟩
    let inner : Node := .condition ⟨"b", .or, .must,
      [.rule ⟨"a", "team", .uri, "not_set_to_query", [.query innermost], false⟩]⟩
    let n : Node := .condition ⟨"a", .and, .none,
      [.rule ⟨"b", "owner", .uri, "set_to_query", [.query inner], false⟩]⟩
    let e := QueryError.unknown unknown
    Node.ofJson n.toJson = .ok n ∧ n.checkIds = .ok () ∧ innermost ∈ n.embedded ∧
      innermost.checkIds = .ok () ∧ innermost.ids.Nodup ∧
      (Compiler.mk g {}).compile n = .error e ∧
      (Compiler.mk g {}).compileChecking n = .error e ∧
      ∃ r, (r ∈ n.rules ∨ ∃ m ∈ n.embedded, r ∈ m.rules) ∧
        (e = .unknown r ∨ ∃ fault, e = .malformed r fault) := by
  intro res g unknown innermost inner n e
  obtain ⟨g', hg', hsame, hunique, hcause⟩ := checking_ids_once_is_enough res .standard {}
  obtain rfl : g = g' := StockOperation.eq_of_build_registrations hg'
  have hv : Node.ofJson n.toJson = .ok n := by decide +kernel
  have hids : n.checkIds = .ok () := by rfl
  have hmem : innermost ∈ n.embedded := List.mem_cons_of_mem inner List.mem_cons_self
  have he : (Compiler.mk g {}).compile n = .error e := by decide +kernel
  obtain ⟨hpasses, hnodup⟩ := hunique n hids innermost hmem
  exact ⟨hv, hids, hmem, hpasses, hnodup, he, (hsame n _).trans he, hcause n.toJson n e hv he⟩

end Compiler

end SearchFilter
