import SearchFilter.Proofs.Query.Spelling

/-!
# Rules that are written alike

A stock operation looks at the field, the type, the operation and the literals of a rule, and a
traversal takes the text of the query that is the only value. Rules that agree in these have the
same text, whatever their ids are and whichever trees they embed.
-/

namespace SearchFilter

/-- The rules agree in all that an operation looks at: the ids, the optional flags and the trees of
embedded queries may be different. -/
structure Rule.Alike (r r' : Rule) : Prop where
  field : r.field = r'.field
  type : r.type = r'.type
  operation : r.operation = r'.operation
  literals : r.values.map Value.literal? = r'.values.map Value.literal?

namespace Rule.Alike

variable {r r' : Rule}

theorem length_values (h : r.Alike r') : r.values.length = r'.values.length := by
  simpa using congrArg List.length h.literals

theorem literal?_eq (h : r.Alike r') (i : Nat) : r.literal? i = r'.literal? i := by
  have hget := congrArg (fun literals => literals[i]?.bind fun s => s) h.literals
  simpa [Rule.literal?, Option.bind_map, Function.comp_def] using hget

theorem unknown_eq (h : r.Alike r') : QueryError.unknown r = QueryError.unknown r' := by
  rw [QueryError.unknown, QueryError.unknown, h.field, h.operation, h.type]

theorem malformed_eq (h : r.Alike r') (fault : RuleFault) :
    QueryError.malformed r fault = QueryError.malformed r' fault := by
  rw [QueryError.malformed, QueryError.malformed, h.field, h.operation]

theorem find?_eq (h : r.Alike r') : StockOperation.find? r = StockOperation.find? r' := by
  simp only [StockOperation.find?, Signature.accepts, h.type, h.operation]

end Rule.Alike

namespace Clause

open Query

variable {r r' : Rule}

theorem fieldOf_alike (h : r.Alike r') (res : Resolver) : fieldOf res r = fieldOf res r' := by
  simp only [fieldOf, h.field, h.malformed_eq]

theorem literalAt_alike (h : r.Alike r') (i : Nat) : literalAt r i = literalAt r' i := by
  simp only [literalAt, h.literal?_eq, h.malformed_eq]

theorem allLiterals_alike (h : r.Alike r') : allLiterals r = allLiterals r' := by
  have hliterals : literalAt r = literalAt r' := funext (literalAt_alike h)
  rw [allLiterals, allLiterals, h.length_values, hliterals]

theorem truthOf_alike (h : r.Alike r') (literal : String) :
    truthOf r literal = truthOf r' literal := by
  simp only [truthOf, h.malformed_eq]

theorem scalarOf_alike (h : r.Alike r') (literal : String) :
    scalarOf r literal = scalarOf r' literal := by
  simp only [scalarOf, h.type, h.malformed_eq]

theorem checkBounds_alike (h : r.Alike r') (lower upper : String) :
    checkBounds r lower upper = checkBounds r' lower upper := by
  simp only [checkBounds, h.type, h.malformed_eq]

end Clause

open Clause in
/-- A stock operation has the same clause for rules that are alike. Only a traversal looks at the
text of the embedded query. -/
theorem StockOperation.clause_alike {r r' : Rule} (h : r.Alike r') (o : StockOperation)
    (res : Resolver) (form : Traversal) {embedded embedded' : Option (Except QueryError String)}
    (hembedded : ∀ inverted, o = .traversal inverted → embedded = embedded') :
    o.clause res form embedded r = o.clause res form embedded' r' := by
  cases o with
  | text t type =>
    simp only [clause, TextTest.clause, fieldOf_alike h, literalAt_alike h, allLiterals_alike h]
  | interval t type =>
    simp only [clause, IntervalTest.clause, fieldOf_alike h, literalAt_alike h, scalarOf_alike h,
      checkBounds_alike h]
  | truth inverted =>
    simp only [clause, truthClause, fieldOf_alike h, literalAt_alike h, truthOf_alike h]
  | presence present type => simp only [clause, presenceClause, fieldOf_alike h]
  | traversal inverted =>
    simp only [clause, Traversal.clause, fieldOf_alike h, h.malformed_eq, hembedded inverted rfl]

namespace Compiler

variable {res : Resolver} {form : Clause.Traversal} {d : Dialect}

/-- Rules that are alike have the same text, if the only value of the one has the text of that of
the other where it is a query. Whether they are optional only counts where no operation applies. -/
theorem ruleText_alike {r r' : Rule} (h : r.Alike r')
    (hoptional : StockOperation.find? r = none → r.optional = r'.optional)
    {nested nested' : Node → Except QueryError String}
    (hnested : r.values.length = 1 → (r.query? 0).map nested = (r'.query? 0).map nested') :
    (stock res form d).ruleText nested r = (stock res form d).ruleText nested' r' := by
  rw [ruleText_eq_clause, ruleText_eq_clause, ← h.find?_eq]
  cases hfound : StockOperation.find? r with
  | none => simp only [hoptional hfound, h.unknown_eq]
  | some o =>
    dsimp only
    rw [← h.length_values, ← h.malformed_eq]
    by_cases harity : o.arity.accepts r.values.length
    · have hembedded (inverted : Bool) (ho : o = .traversal inverted) :
          (r.query? 0).map nested = (r'.query? 0).map nested' := by
        subst ho
        exact hnested (by simpa [StockOperation.arity, Arity.accepts] using harity)
      rw [if_pos harity, if_pos harity, StockOperation.clause_alike h o res form hembedded]
    · rw [if_neg harity, if_neg harity]

end Compiler

end SearchFilter
