import SearchFilter.Catalogue
import SearchFilter.Proofs.Except
import SearchFilter.Proofs.Query.Writing

/-!
# Clauses of the stock operations

A stock operation computes its clause before it writes anything, and a clause has a marker at its
front or none at all. So the text of a clause is the same behind every text that it fits.
-/

namespace SearchFilter

namespace Query.Token

theorem markedAtFront_singleton (t : Token) : MarkedAtFront [t] := by
  simp [MarkedAtFront]

theorem isMark_of_mem_joined {j : Junction} {clauses : List (List Token)}
    (h : ∀ ts ∈ clauses, ∀ t ∈ ts, t.isMark = false) :
    ∀ t ∈ joined j clauses, t.isMark = false := by
  induction clauses using joined.induct with
  | case1 => simp [joined]
  | case2 ts => simpa [joined] using h
  | case3 ts rest hne ih =>
    have hrest := ih fun us hus => h us (by simp [hus])
    intro t ht
    rw [joined] at ht
    · simp only [List.mem_append, List.mem_cons] at ht
      rcases ht with ht | rfl | ht
      · exact h ts (by simp) t ht
      · rfl
      · exact hrest t ht
    · exact hne

end Query.Token

namespace Clause

open Query Query.Token

theorem TextTest.markedAtFront_of_clause {t : TextTest} {res : Resolver} {r : Rule}
    {ts : List Token} (h : t.clause res r = .ok ts) : MarkedAtFront ts := by
  obtain ⟨field, -, h⟩ := except_bind_eq_ok.mp h
  cases t with
  | anyOf =>
    obtain ⟨ss, -, h⟩ := except_bind_eq_ok.mp h
    obtain rfl := Except.ok.inj h
    have halternatives : ∀ t ∈ joined .or (ss.map fun s => [.text (Text.quote s)]),
        t.isMark = false := isMark_of_mem_joined (by simp [isMark])
    intro t ht
    simp only [List.tail_cons, List.mem_cons, List.mem_append, List.not_mem_nil, or_false] at ht
    rcases ht with rfl | ht | rfl
    · rfl
    · exact halternatives t ht
    · rfl
  | notEquals =>
    obtain ⟨s, -, h⟩ := except_bind_eq_ok.mp h
    obtain rfl := Except.ok.inj h
    simp [MarkedAtFront, isMark]
  | _ =>
    obtain ⟨s, -, h⟩ := except_bind_eq_ok.mp h
    obtain rfl := Except.ok.inj h
    exact markedAtFront_singleton _

theorem IntervalTest.markedAtFront_of_clause {t : IntervalTest} {res : Resolver} {r : Rule}
    {ts : List Token} (h : t.clause res r = .ok ts) : MarkedAtFront ts := by
  obtain ⟨field, -, h⟩ := except_bind_eq_ok.mp h
  obtain ⟨literal, -, h⟩ := except_bind_eq_ok.mp h
  obtain ⟨value, -, h⟩ := except_bind_eq_ok.mp h
  cases t with
  | between =>
    obtain ⟨literal', -, h⟩ := except_bind_eq_ok.mp h
    obtain ⟨upper, -, h⟩ := except_bind_eq_ok.mp h
    obtain ⟨-, -, h⟩ := except_bind_eq_ok.mp h
    obtain rfl := Except.ok.inj h
    exact markedAtFront_singleton _
  | _ =>
    obtain rfl := Except.ok.inj h
    exact markedAtFront_singleton _

theorem Traversal.clause_of_text {form : Traversal} (inverted : Bool) {res : Resolver}
    {embedded : Option (Except QueryError String)} {r : Rule} {field query : String}
    (hfield : fieldOf res r = .ok field) (hembedded : embedded = some (.ok query))
    (hquery : query ≠ "") : form.clause inverted res embedded r
      = .ok (if inverted then negated [.text (form.fill field query)]
          else [.text (form.fill field query)]) := by
  simp [Traversal.clause, hfield, hembedded, hquery]

/-- The clause of a traversal: there is one exactly if the field has an identifier and the embedded
query a text that is not empty. -/
theorem Traversal.clause_eq_ok_iff {form : Traversal} {inverted : Bool} {res : Resolver}
    {embedded : Option (Except QueryError String)} {r : Rule} {ts : List Token} :
    form.clause inverted res embedded r = .ok ts ↔
      ∃ field query, fieldOf res r = .ok field ∧ embedded = some (.ok query) ∧ query ≠ "" ∧
        ts = if inverted then negated [.text (form.fill field query)]
          else [.text (form.fill field query)] := by
  constructor
  · intro h
    obtain ⟨field, hfield, h⟩ := except_bind_eq_ok.mp h
    cases hembedded : embedded with
    | none => simp [hembedded] at h
    | some result =>
      simp only [hembedded] at h
      obtain ⟨query, hresult, h⟩ := except_bind_eq_ok.mp h
      by_cases hempty : query = ""
      · simp [hempty] at h
      · rw [if_neg (by simpa using hempty)] at h
        exact ⟨field, query, hfield, congrArg some hresult, hempty, (Except.ok.inj h).symm⟩
  · rintro ⟨field, query, hfield, hembedded, hquery, rfl⟩
    exact clause_of_text inverted hfield hembedded hquery

theorem Traversal.markedAtFront_of_clause {form : Traversal} {inverted : Bool} {res : Resolver}
    {embedded : Option (Except QueryError String)} {r : Rule} {ts : List Token}
    (h : form.clause inverted res embedded r = .ok ts) : MarkedAtFront ts := by
  obtain ⟨field, query, -, -, -, rfl⟩ := Traversal.clause_eq_ok_iff.mp h
  cases inverted with
  | false => exact markedAtFront_singleton _
  | true => simp [MarkedAtFront, negated, isMark]

end Clause

namespace StockOperation

open Query Query.Token Clause

/-- A marker stands at the front of a clause only. -/
theorem markedAtFront_of_clause {o : StockOperation} {res : Resolver} {form : Traversal}
    {embedded : Option (Except QueryError String)} {r : Rule} {ts : List Token}
    (h : o.clause res form embedded r = .ok ts) : MarkedAtFront ts := by
  cases o with
  | text t type => exact TextTest.markedAtFront_of_clause h
  | interval t type => exact IntervalTest.markedAtFront_of_clause h
  | truth inverted =>
    obtain ⟨field, -, h⟩ := except_bind_eq_ok.mp h
    obtain ⟨literal, -, h⟩ := except_bind_eq_ok.mp h
    obtain ⟨b, -, h⟩ := except_bind_eq_ok.mp h
    obtain rfl := Except.ok.inj h
    exact markedAtFront_singleton _
  | presence present type =>
    obtain ⟨field, -, h⟩ := except_bind_eq_ok.mp h
    obtain rfl := Except.ok.inj h
    exact markedAtFront_singleton _
  | traversal inverted => exact Traversal.markedAtFront_of_clause h

/-- Behind a text that fits, a stock operation adds its clause as it is spelled, or fails as the
clause does. -/
theorem appends_write (o : StockOperation) (res : Resolver) (form : Traversal) (cx : Context)
    (r : Rule) {before : String} (hfits : cx.dialect.Fits before) :
    Writer.Appends ((o.toOperation res form).write cx r) before
      ((o.clause res form (cx.embedded r 0) r).map (spellAll cx.dialect)) := by
  show Writer.Appends (do
    let ts ← Writer.lift (o.clause res form (cx.embedded r 0) r)
    writeAll cx.dialect ts) before _
  cases h : o.clause res form (cx.embedded r 0) r with
  | error e => exact ⟨before, rfl⟩
  | ok ts => exact appends_writeAll hfits (markedAtFront_of_clause h)

/-- The text of a stock operation is the spelling of its clause. -/
theorem text_write (o : StockOperation) (res : Resolver) (form : Traversal) (cx : Context)
    (r : Rule) : ((o.toOperation res form).write cx r).text
      = (o.clause res form (cx.embedded r 0) r).map (spellAll cx.dialect) :=
  Writer.text_of_appends (appends_write o res form cx r (Dialect.fits_empty _))

end StockOperation

end SearchFilter
