import SearchFilter.Proofs.Query.StockClause
import SearchFilter.Proofs.Tree.Embedded
import SearchFilter.Query.Compile
import SearchFilter.Tree.Equality

/-!
# The text of a tree from the texts of its parts

A tree is written into a growing text: a junction is added before it is known whether the next
member writes anything, and taken away again if not, and markers look at the end of the text. None
of this can be seen in the result. The text of a group is put together from the texts of its
members, each of them written on its own, and a tree adds the same text behind every text that
fits it. The operations ask for the queries embedded in their rules only, so the levels that these
take are all that is needed.
-/

namespace SearchFilter

/-- Every operation of the registry is a stock operation, with a resolver and a form of traversals
of its own. -/
def Registry.IsStock (g : Registry) : Prop :=
  ∀ e ∈ g.entries, ∃ (o : StockOperation) (res : Resolver) (form : Clause.Traversal),
    e.operation = o.toOperation res form

theorem StockOperation.isStock_registrations (res : Resolver) (form : Clause.Traversal) :
    Registry.IsStock ⟨registrations res form⟩ := by
  intro e he
  obtain ⟨o, -, rfl⟩ := List.mem_map.mp he
  exact ⟨o, res, form, rfl⟩

namespace Dialect

/-- The junction between two members, with a space on both sides. -/
def separator (d : Dialect) (j : Junction) : String :=
  " " ++ d.junctionToken j ++ " "

/-- The text of a group whose members have the given texts: the marker, and between the delimiters
the texts that are not empty with junctions between them. -/
def groupText (d : Dialect) (b : Boost) (j : Junction) (members : List String) : String :=
  d.markText b ++ d.groupOpen
    ++ (d.separator j).intercalate (members.filter fun s => !s.isEmpty) ++ d.groupClose

end Dialect

namespace Compiler

/-- The text of a rule whose operation gets the queries that it asks for from `nested`: what the
operation writes into an empty text, and nothing for an optional rule without an operation. -/
def ruleText (c : Compiler) (nested : Node → Except QueryError String) (r : Rule) :
    Except QueryError String :=
  match c.registry.find? r with
  | none => if r.optional then .ok "" else .error (.unknown r)
  | some o =>
    if o.arity.accepts r.values.length then (o.write ⟨c.dialect, nested⟩ r).text
    else .error (.malformed r (.wrongArity o.arity r.values.length))

mutual

/-- The text of a tree, from the texts of its parts. -/
def nodeText (c : Compiler) : Node → Except QueryError String
  | .rule ⟨id, field, type, operation, values, optional⟩ =>
    c.ruleText (c.queryText values) ⟨id, field, type, operation, values, optional⟩
  | .condition ⟨_, junction, boost, children⟩ => do
    let members ← c.memberTexts children
    return c.dialect.groupText boost junction members

/-- The texts of the members of a group, as far as the first that has none. -/
def memberTexts (c : Compiler) : List Node → Except QueryError (List String)
  | [] => .ok []
  | n :: ns => do
    let s ← c.nodeText n
    return s :: (← c.memberTexts ns)

/-- The text of a query that is embedded among the values, and nothing for any other. -/
def queryText (c : Compiler) : List Value → Node → Except QueryError String
  | [], _ => .ok ""
  | .literal _ :: vs, m => c.queryText vs m
  | .query n :: vs, m => if m = n then c.nodeText n else c.queryText vs m

end

theorem queryText_of_mem (c : Compiler) {vs : List Value} {m : Node} (h : .query m ∈ vs) :
    c.queryText vs m = c.nodeText m := by
  induction vs with
  | nil => cases h
  | cons v vs ih =>
    cases v with
    | literal s =>
      rw [queryText]
      exact ih ((List.mem_cons.mp h).resolve_left nofun)
    | query n =>
      rw [queryText]
      split
      next heq => rw [heq]
      next hne => exact ih ((List.mem_cons.mp h).resolve_left fun heq => hne (Value.query.inj heq))

/-! ## Members of a group -/

/-- What the members add to the content of a group: nothing stands before the first one unless
something was written before. -/
def contentText (separator : String) (started : Bool) (members : List String) : String :=
  let kept := members.filter fun s => !s.isEmpty
  if started then String.join (kept.map (separator ++ ·)) else separator.intercalate kept

@[simp] theorem contentText_nil (separator : String) (started : Bool) :
    contentText separator started [] = "" := by
  cases started <;> rfl

theorem contentText_cons_empty (separator : String) (started : Bool) (members : List String) :
    contentText separator started ("" :: members) = contentText separator started members := by
  simp [contentText]

theorem intercalate_cons (separator s : String) (ss : List String) :
    separator.intercalate (s :: ss) = s ++ String.join (ss.map (separator ++ ·)) := by
  induction ss generalizing s with
  | nil => simp
  | cons s' ss ih =>
    rw [String.intercalate_cons_cons, ih, List.map_cons, String.join_cons]
    simp only [String.append_assoc]

theorem contentText_cons {separator s : String} (started : Bool) {members : List String}
    (h : s ≠ "") : contentText separator started (s :: members)
      = (if started then separator else "") ++ s ++ contentText separator true members := by
  have hs : s.isEmpty = false := by simpa using h
  cases started with
  | true => simp [contentText, hs, String.append_assoc]
  | false => simp [contentText, hs, intercalate_cons]

/-- Where the content of a group stands when a member is about to be written: something was
written since the group was opened, or else the text fits. -/
def AtMember (d : Dialect) (start : Nat) (text : String) : Prop :=
  start < text.utf8ByteSize ∨ (text.utf8ByteSize = start ∧ d.Fits text)

/-- The text behind which a member is written. -/
def memberStart (d : Dialect) (j : Junction) (start : Nat) (text : String) : String :=
  if start < text.utf8ByteSize then text ++ d.separator j else text

theorem fits_memberStart {d : Dialect} {start : Nat} {text : String} (j : Junction)
    (h : AtMember d start text) : d.Fits (memberStart d j start text) := by
  by_cases hstarted : start < text.utf8ByteSize
  · rw [memberStart, if_pos hstarted]
    exact Dialect.fits_append_junction d text j
  · rw [memberStart, if_neg hstarted]
    exact (h.resolve_left hstarted).2

theorem lt_utf8ByteSize_of_append {d : Dialect} {start : Nat} {text s : String} (j : Junction)
    (h : AtMember d start text) (hs : s ≠ "") :
    start < (memberStart d j start text ++ s).utf8ByteSize := by
  have hpos : s.utf8ByteSize ≠ 0 := by simpa using hs
  have hle : start ≤ (memberStart d j start text).utf8ByteSize := by
    rw [memberStart]
    split
    · rw [String.utf8ByteSize_append]
      omega
    · rcases h with h | ⟨h, -⟩ <;> omega
  rw [String.utf8ByteSize_append]
  omega

/-- A member is written, and taken back if nothing was added. -/
theorem run_member (w rest : Writer Unit) (before body : String) :
    (do
      w
      let after ← get
      if after.utf8ByteSize = body.utf8ByteSize then
        set before
        rest
      else rest : Writer Unit).run body =
      match w.run body with
      | .ok _ after =>
        rest.run (if after.utf8ByteSize = body.utf8ByteSize then before else after)
      | .error e after => .error e after := by
  rw [EStateM.run_bind]
  cases w.run body with
  | error e after => rfl
  | ok _ after =>
    simp only [EStateM.run_bind, EStateM.run_get]
    by_cases hsilent : after.utf8ByteSize = body.utf8ByteSize
    · rw [if_pos hsilent, if_pos hsilent]
      rfl
    · rw [if_neg hsilent, if_neg hsilent]

theorem run_writeChildren_cons (c : Compiler) (nested : Rule → Node → Except QueryError String)
    (j : Junction) (start : Nat) (n : Node) (ns : List Node) (before : String) :
    (c.writeChildren nested j start (n :: ns)).run before =
      match (c.writeNode nested n).run (memberStart c.dialect j start before) with
      | .ok _ after =>
        (c.writeChildren nested j start ns).run
          (if after.utf8ByteSize = (memberStart c.dialect j start before).utf8ByteSize
            then before else after)
      | .error e after => .error e after := by
  rw [← run_member, writeChildren]
  simp only [EStateM.run_bind, EStateM.run_get, memberStart, Dialect.separator]
  by_cases hstarted : start < before.utf8ByteSize
  · simp only [if_pos hstarted, EStateM.run_bind, EStateM.run_get, Writer.run_append]
  · simp only [if_neg hstarted, EStateM.run_bind, EStateM.run_get]

/-- A member that writes nothing leaves no junction behind. -/
theorem run_writeChildren_of_silent {c : Compiler}
    {nested : Rule → Node → Except QueryError String} {j : Junction} {start : Nat} {n : Node}
    {before : String}
    (hn : Writer.Appends (c.writeNode nested n) (memberStart c.dialect j start before) (.ok ""))
    (ns : List Node) :
    (c.writeChildren nested j start (n :: ns)).run before
      = (c.writeChildren nested j start ns).run before := by
  have hn : (c.writeNode nested n).run _ = .ok () (memberStart c.dialect j start before ++ "") := hn
  have hrun := run_writeChildren_cons c nested j start n ns before
  rw [hn] at hrun
  simpa only [String.append_empty, if_true] using hrun

/-- A member that writes something leaves it behind its junction. -/
theorem run_writeChildren_of_text {c : Compiler}
    {nested : Rule → Node → Except QueryError String} {j : Junction} {start : Nat} {n : Node}
    {before s : String}
    (hn : Writer.Appends (c.writeNode nested n) (memberStart c.dialect j start before) (.ok s))
    (hs : s ≠ "") (ns : List Node) : (c.writeChildren nested j start (n :: ns)).run before
      = (c.writeChildren nested j start ns).run (memberStart c.dialect j start before ++ s) := by
  have hn : (c.writeNode nested n).run _ = .ok () (memberStart c.dialect j start before ++ s) := hn
  have hrun := run_writeChildren_cons c nested j start n ns before
  have hsize : (memberStart c.dialect j start before ++ s).utf8ByteSize
      ≠ (memberStart c.dialect j start before).utf8ByteSize := by
    have hpos : s.utf8ByteSize ≠ 0 := by simpa using hs
    rw [String.utf8ByteSize_append]
    omega
  rw [hn] at hrun
  simpa only [if_neg hsize] using hrun

theorem memberStart_eq (d : Dialect) (j : Junction) (start : Nat) (text : String) :
    memberStart d j start text
      = text ++ if decide (start < text.utf8ByteSize) then d.separator j else "" := by
  by_cases hstarted : start < text.utf8ByteSize
  · simp [memberStart, hstarted]
  · simp [memberStart, hstarted]

/-- The members of a group add their content if the first one adds its text and the others theirs
behind it. -/
theorem appends_writeChildren_cons {c : Compiler}
    {nested : Rule → Node → Except QueryError String} {j : Junction} {start : Nat} {n : Node}
    {ns : List Node} {before : String} {text : Except QueryError String}
    {members : Except QueryError (List String)} (hat : AtMember c.dialect start before)
    (hn : Writer.Appends (c.writeNode nested n) (memberStart c.dialect j start before) text)
    (hns : ∀ text', AtMember c.dialect start text' →
      Writer.Appends (c.writeChildren nested j start ns) text' (members.map
        (contentText (c.dialect.separator j) (decide (start < text'.utf8ByteSize))))) :
    Writer.Appends (c.writeChildren nested j start (n :: ns)) before
      ((do let s ← text; return s :: (← members)).map
        (contentText (c.dialect.separator j) (decide (start < before.utf8ByteSize)))) := by
  cases text with
  | error e =>
    obtain ⟨after, hn⟩ := hn
    have hrun := run_writeChildren_cons c nested j start n ns before
    rw [hn] at hrun
    exact ⟨after, hrun⟩
  | ok s =>
    rw [except_ok_bind, except_bind_pure, except_map_map]
    by_cases hs : s = ""
    · subst hs
      have hrun := run_writeChildren_of_silent hn ns
      have hcontent : contentText (c.dialect.separator j) (decide (start < before.utf8ByteSize))
          ∘ ("" :: ·) = contentText (c.dialect.separator j)
            (decide (start < before.utf8ByteSize)) :=
        funext fun ss => contentText_cons_empty _ _ ss
      rw [hcontent]
      exact Writer.appends_congr hrun (hns before hat)
    · have hlt := lt_utf8ByteSize_of_append j hat hs
      have hrun := run_writeChildren_of_text hn hs ns
      have hrest := hns _ (.inl hlt)
      rw [decide_eq_true hlt] at hrest
      rw [memberStart_eq, String.append_assoc] at hrun hrest
      have hall := Writer.appends_of_run_eq hrun hrest
      have hcontent : contentText (c.dialect.separator j) (decide (start < before.utf8ByteSize))
          ∘ (s :: ·) = (fun content => (if decide (start < before.utf8ByteSize) then
            c.dialect.separator j else "") ++ s ++ content)
              ∘ contentText (c.dialect.separator j) true :=
        funext fun ss => contentText_cons _ hs
      rw [hcontent, ← except_map_map]
      exact hall

/-! ## Rules -/

theorem isStock_of_find? {g : Registry} (h : g.IsStock) {r : Rule} {o : Operation}
    (ho : g.find? r = some o) :
    ∃ (stock : StockOperation) (res : Resolver) (form : Clause.Traversal),
      o = stock.toOperation res form := by
  obtain ⟨e, he, rfl⟩ := List.mem_map.mp (List.mem_of_find?_eq_some ho)
  exact h e he

/-- A stock operation only asks for the queries that are values of the rule. -/
theorem ruleText_congr {c : Compiler} (h : c.registry.IsStock) {r : Rule}
    {nested nested' : Node → Except QueryError String}
    (hnested : ∀ m, .query m ∈ r.values → nested m = nested' m) :
    c.ruleText nested r = c.ruleText nested' r := by
  have hembedded : (r.query? 0).map nested = (r.query? 0).map nested' := by
    refine Option.map_congr fun m hm => hnested m ?_
    obtain ⟨v, hv, hquery⟩ := Option.bind_eq_some_iff.mp hm
    cases v with
    | literal s => cases hquery
    | query n =>
      obtain rfl := Option.some.inj hquery
      exact List.mem_of_getElem? hv
  rw [ruleText, ruleText]
  cases hfound : c.registry.find? r with
  | none => rfl
  | some o =>
    obtain ⟨stock, res, form, rfl⟩ := isStock_of_find? h hfound
    simp only [StockOperation.text_write, Context.embedded, hembedded]

theorem nodeText_rule {c : Compiler} (h : c.registry.IsStock) (r : Rule) :
    c.nodeText (.rule r) = c.ruleText c.nodeText r := by
  cases r
  rw [nodeText]
  exact ruleText_congr h fun m hm => c.queryText_of_mem hm

theorem appends_writeRule {c : Compiler} (h : c.registry.IsStock)
    (nested : Rule → Node → Except QueryError String) (r : Rule) {before : String}
    (hfits : c.dialect.Fits before) :
    Writer.Appends (c.writeRule nested r) before (c.ruleText (nested r) r) := by
  rw [writeRule, ruleText]
  cases hfound : c.registry.find? r with
  | none =>
    dsimp only
    split
    · simp [Writer.Appends]
    · exact ⟨before, rfl⟩
  | some o =>
    dsimp only
    split
    · obtain ⟨stock, res, form, rfl⟩ := isStock_of_find? h hfound
      rw [StockOperation.text_write]
      exact StockOperation.appends_write stock res form ⟨c.dialect, _⟩ r hfits
    · exact ⟨before, rfl⟩

/-! ## Whole trees -/

theorem appends_group {d : Dialect} {before : String} (b : Boost) (j : Junction)
    (content : Nat → Writer Unit) (members : Except QueryError (List String))
    (hfits : d.Fits before)
    (hcontent : ∀ text, AtMember d text.utf8ByteSize text → Writer.Appends
      (content text.utf8ByteSize) text (members.map (contentText (d.separator j) false))) :
    Writer.Appends (do
        let _ ← d.writeMark b
        Writer.append d.groupOpen
        let text ← get
        content text.utf8ByteSize
        Writer.append d.groupClose) before
      (members.map (d.groupText b j)) := by
  have hinside := hcontent (before ++ d.markText b ++ d.groupOpen)
    (.inr ⟨rfl, Dialect.fits_append_groupOpen d _⟩)
  cases members with
  | error e =>
    obtain ⟨after, hinside⟩ := hinside
    refine ⟨after, ?_⟩
    simp only [EStateM.run_bind, EStateM.run_get, Writer.run_append, Dialect.run_writeMark hfits,
      hinside]
  | ok ss =>
    have hinside : (content _).run _ = .ok () _ := hinside
    show _ = _
    simp only [EStateM.run_bind, EStateM.run_get, Writer.run_append, Dialect.run_writeMark hfits,
      hinside]
    simp [Dialect.groupText, contentText, String.append_assoc]

mutual

/-- A tree whose embedded queries are answered by their texts adds its own text. -/
theorem appends_writeNode {c : Compiler} (h : c.registry.IsStock)
    {nested : Rule → Node → Except QueryError String} (n : Node)
    (hnested : ∀ r, ∀ m ∈ n.embedded, nested r m = c.nodeText m) {before : String}
    (hfits : c.dialect.Fits before) :
    Writer.Appends (c.writeNode nested n) before (c.nodeText n) := by
  match n with
  | .rule r =>
    rw [Node.embedded_rule] at hnested
    have hvalues : c.ruleText (nested r) r = c.ruleText c.nodeText r :=
      ruleText_congr h fun m hm => hnested r m (Node.mem_embeddedOfValues hm)
    rw [writeNode, nodeText_rule h, ← hvalues]
    exact appends_writeRule h nested r hfits
  | .condition ⟨id, junction, boost, children⟩ =>
    rw [Node.embedded] at hnested
    rw [writeNode, nodeText]
    have hinside (text : String) (hat : AtMember c.dialect text.utf8ByteSize text) :
        Writer.Appends (c.writeChildren nested junction text.utf8ByteSize children) text
          ((c.memberTexts children).map (contentText (c.dialect.separator junction) false)) := by
      simpa using appends_writeChildren h junction children hnested hat
    have hgroup := appends_group boost junction
      (fun start => c.writeChildren nested junction start children) (c.memberTexts children) hfits
      hinside
    cases hmembers : c.memberTexts children with
    | error e => rw [hmembers] at hgroup; exact hgroup
    | ok members => rw [hmembers] at hgroup; exact hgroup

theorem appends_writeChildren {c : Compiler} (h : c.registry.IsStock)
    {nested : Rule → Node → Except QueryError String} (j : Junction) (ns : List Node)
    (hnested : ∀ r, ∀ m ∈ Node.embeddedOfAll ns, nested r m = c.nodeText m) {start : Nat}
    {before : String} (hat : AtMember c.dialect start before) :
    Writer.Appends (c.writeChildren nested j start ns) before ((c.memberTexts ns).map
      (contentText (c.dialect.separator j) (decide (start < before.utf8ByteSize)))) := by
  match ns with
  | [] =>
    rw [writeChildren, memberTexts]
    simp [Writer.Appends]
  | n :: ns =>
    rw [Node.embeddedOfAll] at hnested
    have hn (r : Rule) (m : Node) (hm : m ∈ n.embedded) : nested r m = c.nodeText m :=
      hnested r m (List.mem_append_left _ hm)
    have hns (r : Rule) (m : Node) (hm : m ∈ Node.embeddedOfAll ns) :
        nested r m = c.nodeText m := hnested r m (List.mem_append_right _ hm)
    rw [memberTexts]
    exact appends_writeChildren_cons hat (appends_writeNode h n hn (fits_memberStart j hat))
      fun text' hat' => appends_writeChildren h j ns hns hat'

end

theorem text_writeNode {c : Compiler} (h : c.registry.IsStock)
    {nested : Rule → Node → Except QueryError String} (n : Node)
    (hnested : ∀ r, ∀ m ∈ n.embedded, nested r m = c.nodeText m) :
    (c.writeNode nested n).text = c.nodeText n :=
  Writer.text_of_appends (appends_writeNode h n hnested (Dialect.fits_empty _))

/-- Where there are levels enough for a tree, its query is its text. -/
theorem nested_eq_nodeText {c : Compiler} (h : c.registry.IsStock) (levels : Nat) (r : Rule)
    (n : Node) (hlevels : n.height ≤ levels) : c.nested levels r n = c.nodeText n := by
  induction levels generalizing r n with
  | zero =>
    have hpos := n.height_pos
    omega
  | succ levels ih =>
    rw [nested]
    refine text_writeNode h n fun r m hm => ?_
    have hlt : m.height < n.height := n.height_lt_of_mem_embedded m hm
    exact ih r m (by omega)

theorem nested_of_mem_embedded {c : Compiler} (h : c.registry.IsStock) (n : Node) (room : Nat)
    (r : Rule) : ∀ m ∈ n.embedded, c.nested (n.height + room) r m = c.nodeText m := by
  intro m hm
  have hlt : m.height < n.height := n.height_lt_of_mem_embedded m hm
  exact nested_eq_nodeText h _ r m (by omega)

/-- The query of a tree is its text, if its ids are unique. -/
theorem compile_eq_nodeText {c : Compiler} (h : c.registry.IsStock) (n : Node) (room : Nat) :
    c.compile n room = (do n.checkIds; c.nodeText n) := by
  rw [compile, text_writeNode h n (nested_of_mem_embedded h n room)]

/-- A tree adds its text behind every text that fits it, or fails as its text does, and the query of
a tree with unique ids is its text. -/
theorem writes_text_of_parts (c : Compiler) (h : c.registry.IsStock) :
    (∀ (n : Node) (room : Nat) (before : String), c.dialect.Fits before →
      Writer.Appends (c.writeNode (c.nested (n.height + room)) n) before (c.nodeText n)) ∧
    ∀ (n : Node) (room : Nat), n.checkIds = .ok () → c.compile n room = c.nodeText n := by
  refine ⟨fun n room before hfits => ?_, fun n room hids => ?_⟩
  · exact appends_writeNode h n (nested_of_mem_embedded h n room) hfits
  · rw [compile_eq_nodeText h, hids, except_ok_bind]

/-- With empty delimiters a group may write nothing; then it is skipped like an optional rule. -/
theorem writes_text_of_parts_without_delimiters :
    let c : Compiler := ⟨⟨StockOperation.registrations (Namespaces.toResolver {}) .standard⟩,
      { groupOpen := "", groupClose := "" }⟩
    let n : Node := .condition ⟨"c", .or, .exclude,
      [.rule ⟨"a", "x", .date, "fuzzy", [], true⟩,
        .rule ⟨"b", "status", .string, "not_equals", [.literal "say \"no\""], false⟩,
        .condition ⟨"d", .and, .none, []⟩,
        .rule ⟨"e", "owner", .uri, "not_set_to_query",
          [.query (.rule ⟨"a", "name", .string, "equals", [.literal "x"], false⟩)], false⟩]⟩
    let s := "--status:\"say \\\"no\\\"\" OR -owner:\x7bname:\"x\"\x7d"
    c.registry.IsStock ∧ c.dialect.Fits "+" ∧ n.checkIds = .ok () ∧
      (c.writeNode (c.nested n.height) n).run "+" = .ok () ("+" ++ s) ∧ c.compile n = .ok s := by
  intro c n s
  have hstock : c.registry.IsStock := StockOperation.isStock_registrations _ _
  have hfits : c.dialect.Fits "+" := .inr (.inl (List.nil_suffix))
  have hids : n.checkIds = .ok () := by rfl
  have htext : c.nodeText n = .ok s := by decide +kernel
  obtain ⟨hwrites, hcompile⟩ := writes_text_of_parts c hstock
  have hwritten := hwrites n 0 "+" hfits
  rw [htext] at hwritten
  exact ⟨hstock, hfits, hids, hwritten, (hcompile n _ hids).trans htext⟩

end Compiler

end SearchFilter
