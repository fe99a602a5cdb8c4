import SearchFilter.CommandLine.Run
import SearchFilter.Proofs.Except
import SearchFilter.Proofs.Query.StockRegistry
import SearchFilter.Proofs.Tree.Height
import SearchFilter.Proofs.Yaml.Settings
import SearchFilter.Tree.Equality

/-!
# The stages of a run

When a stage of a compilation fails is said for each stage from its own inputs and the functions of
the library, whatever comes of the other stages, so several stages may fail on the same inputs. A
run fails as the first of them and prints nothing. If none fails, it prints the query of the tree
and a line feed.
-/

namespace SearchFilter.CommandLine

/-! ## What the surroundings hold -/

namespace Surroundings

/-- The file can be read, and is a text in UTF-8. -/
def HoldsText (s : Surroundings) (path text : String) : Prop :=
  ∃ bytes, s.file? path = some bytes ∧ String.fromUTF8? bytes = some text

/-- Surroundings with texts in UTF-8 as their files, and nothing in the standard input. -/
def ofTexts (files : List (String × String)) : Surroundings where
  file? path := (files.lookup path).map String.toUTF8
  standardInput := .empty

theorem fromUTF8?_toUTF8 (text : String) : String.fromUTF8? text.toUTF8 = some text := by
  simp only [String.fromUTF8?, String.toUTF8_eq_toByteArray, dif_pos text.isValidUTF8]
  rfl

theorem holdsText_ofTexts {files : List (String × String)} {path text : String}
    (h : files.lookup path = some text) : (ofTexts files).HoldsText path text :=
  ⟨text.toUTF8, congrArg (Option.map String.toUTF8) h, fromUTF8?_toUTF8 text⟩

/-- The tree is in the file, or in the standard input. -/
def HoldsDocument (s : Surroundings) (path document : String) : Prop :=
  if path = "-" then String.fromUTF8? s.standardInput = some document
  else s.HoldsText path document

section

variable {α : Type} (s : Surroundings) (describes : α → String → Prop)
  (validate : α → Except SettingsError Unit)

/-- The settings are the valid ones that the file describes if there is one, and the default
otherwise. -/
def GivesSettings (default : α) (path? : Option String) (settings : α) : Prop :=
  match path? with
  | none => settings = default
  | some path =>
    ∃ text, s.HoldsText path text ∧ describes settings text ∧ validate settings = .ok ()

/-- The settings in the file cannot be read, or are malformed, or are not valid. -/
inductive RefusesSettings (path : String) : SettingsError → Prop
  | unreadable (h : ¬ ∃ text, s.HoldsText path text) : RefusesSettings path .unreadable
  | malformed {text : String} (htext : s.HoldsText path text)
    (h : ¬ ∃ settings, describes settings text) : RefusesSettings path .malformed
  | invalid {text : String} {settings : α} {e : SettingsError} (htext : s.HoldsText path text)
    (hsettings : describes settings text) (h : validate settings = .error e) :
    RefusesSettings path e

end

/-- The namespaces of a run. -/
abbrev GivesNamespaces (s : Surroundings) : Option String → Namespaces → Prop :=
  s.GivesSettings Namespaces.IsDescribedBy Namespaces.validate {}

/-- The dialect of a run. -/
abbrev GivesDialect (s : Surroundings) : Option String → Dialect → Prop :=
  s.GivesSettings Dialect.IsDescribedBy Dialect.validate {}

end Surroundings

/-! ## Stages -/

/-- The stages of a compilation. -/
inductive Stage where
  | namespaces
  | registry
  | dialect
  | reading
  | decoding
  | compiling
  deriving DecidableEq, Repr

/-- The place of a stage in their order. -/
def Stage.place : Stage → Nat
  | .namespaces => 0
  | .registry => 1
  | .dialect => 2
  | .reading => 3
  | .decoding => 4
  | .compiling => 5

theorem Stage.place_injective : Function.Injective Stage.place := by
  intro stage stage' h
  cases stage <;> cases stage' <;> first | rfl | cases h

theorem Stage.place_lt (stage : Stage) : stage.place < 6 := by
  cases stage <;> decide

section Compilation

variable (s : Surroundings) (nsPath : Option String) (treePath : String) (dPath : Option String)

/-- The stage fails with the failure, once it has what it needs of the stages before. -/
inductive Fails : Stage → Failure → Prop
  | namespaces {path : String} {e : SettingsError} (hpath : nsPath = some path)
    (h : s.RefusesSettings Namespaces.IsDescribedBy Namespaces.validate path e) :
    Fails .namespaces ⟨"failed to load namespaces from " ++ path, .settings e⟩
  | registry {ns : Namespaces} {e : QueryError} (hns : s.GivesNamespaces nsPath ns)
    (h : Registry.build (StockOperation.registrations ns .standard) = .error e) :
    Fails .registry ⟨"failed to build operation registry", .query e⟩
  | dialect {path : String} {e : SettingsError} (hpath : dPath = some path)
    (h : s.RefusesSettings Dialect.IsDescribedBy Dialect.validate path e) :
    Fails .dialect ⟨"failed to load syntax from " ++ path, .settings e⟩
  | readingInput (hpath : treePath = "-") (h : String.fromUTF8? s.standardInput = none) :
    Fails .reading ⟨"failed to read tree from stdin", .unreadable⟩
  | readingFile (hpath : treePath ≠ "-") (h : ¬ ∃ text, s.HoldsText treePath text) :
    Fails .reading ⟨"failed to read " ++ treePath, .unreadable⟩
  | decoding {document : String} {e : QueryError} (hdocument : s.HoldsDocument treePath document)
    (h : Node.ofDocument document = .error e) :
    Fails .decoding ⟨"failed to decode criteria tree", .query e⟩
  | compiling {ns : Namespaces} {g : Registry} {d : Dialect} {document : String} {n : Node}
    {e : QueryError} (hns : s.GivesNamespaces nsPath ns)
    (hg : Registry.build (StockOperation.registrations ns .standard) = .ok g)
    (hd : s.GivesDialect dPath d) (hdocument : s.HoldsDocument treePath document)
    (hn : Node.ofDocument document = .ok n) (h : Compiler.compile ⟨g, d⟩ n = .error e) :
    Fails .compiling ⟨"failed to compile tree '" ++ n.id ++ "'", .query e⟩

/-- No stage before the place fails. -/
def FreeBelow (place : Nat) : Prop :=
  ∀ stage f, Fails s nsPath treePath dPath stage f → place ≤ stage.place

/-- Of the stages that fail, the first one fails with the failure. -/
def FailsFirst (f : Failure) : Prop :=
  ∃ stage, Fails s nsPath treePath dPath stage f ∧ FreeBelow s nsPath treePath dPath stage.place

/-- Every stage has a result, and the last one the query. -/
def Gives (query : String) : Prop :=
  ∃ ns g d document n, s.GivesNamespaces nsPath ns ∧
    Registry.build (StockOperation.registrations ns .standard) = .ok g ∧
    s.GivesDialect dPath d ∧ s.HoldsDocument treePath document ∧
    Node.ofDocument document = .ok n ∧ Compiler.compile ⟨g, d⟩ n = .ok query

end Compilation

/-! ## What the steps of a run do -/

section Steps

variable {s : Surroundings} {f : Failure}

theorem inContext_eq_ok_iff {ε α : Type} {context : String} {cause : ε → Cause}
    {x : Except ε α} {a : α} : inContext context cause x = .ok a ↔ x = .ok a := by
  cases x <;> simp [inContext]

theorem inContext_eq_error_iff {ε α : Type} {context : String} {cause : ε → Cause}
    {x : Except ε α} :
    inContext context cause x = .error f ↔ ∃ e, x = .error e ∧ f = ⟨context, cause e⟩ := by
  cases x <;> simp [inContext, eq_comm]

theorem text?_eq_some_iff {path text : String} :
    s.text? path = some text ↔ s.HoldsText path text :=
  Option.bind_eq_some_iff

theorem text?_eq_none_iff {path : String} :
    s.text? path = none ↔ ¬ ∃ text, s.HoldsText path text := by
  simp only [← text?_eq_some_iff]
  cases s.text? path <;> simp

theorem loadFrom_eq_ok_iff {α : Type} {ofYaml : String → Except SettingsError α} {path : String}
    {a : α} : loadFrom s ofYaml path = .ok a ↔
      ∃ text, s.HoldsText path text ∧ ofYaml text = .ok a := by
  simp only [← text?_eq_some_iff, loadFrom]
  cases s.text? path <;> simp

theorem loadFrom_eq_error_iff {α : Type} {ofYaml : String → Except SettingsError α}
    {describes : α → String → Prop} {validate : α → Except SettingsError Unit} {path : String}
    {e : SettingsError} (hofYaml : ∀ text, ofYaml text = .error e ↔
      (¬ ∃ a, describes a text) ∧ e = .malformed ∨ ∃ a, describes a text ∧ validate a = .error e) :
    loadFrom s ofYaml path = .error e ↔ s.RefusesSettings describes validate path e := by
  constructor
  · intro h
    rw [loadFrom] at h
    split at h
    next text htext =>
      rw [text?_eq_some_iff] at htext
      rcases (hofYaml text).mp h with ⟨hnone, rfl⟩ | ⟨a, ha, hinvalid⟩
      · exact .malformed htext hnone
      · exact .invalid htext ha hinvalid
    next htext =>
      cases h
      exact .unreadable (text?_eq_none_iff.mp htext)
  · intro h
    rw [loadFrom]
    cases h with
    | unreadable h => rw [text?_eq_none_iff.mpr h]
    | malformed htext h =>
      rw [text?_eq_some_iff.mpr htext]
      exact (hofYaml _).mpr (.inl ⟨h, rfl⟩)
    | invalid htext ha h =>
      rw [text?_eq_some_iff.mpr htext]
      exact (hofYaml _).mpr (.inr ⟨_, ha, h⟩)

theorem loadNamespaces_eq_error_iff {path : String} : loadNamespaces s (some path) = .error f ↔
    ∃ e, s.RefusesSettings Namespaces.IsDescribedBy Namespaces.validate path e ∧
      f = ⟨"failed to load namespaces from " ++ path, .settings e⟩ := by
  rw [loadNamespaces, inContext_eq_error_iff]
  exact exists_congr fun e =>
    and_congr_left' (loadFrom_eq_error_iff fun _ => Namespaces.ofYaml_eq_error_iff)

theorem loadDialect_eq_error_iff {path : String} : loadDialect s (some path) = .error f ↔
    ∃ e, s.RefusesSettings Dialect.IsDescribedBy Dialect.validate path e ∧
      f = ⟨"failed to load syntax from " ++ path, .settings e⟩ := by
  rw [loadDialect, inContext_eq_error_iff]
  exact exists_congr fun e =>
    and_congr_left' (loadFrom_eq_error_iff fun _ => Dialect.ofYaml_eq_error_iff)

variable {nsPath : Option String} {treePath : String} {dPath : Option String}

theorem loadNamespaces_eq_ok_iff {ns : Namespaces} : loadNamespaces s nsPath = .ok ns ↔
    s.GivesNamespaces nsPath ns := by
  cases nsPath with
  | none => simp [loadNamespaces, Surroundings.GivesSettings, eq_comm]
  | some path =>
    simp only [loadNamespaces, inContext_eq_ok_iff, loadFrom_eq_ok_iff,
      Namespaces.ofYaml_eq_ok_iff, Surroundings.GivesSettings]

theorem loadDialect_eq_ok_iff {d : Dialect} : loadDialect s dPath = .ok d ↔
    s.GivesDialect dPath d := by
  cases dPath with
  | none => simp [loadDialect, Surroundings.GivesSettings, eq_comm]
  | some path =>
    simp only [loadDialect, inContext_eq_ok_iff, loadFrom_eq_ok_iff, Dialect.ofYaml_eq_ok_iff,
      Surroundings.GivesSettings]

theorem loadRegistry_eq_ok_iff {ns : Namespaces} {g : Registry} : loadRegistry ns = .ok g ↔
    Registry.build (StockOperation.registrations ns .standard) = .ok g :=
  inContext_eq_ok_iff

theorem loadRegistry_eq (ns : Namespaces) :
    loadRegistry ns = .ok ⟨StockOperation.registrations ns .standard⟩ := by
  rw [loadRegistry_eq_ok_iff, StockOperation.build_registrations]

theorem readTree_eq_ok_iff {document : String} :
    readTree s treePath = .ok document ↔ s.HoldsDocument treePath document := by
  rw [readTree, Surroundings.HoldsDocument, standardInputPath]
  split_ifs
  · cases String.fromUTF8? s.standardInput <;> simp
  · rw [← text?_eq_some_iff]
    cases s.text? treePath <;> simp

theorem compileDocument_eq_ok_iff {c : Compiler} {document query : String} :
    compileDocument c document = .ok query ↔
      ∃ n, Node.ofDocument document = .ok n ∧ c.compile n = .ok query := by
  simp only [compileDocument, except_bind_eq_ok, inContext_eq_ok_iff]

/-! ### Failures -/

theorem fails_namespaces_iff :
    Fails s nsPath treePath dPath .namespaces f ↔ loadNamespaces s nsPath = .error f := by
  constructor
  · rintro (⟨rfl, h⟩)
    exact loadNamespaces_eq_error_iff.mpr ⟨_, h, rfl⟩
  · intro h
    cases nsPath with
    | none => cases h
    | some path =>
      obtain ⟨e, hrefuses, rfl⟩ := loadNamespaces_eq_error_iff.mp h
      exact .namespaces rfl hrefuses

/-- The stock operations can always be registered. -/
theorem not_fails_registry : ¬ Fails s nsPath treePath dPath .registry f := by
  rintro (_ | ⟨-, h⟩)
  rw [StockOperation.build_registrations] at h
  cases h

theorem fails_dialect_iff :
    Fails s nsPath treePath dPath .dialect f ↔ loadDialect s dPath = .error f := by
  constructor
  · rintro (_ | _ | ⟨rfl, h⟩)
    exact loadDialect_eq_error_iff.mpr ⟨_, h, rfl⟩
  · intro h
    cases dPath with
    | none => cases h
    | some path =>
      obtain ⟨e, hrefuses, rfl⟩ := loadDialect_eq_error_iff.mp h
      exact .dialect rfl hrefuses

theorem fails_reading_iff :
    Fails s nsPath treePath dPath .reading f ↔ readTree s treePath = .error f := by
  constructor
  · intro h
    cases h with
    | readingInput hpath h => rw [readTree, standardInputPath, if_pos hpath, h]
    | readingFile hpath h => rw [readTree, standardInputPath, if_neg hpath, text?_eq_none_iff.mpr h]
  · intro h
    rw [readTree] at h
    split_ifs at h with hpath
    · split at h
      · cases h
      next hinput =>
        cases h
        exact .readingInput hpath hinput
    · split at h
      · cases h
      next hfile =>
        cases h
        exact .readingFile hpath (text?_eq_none_iff.mp hfile)

theorem fails_decoding_iff : Fails s nsPath treePath dPath .decoding f ↔
    ∃ document e, readTree s treePath = .ok document ∧ Node.ofDocument document = .error e ∧
      f = ⟨"failed to decode criteria tree", .query e⟩ := by
  constructor
  · intro h
    cases h with
    | decoding hdocument h => exact ⟨_, _, readTree_eq_ok_iff.mpr hdocument, h, rfl⟩
  · rintro ⟨document, e, hdocument, h, rfl⟩
    exact .decoding (readTree_eq_ok_iff.mp hdocument) h

theorem fails_compiling_iff : Fails s nsPath treePath dPath .compiling f ↔
    ∃ ns g d document n e, loadNamespaces s nsPath = .ok ns ∧ loadRegistry ns = .ok g ∧
      loadDialect s dPath = .ok d ∧ readTree s treePath = .ok document ∧
      Node.ofDocument document = .ok n ∧ Compiler.compile ⟨g, d⟩ n = .error e ∧
      f = ⟨"failed to compile tree '" ++ n.id ++ "'", .query e⟩ := by
  simp only [loadNamespaces_eq_ok_iff, loadRegistry_eq_ok_iff, loadDialect_eq_ok_iff,
    readTree_eq_ok_iff]
  constructor
  · intro h
    cases h with
    | compiling hns hg hd hdocument hn h =>
      exact ⟨_, _, _, _, _, _, hns, hg, hd, hdocument, hn, h, rfl⟩
  · rintro ⟨ns, g, d, document, n, e, hns, hg, hd, hdocument, hn, h, rfl⟩
    exact .compiling hns hg hd hdocument hn h

/-- A stage fails for one reason only. -/
theorem Fails.unique {stage : Stage} {f' : Failure} (h : Fails s nsPath treePath dPath stage f)
    (h' : Fails s nsPath treePath dPath stage f') : f = f' := by
  cases stage with
  | namespaces =>
    rw [fails_namespaces_iff] at h h'
    exact Except.error.inj (h.symm.trans h')
  | registry => exact absurd h not_fails_registry
  | dialect =>
    rw [fails_dialect_iff] at h h'
    exact Except.error.inj (h.symm.trans h')
  | reading =>
    rw [fails_reading_iff] at h h'
    exact Except.error.inj (h.symm.trans h')
  | decoding =>
    rw [fails_decoding_iff] at h h'
    obtain ⟨document, e, hdocument, h, rfl⟩ := h
    obtain ⟨document', e', hdocument', h', rfl⟩ := h'
    obtain rfl : document = document' := Except.ok.inj (hdocument.symm.trans hdocument')
    obtain rfl : e = e' := Except.error.inj (h.symm.trans h')
    rfl
  | compiling =>
    rw [fails_compiling_iff] at h h'
    obtain ⟨ns, g, d, document, n, e, hns, hg, hd, hdocument, hn, h, rfl⟩ := h
    obtain ⟨ns', g', d', document', n', e', hns', hg', hd', hdocument', hn', h', rfl⟩ := h'
    obtain rfl : ns = ns' := Except.ok.inj (hns.symm.trans hns')
    obtain rfl : g = g' := Except.ok.inj (hg.symm.trans hg')
    obtain rfl : d = d' := Except.ok.inj (hd.symm.trans hd')
    obtain rfl : document = document' := Except.ok.inj (hdocument.symm.trans hdocument')
    obtain rfl : n = n' := Except.ok.inj (hn.symm.trans hn')
    obtain rfl : e = e' := Except.error.inj (h.symm.trans h')
    rfl

end Steps

/-! ## The whole run -/

/-- The query of a compilation, or why there is none. -/
def compilation (s : Surroundings) (nsPath : Option String) (treePath : String)
    (dPath : Option String) : Except Failure String := do
  let ns ← loadNamespaces s nsPath
  let registry ← loadRegistry ns
  let dialect ← loadDialect s dPath
  let document ← readTree s treePath
  compileDocument ⟨registry, dialect⟩ document

section Run

variable {s : Surroundings} {nsPath : Option String} {treePath : String} {dPath : Option String}

theorem run_lift_bind {α β : Type} (x : Except Failure α) (k : α → Session β) (before : String) :
    (do let a ← Session.lift x; k a).run before
      = match x with
        | .ok a => (k a).run before
        | .error f => .error f before := by
  cases x <;> rfl

/-- A compilation prints last, and only if nothing failed. -/
theorem run_perform_compile (before : String) :
    (perform s ⟨nsPath, .compile treePath dPath⟩).run before
      = match compilation s nsPath treePath dPath with
        | .ok query => .ok () (before ++ (query ++ "\n"))
        | .error f => .error f before := by
  rw [perform, compilation, run_lift_bind]
  cases loadNamespaces s nsPath with
  | error f => rfl
  | ok ns =>
    simp only [run_lift_bind, except_ok_bind]
    cases loadRegistry ns with
    | error f => rfl
    | ok g =>
      simp only [except_ok_bind]
      cases loadDialect s dPath with
      | error f => rfl
      | ok d =>
        simp only [except_ok_bind]
        cases readTree s treePath with
        | error f => rfl
        | ok document =>
          simp only [except_ok_bind]
          cases compileDocument ⟨g, d⟩ document <;> rfl

theorem compilation_eq_ok_iff {query : String} :
    compilation s nsPath treePath dPath = .ok query ↔ Gives s nsPath treePath dPath query := by
  simp only [compilation, except_bind_eq_ok, loadNamespaces_eq_ok_iff, loadRegistry_eq_ok_iff,
    loadDialect_eq_ok_iff, readTree_eq_ok_iff, compileDocument_eq_ok_iff, Gives]
  constructor
  · rintro ⟨ns, hns, g, hg, d, hd, document, hdocument, n, hn, h⟩
    exact ⟨ns, g, d, document, n, hns, hg, hd, hdocument, hn, h⟩
  · rintro ⟨ns, g, d, document, n, hns, hg, hd, hdocument, hn, h⟩
    exact ⟨ns, hns, g, hg, d, hd, document, hdocument, n, hn, h⟩

theorem FreeBelow.next {stage : Stage} (h : FreeBelow s nsPath treePath dPath stage.place)
    (hstage : ∀ f, ¬ Fails s nsPath treePath dPath stage f) :
    FreeBelow s nsPath treePath dPath (stage.place + 1) := by
  intro stage' f hfails
  have hle := h stage' f hfails
  have hne : stage.place ≠ stage'.place := by
    intro heq
    rw [← Stage.place_injective heq] at hfails
    exact hstage f hfails
  omega

theorem FailsFirst.unique {f f' : Failure} (h : FailsFirst s nsPath treePath dPath f)
    (h' : FailsFirst s nsPath treePath dPath f') : f = f' := by
  obtain ⟨stage, hfails, hfree⟩ := h
  obtain ⟨stage', hfails', hfree'⟩ := h'
  have hplace : stage.place = stage'.place :=
    Nat.le_antisymm (hfree stage' f' hfails') (hfree' stage f hfails)
  obtain rfl : stage = stage' := Stage.place_injective hplace
  exact hfails.unique hfails'

/-- A compilation fails as the first stage that fails, and has a query only if no stage fails. -/
theorem compilation_cases :
    (∃ query, compilation s nsPath treePath dPath = .ok query ∧
        ∀ stage f, ¬ Fails s nsPath treePath dPath stage f) ∨
      ∃ f, compilation s nsPath treePath dPath = .error f ∧
        FailsFirst s nsPath treePath dPath f := by
  have hbelow : FreeBelow s nsPath treePath dPath Stage.namespaces.place :=
    fun _ _ _ => Nat.zero_le _
  rw [compilation]
  cases hns : loadNamespaces s nsPath with
  | error f => exact .inr ⟨f, rfl, _, fails_namespaces_iff.mpr hns, hbelow⟩
  | ok ns =>
    have hbelow : FreeBelow s nsPath treePath dPath Stage.registry.place :=
      hbelow.next fun f => by simp [fails_namespaces_iff, hns]
    have hbelow : FreeBelow s nsPath treePath dPath Stage.dialect.place :=
      hbelow.next fun f => not_fails_registry
    rw [except_ok_bind, loadRegistry_eq, except_ok_bind]
    cases hd : loadDialect s dPath with
    | error f => exact .inr ⟨f, rfl, _, fails_dialect_iff.mpr hd, hbelow⟩
    | ok d =>
      have hbelow : FreeBelow s nsPath treePath dPath Stage.reading.place :=
        hbelow.next fun f => by simp [fails_dialect_iff, hd]
      rw [except_ok_bind]
      cases hdocument : readTree s treePath with
      | error f => exact .inr ⟨f, rfl, _, fails_reading_iff.mpr hdocument, hbelow⟩
      | ok document =>
        have hbelow : FreeBelow s nsPath treePath dPath Stage.decoding.place :=
          hbelow.next fun f => by simp [fails_reading_iff, hdocument]
        rw [except_ok_bind, compileDocument]
        cases hn : Node.ofDocument document with
        | error e =>
          exact .inr ⟨_, rfl, _, fails_decoding_iff.mpr ⟨document, e, hdocument, hn, rfl⟩, hbelow⟩
        | ok n =>
          have hbelow : FreeBelow s nsPath treePath dPath Stage.compiling.place :=
            hbelow.next fun f => by simp [fails_decoding_iff, hdocument, hn]
          rw [inContext, except_ok_bind]
          cases hquery : Compiler.compile ⟨⟨StockOperation.registrations ns .standard⟩, d⟩ n with
          | error e =>
            exact .inr ⟨_, rfl, _, fails_compiling_iff.mpr ⟨ns, _, d, document, n, e, hns,
              loadRegistry_eq ns, hd, hdocument, hn, hquery, rfl⟩, hbelow⟩
          | ok query =>
            have hnone := hbelow.next fun f => by
              simp [fails_compiling_iff, hns, loadRegistry_eq, hd, hdocument, hn, hquery]
            refine .inl ⟨query, rfl, fun stage f hf => ?_⟩
            exact absurd (hnone stage f hf) (Nat.not_le.mpr stage.place_lt)

/-- A compilation succeeds exactly if every stage has a result, and then it prints the query and a
line feed. Otherwise it fails as the first of the stages that fail, whatever is wrong with later
ones, and has printed nothing. -/
theorem prints_query_or_fails_as_first_failing_stage (s : Surroundings) (nsPath : Option String)
    (treePath : String) (dPath : Option String) (before after : String) :
    ((perform s ⟨nsPath, .compile treePath dPath⟩).run before = .ok () after ↔
      ∃ query, Gives s nsPath treePath dPath query ∧ after = before ++ (query ++ "\n")) ∧
    ∀ f, (perform s ⟨nsPath, .compile treePath dPath⟩).run before = .error f after ↔
      FailsFirst s nsPath treePath dPath f ∧ after = before := by
  rw [run_perform_compile]
  simp only [← compilation_eq_ok_iff]
  rcases compilation_cases with ⟨query, hquery, hnone⟩ | ⟨f, hf, hfirst⟩
  · rw [hquery]
    refine ⟨by simp [eq_comm], fun f => ?_⟩
    simp only [reduceCtorEq, false_iff, not_and]
    rintro ⟨stage, hfails, -⟩
    exact absurd hfails (hnone stage f)
  · rw [hf]
    refine ⟨by simp, fun f' => ?_⟩
    constructor
    · intro h
      cases h
      exact ⟨hfirst, rfl⟩
    · rintro ⟨hfirst', rfl⟩
      rw [hfirst.unique hfirst']

/-- The namespaces, the dialect and the tree come from files. -/
theorem prints_query_of_three_files :
    let tree : Node := .condition ⟨"c", .and, .none,
      [.rule ⟨"r", "title", .string, "equals", [.literal "draft"], false⟩,
        .condition ⟨"d", .and, .exclude,
          [.rule ⟨"o", "owner", .string, "equals", [.literal "guest"], false⟩]⟩]⟩
    let s := Surroundings.ofTexts
      [("ns.yaml", "default_prefix: cm\nprefixes: [cm, sys]\nfields:\n  owner: sys:owner\n"),
        ("s.yaml", "group_open: '['\ngroup_close: ']'\nand_token: '&&'\nexclude_marker: 'NOT '\n"),
        ("t.json", tree.render)]
    let query := "[cm:title:\"draft\" && NOT [sys:owner:\"guest\"]]"
    Gives s (some "ns.yaml") "t.json" (some "s.yaml") query ∧
      (perform s ⟨some "ns.yaml", .compile "t.json" (some "s.yaml")⟩).run ""
        = .ok () (query ++ "\n") := by
  intro tree s query
  let ns : Namespaces := ⟨some "cm", ["cm", "sys"], [("owner", "sys:owner")]⟩
  let d : Dialect :=
    { groupOpen := "[", groupClose := "]", andToken := "&&", excludeMarker := "NOT " }
  have hns : s.GivesNamespaces (some "ns.yaml") ns :=
    ⟨_, Surroundings.holdsText_ofTexts rfl, Namespaces.ofYaml_eq_ok_iff.mp (by decide +kernel)⟩
  have hd : s.GivesDialect (some "s.yaml") d :=
    ⟨_, Surroundings.holdsText_ofTexts rfl, Dialect.ofYaml_eq_ok_iff.mp (by decide +kernel)⟩
  have htree : Node.ofDocument tree.render = .ok tree := by
    rw [Node.render, Node.ofDocument_eq_ofJson tree.numberFree_toJson (by decide +kernel)]
    decide +kernel
  have hquery : Compiler.compile ⟨⟨StockOperation.registrations ns .standard⟩, d⟩ tree
      = .ok query := by
    decide +kernel
  have hgives : Gives s (some "ns.yaml") "t.json" (some "s.yaml") query :=
    ⟨ns, _, d, _, tree, hns, StockOperation.build_registrations _ _, hd,
      Surroundings.holdsText_ofTexts rfl, htree, hquery⟩
  exact ⟨hgives, (prints_query_or_fails_as_first_failing_stage ..).1.mpr ⟨query, hgives, rfl⟩⟩

/-- Neither file can be read, and the dialect comes before the tree. -/
example : (perform ⟨fun _ => none, .empty⟩ ⟨none, .compile "t.json" (some "s.yaml")⟩).run ""
    = .error ⟨"failed to load syntax from s.yaml", .settings .unreadable⟩ "" := by
  rw [run_perform_compile, compilation, loadNamespaces, except_ok_bind, loadRegistry_eq]
  rfl

end Run

end SearchFilter.CommandLine
