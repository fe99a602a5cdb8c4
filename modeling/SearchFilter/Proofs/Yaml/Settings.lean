import SearchFilter.Dialect
import SearchFilter.Field.Namespaces
import SearchFilter.Proofs.Except

/-!
# Settings in YAML

A YAML text holds settings with names that are known and different. They are read one after the
other, each into the part of a record that it names, but their order does not matter: a part that is
named has the value under its name, and any other part keeps the standard value. So a text is
refused for one of two reasons. It describes no record, or it describes one that is not valid.
-/

namespace SearchFilter

namespace Yaml

/-- The text is a YAML document with the entries: a mapping, or nothing where there are none. -/
def HoldsEntries (text : String) (entries : List (Node × Node)) : Prop :=
  parse? text = some none ∧ entries = [] ∨
    ∃ n, parse? text = some (some n) ∧ n.entries? = some entries

/-- The text is a YAML document of the settings, which have known and different names. -/
def HoldsSettings (known : List String) (text : String) (settings : List (String × Node)) : Prop :=
  ∃ entries, HoldsEntries text entries ∧
    List.Forall₂ (fun e s => e.1.text? = some s.1 ∧ e.2 = s.2) entries settings ∧
    (∀ s ∈ settings, s.1 ∈ known) ∧ (settings.map Prod.fst).Nodup

theorem entries?_eq_some_iff {text : String} {entries : List (Node × Node)} :
    entries? text = some entries ↔ HoldsEntries text entries := by
  rw [entries?, HoldsEntries]
  cases parse? text with
  | none => simp
  | some n? => cases n? <;> simp [eq_comm]

theorem mapM_text?_eq_some_iff {entries : List (Node × Node)} {settings : List (String × Node)} :
    (entries.mapM fun e => do return (← e.1.text?, e.2)) = some settings ↔
      List.Forall₂ (fun e s => e.1.text? = some s.1 ∧ e.2 = s.2) entries settings := by
  have hentry (e : Node × Node) (s : String × Node) :
      (do return (← e.1.text?, e.2)) = some s ↔ e.1.text? = some s.1 ∧ e.2 = s.2 := by
    simp [Option.bind_eq_some_iff, Prod.ext_iff]
  simp only [mapM_eq_some_iff, hentry]

theorem settings?_eq_some_iff {known : List String} {text : String}
    {settings : List (String × Node)} :
    settings? known text = some settings ↔ HoldsSettings known text settings := by
  simp only [settings?, HoldsSettings, Option.bind_eq_bind, Option.bind_eq_some_iff,
    entries?_eq_some_iff]
  constructor
  · rintro ⟨entries, hentries, settings', hsettings, h⟩
    obtain ⟨hnames, h⟩ := Option.ite_none_right_eq_some.mp h
    cases h
    exact ⟨entries, hentries, mapM_text?_eq_some_iff.mp hsettings, by simpa using hnames⟩
  · rintro ⟨entries, hentries, hsettings, hnames⟩
    exact ⟨entries, hentries, settings, mapM_text?_eq_some_iff.mpr hsettings,
      if_pos (by simpa using hnames)⟩

/-- The value that settings have under a name, or the standard one if they do not have the name. -/
def valueUnder? {α : Type} (settings : List (String × Node)) (name : String)
    (read : Node → Option α) (standard : α) : Option α :=
  match settings.lookup name with
  | some node => read node
  | none => some standard

section

variable {α : Type} {settings : List (String × Node)} {name : String} {read : Node → Option α}
  {standard : α}

@[simp] theorem valueUnder?_nil : valueUnder? [] name read standard = some standard := rfl

theorem valueUnder?_cons (other : String) (node : Node) :
    valueUnder? ((other, node) :: settings) name read standard
      = if name = other then read node else valueUnder? settings name read standard := by
  rw [valueUnder?, valueUnder?, List.lookup_cons]
  by_cases h : name = other
  · simp [h]
  · rw [beq_false_of_ne h, if_neg h]

theorem valueUnder?_of_notMem (h : name ∉ settings.map Prod.fst) :
    valueUnder? settings name read standard = some standard := by
  rw [valueUnder?, List.lookup_eq_none_iff.mpr]
  intro s hs
  simpa using fun heq : name = s.1 => h (heq ▸ List.mem_map_of_mem hs)

theorem valueUnder?_of_mem {node : Node} (hnodup : (settings.map Prod.fst).Nodup)
    (h : (name, node) ∈ settings) : valueUnder? settings name read standard = read node := by
  induction settings with
  | nil => cases h
  | cons s settings ih =>
    obtain ⟨hfresh, hnodup⟩ := List.nodup_cons.mp hnodup
    rw [valueUnder?_cons]
    rcases List.mem_cons.mp h with rfl | h
    · exact if_pos rfl
    · have hne : name ≠ s.1 := fun heq => hfresh (heq ▸ List.mem_map_of_mem h)
      rw [if_neg hne, ih hnodup h]

/-- The order of the settings does not matter. -/
theorem valueUnder?_eq_of_perm {settings' : List (String × Node)}
    (hnodup : (settings.map Prod.fst).Nodup) (hperm : settings.Perm settings') :
    valueUnder? settings name read standard = valueUnder? settings' name read standard := by
  have hnodup' : (settings'.map Prod.fst).Nodup := (hperm.map Prod.fst).nodup_iff.mp hnodup
  by_cases h : name ∈ settings.map Prod.fst
  · obtain ⟨⟨_, node⟩, hs, rfl⟩ := List.mem_map.mp h
    rw [valueUnder?_of_mem hnodup hs, valueUnder?_of_mem hnodup' (hperm.mem_iff.mp hs)]
  · have h' : name ∉ settings'.map Prod.fst := fun hmem =>
      h ((hperm.map Prod.fst).mem_iff.mpr hmem)
    rw [valueUnder?_of_notMem h, valueUnder?_of_notMem h']

end

/-! ### Records -/

section

variable {α : Type} {known : List String} {set? : α → String → Node → Option α}
  {validate : α → Except SettingsError Unit} {start a : α} {text : String}

/-- The reader puts one setting after the other. So it reads a record exactly if the text holds
settings that the record `Has`, for any relation that takes settings one after the other too. -/
theorem read?_eq_some_iff {Has : List (String × Node) → α → α → Prop}
    (hnil : ∀ start a, Has [] start a ↔ start = a)
    (hcons : ∀ name node settings start a, name ∈ known → name ∉ settings.map Prod.fst →
      (Has ((name, node) :: settings) start a ↔
        ∃ a', set? start name node = some a' ∧ Has settings a' a)) :
    read? known set? start text = some a ↔
      ∃ settings, HoldsSettings known text settings ∧ Has settings start a := by
  rw [read?, Option.bind_eq_bind, Option.bind_eq_some_iff]
  simp only [settings?_eq_some_iff]
  refine exists_congr fun settings => and_congr_right fun hsettings => ?_
  obtain ⟨-, -, -, hknown, hnodup⟩ := hsettings
  induction settings generalizing start with
  | nil => simp [hnil]
  | cons s settings ih =>
    obtain ⟨hfresh, hnodup⟩ := List.nodup_cons.mp hnodup
    obtain ⟨hs, hknown⟩ := List.forall_mem_cons.mp hknown
    rw [hcons _ _ _ _ _ hs hfresh, List.foldlM_cons, Option.bind_eq_bind, Option.bind_eq_some_iff]
    exact exists_congr fun a' => and_congr_right fun _ => ih hknown hnodup

theorem load_eq_ok_iff : load known set? validate start text = .ok a ↔
    read? known set? start text = some a ∧ validate a = .ok () := by
  rw [load]
  cases read? known set? start text with
  | none => simp
  | some a' =>
    simp only [except_map_eq_ok, Option.some.injEq]
    constructor
    · rintro ⟨_, hvalid, rfl⟩
      exact ⟨rfl, hvalid⟩
    · rintro ⟨rfl, hvalid⟩
      exact ⟨(), hvalid, rfl⟩

theorem load_eq_error_iff {e : SettingsError} : load known set? validate start text = .error e ↔
    (¬ ∃ a, read? known set? start text = some a) ∧ e = .malformed ∨
      ∃ a, read? known set? start text = some a ∧ validate a = .error e := by
  rw [load]
  cases read? known set? start text with
  | none => simp [eq_comm]
  | some a => cases h : validate a <;> simp [h]

end

end Yaml

namespace Dialect

open Yaml (valueUnder? valueUnder?_cons valueUnder?_of_notMem valueUnder?_eq_of_perm)

/-- The dialect is what the settings make of the dialect `start`. -/
@[mk_iff]
structure IsReadFrom (settings : List (String × Yaml.Node)) (start d : Dialect) : Prop where
  groupOpen : valueUnder? settings "group_open" Yaml.Node.text? start.groupOpen = some d.groupOpen
  groupClose :
    valueUnder? settings "group_close" Yaml.Node.text? start.groupClose = some d.groupClose
  andToken : valueUnder? settings "and_token" Yaml.Node.text? start.andToken = some d.andToken
  orToken : valueUnder? settings "or_token" Yaml.Node.text? start.orToken = some d.orToken
  mustMarker :
    valueUnder? settings "must_marker" Yaml.Node.text? start.mustMarker = some d.mustMarker
  shouldMarker :
    valueUnder? settings "should_marker" Yaml.Node.text? start.shouldMarker = some d.shouldMarker
  excludeMarker :
    valueUnder? settings "exclude_marker" Yaml.Node.text? start.excludeMarker = some d.excludeMarker
  implicitBoost :
    valueUnder? settings "implicit_boost" (fun n => n.choice?.bind Boost.ofName?)
      start.implicitBoost = some d.implicitBoost

theorem isReadFrom_nil {start d : Dialect} : IsReadFrom [] start d ↔ start = d := by
  cases start
  cases d
  simp [isReadFrom_iff]

theorem isReadFrom_cons {name : String} {node : Yaml.Node} {settings : List (String × Yaml.Node)}
    {start d : Dialect} (hname : name ∈ settingNames) (hfresh : name ∉ settings.map Prod.fst) :
    IsReadFrom ((name, node) :: settings) start d ↔
      ∃ d', start.set? name node = some d' ∧ IsReadFrom settings d' d := by
  simp only [settingNames, List.mem_cons, List.not_mem_nil, or_false] at hname
  rcases hname with rfl | rfl | rfl | rfl | rfl | rfl | rfl | rfl
  case inr.inr.inr.inr.inr.inr.inr =>
    cases h : node.choice?.bind Boost.ofName? <;>
      simp [isReadFrom_iff, valueUnder?_cons, valueUnder?_of_notMem hfresh, set?, h]
  all_goals
    cases h : node.text? <;>
      simp [isReadFrom_iff, valueUnder?_cons, valueUnder?_of_notMem hfresh, set?, h]

theorem isReadFrom_iff_of_perm {settings settings' : List (String × Yaml.Node)}
    {start d : Dialect} (hnodup : (settings.map Prod.fst).Nodup)
    (hperm : settings.Perm settings') :
    IsReadFrom settings start d ↔ IsReadFrom settings' start d := by
  simp only [isReadFrom_iff, valueUnder?_eq_of_perm hnodup hperm]

/-- The dialect is what a YAML document says about the standard one. -/
def IsDescribedBy (d : Dialect) (text : String) : Prop :=
  ∃ settings, Yaml.HoldsSettings settingNames text settings ∧ IsReadFrom settings {} d

theorem read?_eq_some_iff {d : Dialect} {text : String} :
    Yaml.read? settingNames set? {} text = some d ↔ d.IsDescribedBy text :=
  Yaml.read?_eq_some_iff (fun _ _ => isReadFrom_nil) fun _ _ _ _ _ => isReadFrom_cons

/-- The dialects of YAML documents are valid, and each valid one that is described is read. -/
theorem ofYaml_eq_ok_iff {text : String} {d : Dialect} :
    ofYaml text = .ok d ↔ d.IsDescribedBy text ∧ d.validate = .ok () := by
  rw [ofYaml, Yaml.load_eq_ok_iff, read?_eq_some_iff]

theorem ofYaml_eq_error_iff {text : String} {e : SettingsError} :
    ofYaml text = .error e ↔ (¬ ∃ d : Dialect, d.IsDescribedBy text) ∧ e = .malformed ∨
      ∃ d : Dialect, d.IsDescribedBy text ∧ d.validate = .error e := by
  simp only [ofYaml, Yaml.load_eq_error_iff, read?_eq_some_iff]

end Dialect

namespace Namespaces

open Yaml (valueUnder? valueUnder?_cons valueUnder?_of_notMem valueUnder?_eq_of_perm)

/-- The namespaces are what the settings make of the namespaces `start`. The known ones and the
entries of fields are put in order. -/
@[mk_iff]
structure IsReadFrom (settings : List (String × Yaml.Node)) (start ns : Namespaces) : Prop where
  default? : valueUnder? settings "default_prefix" Yaml.Node.optionalText? start.default?
    = some ns.default?
  known : valueUnder? settings "prefixes" (fun n => n.texts?.map (Order.ofListBy id)) start.known
    = some ns.known
  fields : valueUnder? settings "fields" (fun n => n.textPairs?.map (Order.ofListBy Prod.fst))
    start.fields = some ns.fields

theorem isReadFrom_nil {start ns : Namespaces} : IsReadFrom [] start ns ↔ start = ns := by
  cases start
  cases ns
  simp [isReadFrom_iff]

theorem isReadFrom_cons {name : String} {node : Yaml.Node} {settings : List (String × Yaml.Node)}
    {start ns : Namespaces} (hname : name ∈ settingNames)
    (hfresh : name ∉ settings.map Prod.fst) :
    IsReadFrom ((name, node) :: settings) start ns ↔
      ∃ ns', start.set? name node = some ns' ∧ IsReadFrom settings ns' ns := by
  simp only [settingNames, List.mem_cons, List.not_mem_nil, or_false] at hname
  rcases hname with rfl | rfl | rfl
  · simp [isReadFrom_iff, valueUnder?_cons, valueUnder?_of_notMem hfresh, set?, and_left_comm]
  · cases h : node.texts? <;>
      simp [isReadFrom_iff, valueUnder?_cons, valueUnder?_of_notMem hfresh, set?, h, and_left_comm]
  · cases h : node.textPairs? <;>
      simp [isReadFrom_iff, valueUnder?_cons, valueUnder?_of_notMem hfresh, set?, h]

theorem isReadFrom_iff_of_perm {settings settings' : List (String × Yaml.Node)}
    {start ns : Namespaces} (hnodup : (settings.map Prod.fst).Nodup)
    (hperm : settings.Perm settings') :
    IsReadFrom settings start ns ↔ IsReadFrom settings' start ns := by
  simp only [isReadFrom_iff, valueUnder?_eq_of_perm hnodup hperm]

/-- The namespaces are what a YAML document says. -/
def IsDescribedBy (ns : Namespaces) (text : String) : Prop :=
  ∃ settings, Yaml.HoldsSettings settingNames text settings ∧ IsReadFrom settings {} ns

theorem read?_eq_some_iff {ns : Namespaces} {text : String} :
    Yaml.read? settingNames set? {} text = some ns ↔ ns.IsDescribedBy text :=
  Yaml.read?_eq_some_iff (fun _ _ => isReadFrom_nil) fun _ _ _ _ _ => isReadFrom_cons

/-- The namespaces of YAML documents are valid, and all valid ones that are described are read. -/
theorem ofYaml_eq_ok_iff {text : String} {ns : Namespaces} :
    ofYaml text = .ok ns ↔ ns.IsDescribedBy text ∧ ns.validate = .ok () := by
  rw [ofYaml, Yaml.load_eq_ok_iff, read?_eq_some_iff]

theorem ofYaml_eq_error_iff {text : String} {e : SettingsError} :
    ofYaml text = .error e ↔ (¬ ∃ ns : Namespaces, ns.IsDescribedBy text) ∧ e = .malformed ∨
      ∃ ns : Namespaces, ns.IsDescribedBy text ∧ ns.validate = .error e := by
  simp only [ofYaml, Yaml.load_eq_error_iff, read?_eq_some_iff]

end Namespaces

end SearchFilter
