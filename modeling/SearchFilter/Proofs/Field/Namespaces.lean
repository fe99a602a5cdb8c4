import Mathlib.Data.List.Basic
import SearchFilter.Field.Namespaces
import SearchFilter.Proofs.Field.Identifier
import SearchFilter.Proofs.Yaml.Settings

/-!
# Fields stay in the known namespaces

The default namespace is a known one, however the namespaces came about: setting it makes it known,
nothing makes a namespace unknown again, and a document with another default is refused. So a field
is only written in a known namespace, unless it has an entry of its own or no namespace at all.
-/

namespace SearchFilter

namespace Field

/-- A name: a letter of the ASCII range or an underscore, and then word characters, dots and
dashes. -/
def IsPlainName (name : String) : Prop :=
  ∃ c cs, name.toList = c :: cs ∧ (Text.isAsciiLetter c = true ∨ c = '_') ∧
    ∀ d ∈ cs, Text.isWord d = true ∨ d = '.' ∨ d = '-'

/-- The identifier of a name in a namespace, or outside of all namespaces. -/
inductive Identifies (identifier : String) : Option String → String → Prop
  | bare (hname : IsPlainName identifier) : Identifies identifier none identifier
  | qualified {space name : String} (hspace : IsPlainName space) (hname : IsPlainName name)
    (heq : identifier = space ++ ":" ++ name) : Identifies identifier (some space) name

theorem isPlainName_iff {name : String} : IsPlainName name ↔ isName name.toList = true := by
  rw [IsPlainName]
  cases name.toList with
  | nil => simp [isName]
  | cons c cs => simp [isName, isNameStart, isNameChar, or_assoc]

theorem exists_identifies {identifier : String} (h : isIdentifier identifier = true) :
    ∃ space? name, Identifies identifier space? name := by
  rcases isIdentifier_cases h with hname | ⟨first, second, heq, hfirst, hsecond⟩
  · exact ⟨none, identifier, .bare (isPlainName_iff.mpr hname)⟩
  · refine ⟨some (String.ofList first), String.ofList second, .qualified ?_ ?_ ?_⟩
    · rwa [isPlainName_iff, String.toList_ofList]
    · rwa [isPlainName_iff, String.toList_ofList]
    · apply String.toList_inj.mp
      simp [heq]

theorem IsPlainName.colon_notMem {name : String} (h : IsPlainName name) : ':' ∉ name.toList :=
  colon_notMem_of_isName (isPlainName_iff.mp h)

variable {identifier name : String} {space? : Option String}

/-- An identifier with a colon has its namespace before the colon. -/
theorem Identifies.of_colon (h : Identifies identifier space? name) {first rest : List Char}
    (hcolon : identifier.toList = first ++ ':' :: rest) :
    space? = some (String.ofList first) ∧ name = String.ofList rest := by
  cases h with
  | bare hname =>
    refine absurd ?_ hname.colon_notMem
    rw [hcolon]
    simp
  | @qualified space name hspace hname heq =>
    have hparts : space.toList ++ ':' :: name.toList = first ++ ':' :: rest := by
      rw [← hcolon, heq]
      simp
    obtain ⟨hfirst, -, hrest⟩ :=
      (List.append_cons_inj_of_notMem hspace.colon_notMem hname.colon_notMem).mp hparts
    rw [← hfirst, ← hrest, String.ofList_toList, String.ofList_toList]
    exact ⟨rfl, rfl⟩

theorem Identifies.of_notMem_colon (h : Identifies identifier space? name)
    (hcolon : ':' ∉ identifier.toList) : space? = none := by
  cases h with
  | bare => rfl
  | qualified hspace hname heq =>
    rw [heq] at hcolon
    simp at hcolon

end Field

namespace Namespaces

/-- Namespaces that were built step by step from empty ones. -/
inductive Built : Namespaces → Prop
  | empty : Built {}
  | setDefault {ns : Namespaces} (h : Built ns) (name : String) : Built (ns.setDefault name)
  | addKnown {ns : Namespaces} (h : Built ns) (name : String) : Built (ns.addKnown name)
  | addField {ns : Namespaces} (h : Built ns) (field identifier : String) :
    Built (ns.addField field identifier)

variable {ns : Namespaces}

theorem knows_iff {name : String} : ns.knows name = true ↔ name ∈ ns.known ∨ ns.known = [] := by
  simp [knows, or_comm]

/-- The default namespace is listed, if there is one. -/
def ListsDefault (ns : Namespaces) : Prop :=
  ∀ name, ns.default? = some name → name ∈ ns.known

theorem mem_known_of_mem {known : List String} {name other : String} (h : name ∈ known) :
    name ∈ Order.insertBy id other known := by
  by_cases hsame : other = name
  · rw [hsame]
    exact Order.mem_insertBy_self name known
  · exact Order.mem_insertBy_of_mem h hsame

/-- Every step of building keeps the default namespace listed. -/
theorem Built.listsDefault (h : ns.Built) : ns.ListsDefault := by
  induction h with
  | empty => exact fun name hname => nomatch hname
  | @setDefault ns _ name _ =>
    rintro _ ⟨⟩
    exact Order.mem_insertBy_self name ns.known
  | addKnown _ name ih => exact fun other hother => mem_known_of_mem (ih other hother)
  | addField _ field identifier ih => exact ih

/-- Valid namespaces know their default. -/
theorem knows_of_validate {name : String} (h : ns.validate = .ok ())
    (hname : ns.default? = some name) : ns.knows name = true := by
  by_contra hunknown
  rw [validate, fault?, hname, Option.filter_some, if_pos (by simpa using hunknown)] at h
  cases h

/-- What the identifier of a field is: the entry of the field, the field itself if it names a known
namespace, or else the field in the default namespace. -/
theorem qualify?_cases {field identifier : String} (h : ns.qualify? field = some identifier) :
    ns.entry? field = some identifier ∨
      (∃ first rest, field.toList = first ++ ':' :: rest ∧
        ns.knows (String.ofList first) = true ∧ identifier = field) ∨
      (∃ name, ns.default? = some name ∧ identifier = name ++ ":" ++ field) ∨
      (':' ∉ field.toList ∧ ns.default? = none ∧ identifier = field) := by
  rw [qualify?] at h
  split at h
  · cases h
  split at h
  next entry hentry =>
    exact .inl (hentry.trans h)
  next hentry =>
    rcases Field.splitAtColon_cases field.toList with ⟨hcolon, hsplit⟩ | ⟨first, rest, heq, hsplit⟩
    · rw [hsplit] at h
      dsimp only at h
      split at h
      next name hdefault =>
        cases h
        exact .inr (.inr (.inl ⟨name, hdefault, rfl⟩))
      next hdefault =>
        cases h
        exact .inr (.inr (.inr ⟨hcolon, hdefault, rfl⟩))
    · rw [hsplit] at h
      obtain ⟨⟨-, hknown⟩, hidentifier⟩ := Option.ite_none_right_eq_some.mp h
      cases hidentifier
      exact .inr (.inl ⟨first, rest, heq, hknown, rfl⟩)

/-- The identifier of a rule's field is well-formed, and it is the entry of the field, a field
without a namespace where there is no default, or in a known namespace. -/
theorem identifier_stays_in_known_namespaces {r : Rule} {identifier : String}
    (hns : ns.Built ∨ ∃ text, ofYaml text = .ok ns)
    (h : Clause.fieldOf ns r = .ok identifier) :
    ∃ space? name, Field.Identifies identifier space? name ∧
      (ns.entry? r.field = some identifier ∨
        (space? = none ∧ identifier = r.field ∧ ns.default? = none) ∨
        ∃ space, space? = some space ∧ (space ∈ ns.known ∨ ns.known = [])) := by
  obtain ⟨hidentifier, hvalid⟩ := Clause.fieldOf_eq_ok_iff.mp h
  obtain ⟨space?, name, hparts⟩ := Field.exists_identifies hvalid
  refine ⟨space?, name, hparts, ?_⟩
  have hdefault : ∀ name, ns.default? = some name → ns.knows name = true := by
    intro name hname
    rcases hns with hbuilt | ⟨text, htext⟩
    · exact knows_iff.mpr (.inl (hbuilt.listsDefault name hname))
    · exact knows_of_validate (ofYaml_eq_ok_iff.mp htext).2 hname
  rcases qualify?_cases hidentifier with hentry | ⟨first, rest, heq, hknown, rfl⟩ |
    ⟨space, hspace, rfl⟩ | ⟨hcolon, hnone, rfl⟩
  · exact .inl hentry
  · exact .inr (.inr ⟨_, (hparts.of_colon heq).1, knows_iff.mp hknown⟩)
  · have hcolon : (space ++ ":" ++ r.field).toList = space.toList ++ ':' :: r.field.toList := by
      simp
    have hspace? := (hparts.of_colon hcolon).1
    rw [String.ofList_toList] at hspace?
    exact .inr (.inr ⟨space, hspace?, knows_iff.mp (hdefault space hspace)⟩)
  · exact .inr (.inl ⟨hparts.of_notMem_colon hcolon, rfl, hnone⟩)

/-- A field without a namespace, where another default was set before and other namespaces and
entries came after. -/
theorem identifier_stays_in_known_namespaces_of_default :
    let ns := (((({} : Namespaces).setDefault "app").setDefault "cm").addKnown "sys").addField
      "owner" "app:owner"
    let r := Rule.new "r" "title" .string "equals"
    ns.Built ∧ Clause.fieldOf ns r = .ok "cm:title" ∧
      ∃ space? name, Field.Identifies "cm:title" space? name ∧
        (ns.entry? "title" = some "cm:title" ∨
          (space? = none ∧ "cm:title" = "title" ∧ ns.default? = none) ∨
          ∃ space, space? = some space ∧ (space ∈ ns.known ∨ ns.known = [])) := by
  intro ns r
  have hbuilt : ns.Built :=
    .addField (.addKnown (.setDefault (.setDefault .empty "app") "cm") "sys") "owner" "app:owner"
  have hfield : Clause.fieldOf ns r = .ok "cm:title" := by decide +kernel
  exact ⟨hbuilt, hfield, identifier_stays_in_known_namespaces (.inl hbuilt) hfield⟩

/-- The default of a document may go unlisted, until a further step lists another namespace. -/
example :
    let ns : Namespaces := { default? := some "cm" }
    ns.validate = .ok () ∧ (ns.addKnown "sys").qualify? "title" = some "cm:title" ∧
      (ns.addKnown "sys").knows "cm" = false := by decide

end Namespaces

end SearchFilter
