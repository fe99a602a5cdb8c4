import SearchFilter.Proofs.Decimal.Notation
import SearchFilter.Proofs.Json.Nesting

/-!
# Documents as they are written

A source is a JSON value as it stands in a document: its members in the order in which they stand
there, and its words and strings with the characters that they are written with. `Writes` is the
grammar of JSON: it relates a source to the texts that spell it, which differ in their blanks. A
text of the grammar is read as the value of its source, in the order in which a reader holds it, if
the source has a value and is not nested too deep.
-/

namespace SearchFilter.Json

open Decimal (IsExponent IsPunctuation IsRun)
open Text (isAsciiDigit startsIn_cons)
open Token (codeUnit? hexValue? isBare isHighSurrogate isLowSurrogate isSpace ofBare? ofChar?
  pairedChar readAll readText)

mutual

/-- A JSON value as it is written. -/
inductive Source where
  /-- A number or one of the names `true`, `false` and `null`. -/
  | word (chars : List Char)
  /-- A string, by what stands between its quotes. -/
  | text (chars : List Char)
  | array (elements : List Source)
  | object (members : List Source.Member)

/-- A named value of an object. Of the name it holds what stands between the quotes. -/
structure Source.Member where
  name : List Char
  value : Source

end

namespace Source

/-! ## The grammar -/

/-- The digits before the point: a zero alone, or digits that do not start with one. -/
def IsWhole (ds : List Char) : Prop :=
  ds = ['0'] ∨ IsRun isAsciiDigit ds ∧ ds.head? ≠ some '0'

/-- A point with digits behind it, or nothing. -/
def IsFraction (cs : List Char) : Prop :=
  cs = [] ∨ ∃ ds, IsRun isAsciiDigit ds ∧ cs = '.' :: ds

/-- A number. -/
def IsNumber (cs : List Char) : Prop :=
  ∃ sign whole fraction exponent, (sign = [] ∨ sign = ['-']) ∧ IsWhole whole ∧
    IsFraction fraction ∧ IsExponent isAsciiDigit exponent ∧
    cs = sign ++ (whole ++ (fraction ++ exponent))

/-- A number or one of the names. -/
def IsWord (cs : List Char) : Prop :=
  cs = ['n', 'u', 'l', 'l'] ∨ cs = ['t', 'r', 'u', 'e'] ∨ cs = ['f', 'a', 'l', 's', 'e'] ∨
    IsNumber cs

/-- What may stand between the quotes of a string. Whether the surrogates among its code units come
in pairs is no matter of the grammar. -/
inductive IsText : List Char → Prop
  | nil : IsText []
  | plain {c : Char} {cs : List Char} (hquote : c ≠ '"') (hbackslash : c ≠ '\\')
    (hcontrol : ¬ c.toNat < 0x20) (h : IsText cs) : IsText (c :: cs)
  | escape {e : Char} {cs : List Char}
    (he : e ∈ ['"', '\\', '/', 'b', 'f', 'n', 'r', 't']) (h : IsText cs) : IsText ('\\' :: e :: cs)
  | unit {a b c d : Char} {cs : List Char}
    (hhex : ∀ digit ∈ [a, b, c, d], (hexValue? digit).isSome = true) (h : IsText cs) :
    IsText ('\\' :: 'u' :: a :: b :: c :: d :: cs)

mutual

/-- The text spells the source. There may be blanks around it. -/
inductive Writes : Source → List Char → Prop
  | word {cs : List Char} (h : IsWord cs) : Writes (.word cs) cs
  | text {cs : List Char} (h : IsText cs) : Writes (.text cs) ('"' :: (cs ++ ['"']))
  | array {es : List Source} {cs : List Char} (h : WritesElements es cs) :
    Writes (.array es) ('[' :: (cs ++ [']']))
  | object {ms : List Member} {cs : List Char} (h : WritesMembers ms cs) :
    Writes (.object ms) ('\x7b' :: (cs ++ ['\x7d']))
  | before {s : Source} {c : Char} {cs : List Char} (hc : isSpace c = true) (h : Writes s cs) :
    Writes s (c :: cs)
  | after {s : Source} {c : Char} {cs : List Char} (hc : isSpace c = true) (h : Writes s cs) :
    Writes s (cs ++ [c])

/-- The text stands between the brackets of an array with the elements. -/
inductive WritesElements : List Source → List Char → Prop
  | nil {cs : List Char} (hblank : ∀ c ∈ cs, isSpace c = true) : WritesElements [] cs
  | single {e : Source} {cs : List Char} (h : Writes e cs) : WritesElements [e] cs
  | cons {e e' : Source} {es : List Source} {cs cs' : List Char} (h : Writes e cs)
    (hrest : WritesElements (e' :: es) cs') : WritesElements (e :: e' :: es) (cs ++ ',' :: cs')

/-- The text stands between the braces of an object with the members. -/
inductive WritesMembers : List Member → List Char → Prop
  | nil {cs : List Char} (hblank : ∀ c ∈ cs, isSpace c = true) : WritesMembers [] cs
  | single {m : Member} {cs : List Char} (h : WritesMember m cs) : WritesMembers [m] cs
  | cons {m m' : Member} {ms : List Member} {cs cs' : List Char} (h : WritesMember m cs)
    (hrest : WritesMembers (m' :: ms) cs') : WritesMembers (m :: m' :: ms) (cs ++ ',' :: cs')

/-- The text spells the member. A name is written like a string. -/
inductive WritesMember : Member → List Char → Prop
  | mk {name : List Char} {value : Source} {cs cs' : List Char} (hname : Writes (.text name) cs)
    (hvalue : Writes value cs') : WritesMember ⟨name, value⟩ (cs ++ ':' :: cs')

end

/-! ## The value of a source -/

/-- The string that is written between quotes; none if a surrogate has no partner. -/
def decode? (cs : List Char) : Option String :=
  (readText [] (cs ++ ['"'])).map Prod.fst

/-- The value of a number or a name; none if a number is out of range. -/
def scalar? (cs : List Char) : Option Json :=
  match ofBare? cs with
  | some (.scalar v) => some v
  | _ => none

mutual

/-- The value, if every string and every number in the source has one. -/
def value? : Source → Option Json
  | .word cs => scalar? cs
  | .text cs => (decode? cs).map .string
  | .array es => (elements? es).map .array
  | .object ms => (members? ms).map .object

/-- The values of the elements. -/
def elements? : List Source → Option (List Json)
  | [] => some []
  | e :: es => do return (← e.value?) :: (← elements? es)

/-- The members with their names and values. -/
def members? : List Member → Option (List Json.Member)
  | [] => some []
  | m :: ms => do return (← member? m) :: (← members? ms)

/-- The member with its name and its value. -/
def member? : Member → Option Json.Member
  | ⟨name, value⟩ => do return ⟨← decode? name, ← value.value?⟩

end

/-! ## Words -/

theorem isBare_of_isAsciiDigit {c : Char} (h : isAsciiDigit c = true) : isBare c = true := by
  simp [isBare, h]

theorem isBare_of_isPunctuation {c : Char} (h : IsPunctuation c) : isBare c = true := by
  rcases h with rfl | rfl | rfl | rfl | rfl <;> decide

theorem IsWhole.digits {ds : List Char} (h : IsWhole ds) :
    ds ≠ [] ∧ ∀ c ∈ ds, isAsciiDigit c = true := by
  rcases h with rfl | ⟨h, -⟩
  · exact ⟨by simp, List.forall_mem_singleton.mpr rfl⟩
  · exact h

/-- A number is made of the characters of words. -/
theorem IsNumber.isBare {cs : List Char} (h : IsNumber cs) :
    cs ≠ [] ∧ ∀ c ∈ cs, isBare c = true := by
  obtain ⟨sign, whole, fraction, exponent, hsign, hwhole, hfraction, hexponent, rfl⟩ := h
  have hsign : ∀ c ∈ sign, Token.isBare c = true := by
    rcases hsign with rfl | rfl
    · simp
    · exact List.forall_mem_singleton.mpr rfl
  have hwhole := hwhole.digits
  have hfraction : ∀ c ∈ fraction, Token.isBare c = true := by
    rcases hfraction with rfl | ⟨ds, hds, rfl⟩
    · simp
    · exact List.forall_mem_cons.mpr ⟨by decide, fun c hc => isBare_of_isAsciiDigit (hds.2 c hc)⟩
  have hexponent (c : Char) (hc : c ∈ exponent) : Token.isBare c = true :=
    (hexponent.chars c hc).elim isBare_of_isAsciiDigit isBare_of_isPunctuation
  constructor
  · exact List.append_ne_nil_of_right_ne_nil _ (List.append_ne_nil_of_left_ne_nil hwhole.1 _)
  · simp only [List.forall_mem_append]
    exact ⟨hsign, fun c hc => isBare_of_isAsciiDigit (hwhole.2 c hc), hfraction, hexponent⟩

theorem IsWord.isBare {cs : List Char} (h : IsWord cs) :
    cs ≠ [] ∧ ∀ c ∈ cs, isBare c = true := by
  rcases h with rfl | rfl | rfl | h
  · exact ⟨by simp, List.all_eq_true.mp rfl⟩
  · exact ⟨by simp, List.all_eq_true.mp rfl⟩
  · exact ⟨by simp, List.all_eq_true.mp rfl⟩
  · exact h.isBare

/-- A word is one token, that of its value. -/
theorem ofBare?_eq (cs : List Char) :
    (ofBare? cs).map (fun t => [t]) = (scalar? cs).map tokens := by
  unfold scalar? ofBare?
  split_ifs with hnull htrue hfalse
  · rfl
  · rfl
  · rfl
  · cases Number.read? cs with
    | none => rfl
    | some n => rfl

/-! ## Strings -/

theorem isText_of_plain {cs : List Char}
    (h : ∀ c ∈ cs, c ≠ '"' ∧ c ≠ '\\' ∧ ¬ c.toNat < 0x20) : IsText cs := by
  induction cs with
  | nil => exact .nil
  | cons c cs ih =>
    obtain ⟨⟨hquote, hbackslash, hcontrol⟩, hcs⟩ := List.forall_mem_cons.mp h
    exact .plain hquote hbackslash hcontrol (ih hcs)

theorem exists_codeUnit? {a b c d : Char}
    (h : ∀ digit ∈ [a, b, c, d], (hexValue? digit).isSome = true) :
    ∃ u, codeUnit? a b c d = some u := by
  simp only [List.forall_mem_cons, Option.isSome_iff_exists] at h
  obtain ⟨⟨w, hw⟩, ⟨x, hx⟩, ⟨y, hy⟩, ⟨z, hz⟩, -⟩ := h
  exact ⟨((w * 16 + x) * 16 + y) * 16 + z, by simp only [codeUnit?, hw, hx, hy, hz]⟩

theorem readText_escape {e : Char} (he : e ∈ ['"', '\\', '/', 'b', 'f', 'n', 'r', 't'])
    (done : List Char) :
    ∃ c, ∀ rest, readText done ('\\' :: e :: rest) = readText (c :: done) rest := by
  simp only [List.mem_cons, List.not_mem_nil, or_false] at he
  rcases he with rfl | rfl | rfl | rfl | rfl | rfl | rfl | rfl <;> exact ⟨_, fun _ => rfl⟩

section Unit

variable {a b c d : Char} {u : Nat} (hu : codeUnit? a b c d = some u)

include hu

theorem readText_unit (hhigh : isHighSurrogate u = false) (hlow : isLowSurrogate u = false)
    (done rest : List Char) :
    readText done ('\\' :: 'u' :: a :: b :: c :: d :: rest)
      = readText (Char.ofNat u :: done) rest := by
  rw [readText]
  simp [hu, hhigh, hlow]

theorem readText_lowSurrogate (hhigh : isHighSurrogate u = false) (hlow : isLowSurrogate u = true)
    (done rest : List Char) :
    readText done ('\\' :: 'u' :: a :: b :: c :: d :: rest) = none := by
  rw [readText]
  simp [hu, hhigh, hlow]

theorem readText_highSurrogate (hhigh : isHighSurrogate u = true) {a' b' c' d' : Char} {l : Nat}
    (hl : codeUnit? a' b' c' d' = some l) (done rest : List Char) :
    readText done ('\\' :: 'u' :: a :: b :: c :: d :: '\\' :: 'u' :: a' :: b' :: c' :: d' :: rest)
      = if isLowSurrogate l then readText (pairedChar u l :: done) rest else none := by
  rw [readText]
  simp [hu, hhigh, hl]

/-- What follows is no code unit. -/
theorem readText_highSurrogate_alone (hhigh : isHighSurrogate u = true) {cs : List Char}
    (halone : ∀ tail, (cs ++ '"' :: tail).take 2 ≠ ['\\', 'u']) (done rest : List Char) :
    readText done ('\\' :: 'u' :: a :: b :: c :: d :: (cs ++ '"' :: rest)) = none := by
  rw [readText]
  simp only [hu, hhigh, if_true]
  split
  next heq =>
    refine absurd ?_ (halone rest)
    rw [heq]
    rfl
  next => rfl

end Unit

/-- A string is read up to its closing quote, whatever follows that. -/
theorem readText_of_isText {cs : List Char} (h : IsText cs) (done rest : List Char) :
    readText done (cs ++ '"' :: rest) = (readText done (cs ++ ['"'])).map fun r => (r.1, rest) := by
  match h with
  | .nil => rfl
  | .plain hquote hbackslash hcontrol h =>
    simp only [List.cons_append, readText_cons hquote hbackslash hcontrol]
    exact readText_of_isText h _ rest
  | .escape he h =>
    obtain ⟨c, hc⟩ := readText_escape he done
    simp only [List.cons_append, hc]
    exact readText_of_isText h _ rest
  | .unit hhex h =>
    obtain ⟨u, hu⟩ := exists_codeUnit? hhex
    simp only [List.cons_append]
    cases hhigh : isHighSurrogate u with
    | false =>
      cases hlow : isLowSurrogate u with
      | false =>
        simp only [readText_unit hu hhigh hlow]
        exact readText_of_isText h _ rest
      | true =>
        simp only [readText_lowSurrogate hu hhigh hlow]
        rfl
    | true =>
      -- The reader looks ahead for the second half of the pair.
      match h with
      | .unit hhex' h =>
        obtain ⟨l, hl⟩ := exists_codeUnit? hhex'
        simp only [List.cons_append, readText_highSurrogate hu hhigh hl]
        split
        · exact readText_of_isText h _ rest
        · rfl
      | .nil =>
        have halone (tail : List Char) : ([] ++ '"' :: tail).take 2 ≠ ['\\', 'u'] := by simp
        simp only [readText_highSurrogate_alone hu hhigh halone]
        rfl
      | @IsText.plain c cs _ hbackslash _ _ =>
        have halone (tail : List Char) : (c :: cs ++ '"' :: tail).take 2 ≠ ['\\', 'u'] := by
          simp [hbackslash]
        simp only [readText_highSurrogate_alone hu hhigh halone]
        rfl
      | @IsText.escape e cs he _ =>
        have halone (tail : List Char) : ('\\' :: e :: cs ++ '"' :: tail).take 2 ≠ ['\\', 'u'] := by
          rintro heq
          obtain rfl : e = 'u' := by simpa using heq
          exact absurd he (by decide)
        simp only [readText_highSurrogate_alone hu hhigh halone]
        rfl

theorem readText_quoted {cs : List Char} (h : IsText cs) (rest : List Char) :
    readText [] (cs ++ '"' :: rest) = (decode? cs).map (·, rest) := by
  rw [readText_of_isText h, decode?, Option.map_map]
  rfl

/-! ## Reading a text of the grammar -/

/-- The tokens of the elements, with commas between. -/
def tokensOfElements : List Json → List Token
  | [] => []
  | e :: es => e.tokens ++ tokensOfRest es

/-- The tokens of the members, with commas between. -/
def tokensOfAllMembers : List Json.Member → List Token
  | [] => []
  | m :: ms => tokensOfMember m ++ tokensOfMembers ms

theorem tokens_array (es : List Json) :
    (Json.array es).tokens = .arrayOpen :: (tokensOfElements es ++ [.arrayClose]) := by
  cases es with
  | nil => rfl
  | cons e es => rw [tokens, tokensOfElements, List.append_assoc]

theorem tokens_object (ms : List Json.Member) :
    (Json.object ms).tokens = .objectOpen :: (tokensOfAllMembers ms ++ [.objectClose]) := by
  cases ms with
  | nil => rfl
  | cons m ms => rw [tokens, tokensOfAllMembers, List.append_assoc]

theorem lexesAs_blank {cs : List Char} (h : ∀ c ∈ cs, isSpace c = true) : LexesAs cs (some []) := by
  induction cs with
  | nil => exact lexesAs_nil
  | cons c cs ih =>
    obtain ⟨hc, hcs⟩ := List.forall_mem_cons.mp h
    exact (ih hcs).space hc

theorem lexesAs_enclosed {o c : Char} {t t' : Token} {cs : List Char}
    {ts? : Option (List Token)} (ho : ofChar? o = some t) (hc : ofChar? c = some t')
    (hbare : isBare c = false) (h : LexesAs cs ts?) :
    LexesAs (o :: (cs ++ [c])) (ts?.map fun ts => t :: (ts ++ [t'])) := by
  have hclosed := h.append (lexesAs_nil.cons hc) (startsIn_cons (by simp [hbare]))
  have hopened := hclosed.cons ho
  cases ts? <;> exact hopened

theorem lexesAs_after {cs : List Char} {c : Char} {ts? : Option (List Token)}
    (h : LexesAs cs ts?) (hc : isSpace c = true) : LexesAs (cs ++ [c]) ts? := by
  have hbare : isBare c = false := by
    rcases eq_of_isSpace hc with rfl | rfl | rfl | rfl <;> decide
  have hafter := h.append (lexesAs_nil.space hc) (startsIn_cons (by simp [hbare]))
  cases ts? with
  | none => exact hafter
  | some ts =>
    rw [Option.bind_some, Option.map_some, List.append_nil] at hafter
    exact hafter

theorem map_tokensOfElements_singleton (e : Source) :
    (elements? [e]).map tokensOfElements = e.value?.map tokens := by
  simp only [elements?]
  cases e.value? <;> simp [tokensOfElements, tokensOfRest]

theorem map_tokensOfElements_cons (e e' : Source) (es : List Source) :
    (elements? (e :: e' :: es)).map tokensOfElements = (e.value?.map tokens).bind fun ts =>
      (((elements? (e' :: es)).map tokensOfElements).map (.comma :: ·)).map (ts ++ ·) := by
  simp only [elements?]
  cases e.value? <;> cases e'.value? <;> cases elements? es <;> rfl

theorem map_tokensOfAllMembers_singleton (m : Member) :
    (members? [m]).map tokensOfAllMembers = (member? m).map tokensOfMember := by
  simp only [members?]
  cases member? m <;> simp [tokensOfAllMembers, tokensOfMembers]

theorem map_tokensOfAllMembers_cons (m m' : Member) (ms : List Member) :
    (members? (m :: m' :: ms)).map tokensOfAllMembers
      = ((member? m).map tokensOfMember).bind fun ts =>
        (((members? (m' :: ms)).map tokensOfAllMembers).map (.comma :: ·)).map (ts ++ ·) := by
  simp only [members?]
  cases member? m <;> cases member? m' <;> cases members? ms <;> rfl

mutual

/-- A text of the grammar falls apart into the tokens of the value, if there is one. -/
theorem lexesAs_of_writes {s : Source} {cs : List Char} (h : Writes s cs) :
    LexesAs cs (s.value?.map tokens) := by
  match h with
  | .word h =>
    have hword := lexesAs_bare h.isBare.1 h.isBare.2
    rw [ofBare?_eq] at hword
    exact hword
  | .text h =>
    have htext := lexesAs_quoted (readText_quoted h)
    rw [value?, Option.map_map]
    exact htext
  | .array h =>
    have hall := lexesAs_enclosed (o := '[') (c := ']') rfl rfl (by decide)
      (lexesAs_of_writesElements h)
    simpa only [value?, Option.map_map, Function.comp_def, tokens_array] using hall
  | .object h =>
    have hall := lexesAs_enclosed (o := '\x7b') (c := '\x7d') rfl rfl (by decide)
      (lexesAs_of_writesMembers h)
    simpa only [value?, Option.map_map, Function.comp_def, tokens_object] using hall
  | .before hc h => exact (lexesAs_of_writes h).space hc
  | .after hc h => exact lexesAs_after (lexesAs_of_writes h) hc

theorem lexesAs_of_writesElements {es : List Source} {cs : List Char} (h : WritesElements es cs) :
    LexesAs cs ((elements? es).map tokensOfElements) := by
  match h with
  | .nil hblank => exact lexesAs_blank hblank
  | .single h =>
    rw [map_tokensOfElements_singleton]
    exact lexesAs_of_writes h
  | .cons h hrest =>
    have hbehind := (lexesAs_of_writesElements hrest).cons (c := ',') rfl
    rw [map_tokensOfElements_cons]
    exact (lexesAs_of_writes h).append hbehind (startsIn_cons (by decide))

theorem lexesAs_of_writesMembers {ms : List Member} {cs : List Char} (h : WritesMembers ms cs) :
    LexesAs cs ((members? ms).map tokensOfAllMembers) := by
  match h with
  | .nil hblank => exact lexesAs_blank hblank
  | .single h =>
    rw [map_tokensOfAllMembers_singleton]
    exact lexesAs_of_writesMember h
  | .cons h hrest =>
    have hbehind := (lexesAs_of_writesMembers hrest).cons (c := ',') rfl
    rw [map_tokensOfAllMembers_cons]
    exact (lexesAs_of_writesMember h).append hbehind (startsIn_cons (by decide))

theorem lexesAs_of_writesMember {m : Member} {cs : List Char} (h : WritesMember m cs) :
    LexesAs cs ((member? m).map tokensOfMember) := by
  match h with
  | @WritesMember.mk name value _ _ hname hvalue =>
    have hbehind := (lexesAs_of_writes hvalue).cons (c := ':') rfl
    have hall := (lexesAs_of_writes hname).append hbehind (startsIn_cons (by decide))
    simp only [member?]
    rw [value?] at hall
    cases hn : decode? name <;> cases hv : value.value? <;> rw [hn, hv] at hall <;> exact hall

end

/-! ## Documents -/

/-- What a reader makes of the source: its value, if there is one and it is not nested too deep. -/
def read? (s : Source) : Option Json :=
  s.value?.bind fun v => if v.depth ≤ depthLimit then some v.ordered else none

/-- A text of the grammar is read as its source is. -/
theorem parse?_of_writes {s : Source} {document : String} (h : Writes s document.toList) :
    parse? document = s.read? := by
  have hread : readAll document.toList = s.value?.map tokens := by
    have hlexes := lexesAs_of_writes h [] (fun c hc => nomatch hc)
    rw [List.append_nil, readAll] at hlexes
    rw [hlexes]
    cases s.value? <;> simp
  rw [parse?, hread, read?]
  cases s.value? with
  | none => rfl
  | some v => exact ofTokens?_tokens v

end Source

end SearchFilter.Json
