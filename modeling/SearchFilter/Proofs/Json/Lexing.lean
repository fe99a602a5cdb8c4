import SearchFilter.Proofs.Json.Strings
import SearchFilter.Proofs.Text.Character

/-!
# How texts fall apart into tokens

A text that is put together from parts falls apart into the tokens of the parts. Only a number or a
name such as `true` could run on into what follows it, so what follows must not start like one. The
compact form of a value without numbers falls apart into the tokens of the value.
-/

namespace SearchFilter.Json

open Text (StartsIn startsIn_cons takeWhile_append dropWhile_append)
open Token (readAll readText isBare isSpace ofChar? ofBare?)

/-- There is no number in the value. -/
inductive NumberFree : Json → Prop
  | null : NumberFree .null
  | bool (b : Bool) : NumberFree (.bool b)
  | string (s : String) : NumberFree (.string s)
  | array {es : List Json} (helements : ∀ e ∈ es, NumberFree e) : NumberFree (.array es)
  | object {ms : List Member} (hmembers : ∀ m ∈ ms, NumberFree m.value) : NumberFree (.object ms)

mutual

/-- The tokens of a value. -/
def tokens : Json → List Token
  | .array [] => [.arrayOpen, .arrayClose]
  | .array (e :: es) => .arrayOpen :: (e.tokens ++ (tokensOfRest es ++ [.arrayClose]))
  | .object [] => [.objectOpen, .objectClose]
  | .object (m :: ms) =>
    .objectOpen :: (tokensOfMember m ++ (tokensOfMembers ms ++ [.objectClose]))
  | .string s => [.text s]
  | v => [.scalar v]

/-- The tokens of the elements after the first, each behind a comma. -/
def tokensOfRest : List Json → List Token
  | [] => []
  | e :: es => .comma :: (e.tokens ++ tokensOfRest es)

/-- The tokens of a member. -/
def tokensOfMember : Member → List Token
  | ⟨name, value⟩ => .text name :: .colon :: value.tokens

/-- The tokens of the members after the first, each behind a comma. -/
def tokensOfMembers : List Member → List Token
  | [] => []
  | m :: ms => .comma :: (tokensOfMember m ++ tokensOfMembers ms)

end

/-! ## Texts that fall apart into tokens -/

/-- What the text falls apart into, if what follows it does not start like a name: into tokens, or
into nothing where the reader gets stuck in the text. -/
def LexesAs (cs : List Char) (ts? : Option (List Token)) : Prop :=
  ∀ rest, StartsIn (fun c => !isBare c) rest →
    readAll (cs ++ rest) = ts?.bind fun ts => (readAll rest).map (ts ++ ·)

theorem lexesAs_nil : LexesAs [] (some []) := by
  intro rest _
  simp

theorem LexesAs.append {cs cs' : List Char} {ts? ts?' : Option (List Token)} (h : LexesAs cs ts?)
    (h' : LexesAs cs' ts?') (hstart : StartsIn (fun c => !isBare c) cs') :
    LexesAs (cs ++ cs') (ts?.bind fun ts => ts?'.map (ts ++ ·)) := by
  intro rest hrest
  have hfollow : StartsIn (fun c => !isBare c) (cs' ++ rest) := by
    cases cs' with
    | nil => exact hrest
    | cons c cs' => exact startsIn_cons (hstart c rfl)
  rw [List.append_assoc, h _ hfollow, h' rest hrest]
  cases ts? with
  | none => rfl
  | some ts =>
    cases ts?' with
    | none => rfl
    | some ts' => simp only [Option.bind_some, Option.map_some, Option.map_map, Function.comp_def,
        List.append_assoc]

theorem eq_of_isSpace {c : Char} (h : isSpace c = true) :
    c = ' ' ∨ c = '\t' ∨ c = '\n' ∨ c = '\r' := by
  simp only [isSpace, Bool.or_eq_true, beq_iff_eq] at h
  rcases h with ((h | h) | h) | h <;> simp [h]

/-- Blanks are passed over. -/
theorem LexesAs.space {c : Char} {cs : List Char} {ts? : Option (List Token)}
    (hc : isSpace c = true) (h : LexesAs cs ts?) : LexesAs (c :: cs) ts? := by
  intro rest hrest
  rw [List.cons_append, readAll, if_pos hc, h rest hrest]

/-- A character that is a token needs nothing behind it. -/
theorem LexesAs.cons {c : Char} {t : Token} {cs : List Char} {ts? : Option (List Token)}
    (hc : ofChar? c = some t) (h : LexesAs cs ts?) : LexesAs (c :: cs) (ts?.map (t :: ·)) := by
  intro rest hrest
  have hspace : ¬ isSpace c = true := by
    intro hspace
    rcases eq_of_isSpace hspace with rfl | rfl | rfl | rfl <;> cases hc
  have hquote : ¬ c = '"' := by
    rintro rfl
    cases hc
  rw [List.cons_append, readAll, if_neg hspace, if_neg hquote, hc]
  simp only [h rest hrest]
  cases ts? with
  | none => rfl
  | some ts => simp only [Option.bind_some, Option.map_some, Option.map_map]; rfl

/-- A string ends at its closing quote. -/
theorem lexesAs_quoted {cs : List Char} {s? : Option String}
    (h : ∀ rest, readText [] (cs ++ '"' :: rest) = s?.map (·, rest)) :
    LexesAs ('"' :: (cs ++ ['"'])) (s?.map fun s => [.text s]) := by
  intro rest _
  have htext := h rest
  rw [List.cons_append, List.append_assoc, List.singleton_append, readAll]
  split
  next hspace => exact absurd hspace (by decide)
  · rw [if_pos rfl]
    split
    next s after heq =>
      rw [htext] at heq
      obtain ⟨s', rfl, heq⟩ := Option.map_eq_some_iff.mp heq
      cases heq
      rfl
    next heq =>
      rw [htext, Option.map_eq_none_iff] at heq
      rw [heq]
      rfl

/-- A name or a number ends where its characters do. -/
theorem lexesAs_bare {cs : List Char} (hne : cs ≠ []) (hbare : ∀ c ∈ cs, isBare c = true) :
    LexesAs cs ((ofBare? cs).map fun t => [t]) := by
  intro rest hrest
  obtain ⟨c, cs, rfl⟩ := List.exists_cons_of_ne_nil hne
  obtain ⟨hc, hcs⟩ := List.forall_mem_cons.mp hbare
  have hspace : ¬ isSpace c = true := by
    intro hspace
    rcases eq_of_isSpace hspace with rfl | rfl | rfl | rfl <;> exact absurd hc (by decide)
  have hquote : ¬ c = '"' := by
    rintro rfl
    exact absurd hc (by decide)
  have hchar : ofChar? c = none := by
    unfold ofChar?
    split
    all_goals first | rfl | exact absurd hc (by decide)
  rw [List.cons_append, readAll, if_neg hspace, if_neg hquote, hchar]
  simp only [hc, if_true, takeWhile_append hcs hrest, dropWhile_append hcs hrest]
  cases ofBare? (c :: cs) with
  | none => rfl
  | some t => rfl

/-- The text falls apart into the tokens, if what follows it does not start like a name. -/
def Lexes (cs : List Char) (ts : List Token) : Prop :=
  ∀ rest, StartsIn (fun c => !isBare c) rest → readAll (cs ++ rest) = (readAll rest).map (ts ++ ·)

theorem lexes_iff_lexesAs {cs : List Char} {ts : List Token} :
    Lexes cs ts ↔ LexesAs cs (some ts) :=
  Iff.rfl

theorem lexes_nil : Lexes [] [] :=
  lexesAs_nil

theorem Lexes.append {cs cs' : List Char} {ts ts' : List Token} (h : Lexes cs ts)
    (h' : Lexes cs' ts') (hstart : StartsIn (fun c => !isBare c) cs') :
    Lexes (cs ++ cs') (ts ++ ts') :=
  LexesAs.append (lexes_iff_lexesAs.mp h) (lexes_iff_lexesAs.mp h') hstart

theorem Lexes.cons {c : Char} {t : Token} {cs : List Char} {ts : List Token}
    (hc : ofChar? c = some t) (h : Lexes cs ts) : Lexes (c :: cs) (t :: ts) :=
  LexesAs.cons hc (lexes_iff_lexesAs.mp h)

/-! ## The compact form -/

theorem lexes_renderString (s : String) : Lexes (renderString s).toList [.text s] := by
  have htext (rest : List Char) : readText [] (s.toList.flatMap escapeChar ++ '"' :: rest)
      = (some s).map (·, rest) := readText_renderString s rest
  rw [toList_renderString]
  exact lexesAs_quoted htext

theorem lexes_bare {c : Char} {cs : List Char} {t : Token} (hword : ofBare? (c :: cs) = some t)
    (hbare : (c :: cs).all isBare = true) : Lexes (c :: cs) [t] := by
  have hlexes := lexesAs_bare (List.cons_ne_nil c cs) (List.all_eq_true.mp hbare)
  rw [hword] at hlexes
  exact hlexes

/-- What follows an element starts with a comma or a bracket. -/
theorem startsIn_renderRest (es : List Json) (rest : List Char) :
    StartsIn (fun c => !isBare c) ((renderRest es).toList ++ ']' :: rest) := by
  cases es with
  | nil => exact startsIn_cons (by decide)
  | cons e es =>
    rw [renderRest, String.toList_append, String.toList_append]
    exact startsIn_cons (by decide)

theorem startsIn_renderMembers (ms : List Member) (rest : List Char) :
    StartsIn (fun c => !isBare c) ((renderMembers ms).toList ++ '\x7d' :: rest) := by
  cases ms with
  | nil => exact startsIn_cons (by decide)
  | cons m ms =>
    rw [renderMembers, String.toList_append, String.toList_append]
    exact startsIn_cons (by decide)

/-- The elements after the first, and the end of the array, fall apart into their tokens if each
element does. -/
theorem lexes_renderRest {es : List Json} (h : ∀ e ∈ es, Lexes (render e).toList e.tokens) :
    Lexes ((renderRest es).toList ++ [']']) (tokensOfRest es ++ [.arrayClose]) := by
  induction es with
  | nil => exact lexes_nil.cons rfl
  | cons e es ih =>
    have hfirst := h e (by simp)
    have hrest := ih fun e' he' => h e' (by simp [he'])
    have hall := (hfirst.append hrest (startsIn_renderRest es [])).cons (c := ',') rfl
    simpa [renderRest, tokensOfRest] using hall

theorem lexes_renderMember {m : Member} (h : Lexes (render m.value).toList m.value.tokens) :
    Lexes (renderMember m).toList (tokensOfMember m) := by
  obtain ⟨name, value⟩ := m
  have hall := (lexes_renderString name).append (h.cons (c := ':') rfl) (startsIn_cons (by decide))
  simpa [renderMember, tokensOfMember] using hall

theorem lexes_renderMembers {ms : List Member}
    (h : ∀ m ∈ ms, Lexes (render m.value).toList m.value.tokens) :
    Lexes ((renderMembers ms).toList ++ ['\x7d']) (tokensOfMembers ms ++ [.objectClose]) := by
  induction ms with
  | nil => exact lexes_nil.cons rfl
  | cons m ms ih =>
    have hfirst := lexes_renderMember (h m (by simp))
    have hrest := ih fun m' hm' => h m' (by simp [hm'])
    have hall := (hfirst.append hrest (startsIn_renderMembers ms [])).cons (c := ',') rfl
    simpa [renderMembers, tokensOfMembers] using hall

/-- The compact form of a value falls apart into the tokens of the value. -/
theorem lexes_render {v : Json} (h : v.NumberFree) : Lexes (render v).toList v.tokens := by
  induction h with
  | null => exact lexes_bare rfl (by decide)
  | bool b => cases b <;> exact lexes_bare rfl (by decide)
  | string s => exact lexes_renderString s
  | @array es _ ih =>
    cases es with
    | nil => exact (lexes_nil.cons rfl).cons rfl
    | cons e es =>
      have hfirst := ih e (by simp)
      have hothers : ∀ e' ∈ es, Lexes (render e').toList e'.tokens := fun e' he' =>
        ih e' (by simp [he'])
      have hrest := lexes_renderRest hothers
      have hall := (hfirst.append hrest (startsIn_renderRest es [])).cons (c := '[') rfl
      simpa [render, tokens] using hall
  | @object ms _ ih =>
    cases ms with
    | nil => exact (lexes_nil.cons rfl).cons rfl
    | cons m ms =>
      have hfirst := lexes_renderMember (ih m (by simp))
      have hothers : ∀ m' ∈ ms, Lexes (render m'.value).toList m'.value.tokens := fun m' hm' =>
        ih m' (by simp [hm'])
      have hrest := lexes_renderMembers hothers
      have hall := (hfirst.append hrest (startsIn_renderMembers ms [])).cons (c := '\x7b') rfl
      simpa [render, tokens] using hall

/-- A document without numbers is read as the tokens of its value. -/
theorem readAll_render {v : Json} (h : v.NumberFree) :
    readAll (render v).toList = some v.tokens := by
  have hread := lexes_render h [] (fun c hc => nomatch hc)
  rw [List.append_nil, readAll] at hread
  rw [hread]
  simp

end SearchFilter.Json
