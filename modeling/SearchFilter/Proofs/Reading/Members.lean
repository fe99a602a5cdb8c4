import SearchFilter.Proofs.Reading.Text
import SearchFilter.Proofs.Reading.Word

/-!
# Reading the members of a group

A group goes on with a junction or ends, so its members are read one after the other as soon as one
member can be read where a junction, a closing parenthesis or a closing brace follows it.
-/

namespace SearchFilter.Query

open Text (StartsIn startsIn_cons)

variable {α : Type}

/-- A clause ends in front of this character. -/
def isEnd (c : Char) : Bool :=
  c == ' ' || c == ')' || c == '\x7d'

/-- What holds of the three characters in front of which a clause may end holds where it ends. -/
theorem startsIn_of_isEnd {p : Char → Bool} {rest : List Char} (hrest : StartsIn isEnd rest)
    (hspace : p ' ' = true) (hparenthesis : p ')' = true) (hbrace : p '\x7d' = true) :
    StartsIn p rest := by
  refine hrest.mono fun c hc => ?_
  simp only [isEnd, Bool.or_eq_true, beq_iff_eq] at hc
  rcases hc with (rfl | rfl) | rfl
  · exact hspace
  · exact hparenthesis
  · exact hbrace

/-- Reads the members up to the closing parenthesis, each behind the junction. The number bounds
how many of them there are. -/
def readMore (item : List Char → Option (α × List Char)) (j : Junction) :
    Nat → List Char → Option (List α × List Char)
  | 0, _ => none
  | _ + 1, ')' :: rest => some ([], rest)
  | bound + 1, cs => do
    let rest ← (separatorChars j).isPrefixOf? cs
    let (x, rest) ← item rest
    let (xs, rest) ← readMore item j bound rest
    return (x :: xs, rest)

/-- The junction that a text starts with. -/
def junctionAt? (cs : List Char) : Option Junction :=
  Junction.all.find? fun j => (separatorChars j).isPrefixOf cs

/-- Reads the members of a group and its closing parenthesis; the junction is the one behind the
first member. -/
def readMembers (item : List Char → Option (α × List Char)) :
    List Char → Option ((Option Junction × List α) × List Char)
  | ')' :: rest => some ((none, []), rest)
  | cs => do
    let (x, rest) ← item cs
    let (xs, rest') ← readMore item ((junctionAt? rest).getD .and) rest.length rest
    return ((junctionAt? rest, x :: xs), rest')

/-- The item reads every one of the members where a clause may end. -/
def ReadsAll (item : List Char → Option (α × List Char)) (chars : α → List Char)
    (xs : List α) : Prop :=
  ∀ x ∈ xs, ∀ rest, StartsIn isEnd rest → item (chars x ++ rest) = some (x, rest)

/-- The members behind the first one, each behind the junction. -/
def moreChars (chars : α → List Char) (j : Junction) (xs : List α) : List Char :=
  xs.flatMap fun x => separatorChars j ++ chars x

theorem intercalate_map_cons (chars : α → List Char) (j : Junction) (x : α) (xs : List α) :
    (separatorChars j).intercalate ((x :: xs).map chars) = chars x ++ moreChars chars j xs := by
  induction xs generalizing x with
  | nil => simp [moreChars]
  | cons y ys ih =>
    rw [List.map_cons, List.map_cons, List.intercalate_cons_cons, ← List.map_cons, ih, moreChars,
      moreChars, List.flatMap_cons, List.append_assoc, List.append_assoc]

theorem moreChars_cons_append (chars : α → List Char) (j : Junction) (x : α) (xs : List α)
    (rest : List Char) : moreChars chars j (x :: xs) ++ rest
      = separatorChars j ++ (chars x ++ (moreChars chars j xs ++ rest)) := by
  rw [moreChars, List.flatMap_cons, List.append_assoc, List.append_assoc, ← moreChars]

/-- Behind a member comes a junction or the closing parenthesis. -/
theorem startsIn_moreChars (chars : α → List Char) (j : Junction) (xs : List α)
    (rest : List Char) : StartsIn isEnd (moreChars chars j xs ++ ')' :: rest) := by
  cases xs with
  | nil => exact startsIn_cons (by decide)
  | cons x xs =>
    cases j with
    | and => exact startsIn_cons (by decide)
    | or => exact startsIn_cons (by decide)

theorem length_le_moreChars (chars : α → List Char) (j : Junction) (xs : List α) :
    xs.length ≤ (moreChars chars j xs).length := by
  induction xs with
  | nil => exact Nat.le_refl 0
  | cons x xs ih =>
    have hseparator : 1 ≤ (separatorChars j).length := by cases j <;> decide
    rw [moreChars, List.flatMap_cons, List.length_append, List.length_append, ← moreChars]
    rw [List.length_cons]
    omega

/-- A junction is not taken for the end of the group. -/
theorem readMore_separatorChars (item : List Char → Option (α × List Char)) (j : Junction)
    (bound : Nat) (cs : List Char) :
    readMore item j (bound + 1) (separatorChars j ++ cs) = (do
      let (x, rest) ← item cs
      let (xs, rest) ← readMore item j bound rest
      return (x :: xs, rest)) := by
  cases j <;> rfl

theorem readMore_moreChars {item : List Char → Option (α × List Char)} {chars : α → List Char}
    (j : Junction) {xs : List α} (h : ReadsAll item chars xs) {bound : Nat}
    (hbound : xs.length < bound) (rest : List Char) :
    readMore item j bound (moreChars chars j xs ++ ')' :: rest) = some (xs, rest) := by
  induction xs generalizing bound with
  | nil =>
    obtain ⟨bound, rfl⟩ := Nat.exists_eq_succ_of_ne_zero (Nat.ne_of_gt hbound)
    rfl
  | cons x xs ih =>
    obtain ⟨bound, rfl⟩ := Nat.exists_eq_succ_of_ne_zero (Nat.ne_of_gt (Nat.zero_lt_of_lt hbound))
    have hfirst := h x (by simp) _ (startsIn_moreChars chars j xs rest)
    have hmore := ih (fun y hy => h y (by simp [hy])) (Nat.lt_of_succ_lt_succ hbound)
    rw [moreChars_cons_append, readMore_separatorChars, hfirst]
    simp only [Option.bind_eq_bind, Option.bind_some, hmore]
    rfl

/-- The text behind the first member shows the junction exactly if there is another member. -/
theorem junctionAt?_moreChars (chars : α → List Char) (j : Junction) (xs : List α)
    (rest : List Char) : junctionAt? (moreChars chars j xs ++ ')' :: rest)
      = visibleJunction j (xs.length + 1) := by
  cases xs with
  | nil => rfl
  | cons x xs =>
    rw [moreChars_cons_append, List.length_cons, visibleJunction_add_two]
    cases j <;> rfl

/-- The members behind the first one are read with the junction that shows: with one member no
junction shows, and any junction reads the empty rest. -/
theorem readMore_visibleJunction {item : List Char → Option (α × List Char)}
    {chars : α → List Char} (j : Junction) {xs : List α} (h : ReadsAll item chars xs)
    (rest : List Char) :
    readMore item ((visibleJunction j (xs.length + 1)).getD .and)
        (moreChars chars j xs ++ ')' :: rest).length (moreChars chars j xs ++ ')' :: rest)
      = some (xs, rest) := by
  have hbound : xs.length < (moreChars chars j xs ++ ')' :: rest).length := by
    have hlength := length_le_moreChars chars j xs
    rw [List.length_append, List.length_cons]
    omega
  cases xs with
  | nil => exact readMore_moreChars .and h hbound rest
  | cons y ys =>
    rw [List.length_cons, visibleJunction_add_two, Option.getD_some]
    exact readMore_moreChars j h hbound rest

/-- The members of a group are read off its text, and the junction if there are two of them. -/
theorem readMembers_intercalate {item : List Char → Option (α × List Char)}
    {chars : α → List Char} (j : Junction) {xs : List α} (h : ReadsAll item chars xs)
    (hclose : ∀ rest, item (')' :: rest) = none) (rest : List Char) :
    readMembers item ((separatorChars j).intercalate (xs.map chars) ++ ')' :: rest)
      = some ((visibleJunction j xs.length, xs), rest) := by
  cases xs with
  | nil => rfl
  | cons x xs =>
    have hfirst := h x (by simp) _ (startsIn_moreChars chars j xs rest)
    have hothers : ReadsAll item chars xs := fun y hy => h y (by simp [hy])
    have hmore := readMore_visibleJunction j hothers rest
    rw [intercalate_map_cons, List.append_assoc]
    unfold readMembers
    split
    next heq =>
      rw [heq, hclose] at hfirst
      cases hfirst
    · rw [hfirst]
      simp only [Option.bind_eq_bind, Option.bind_some, junctionAt?_moreChars, hmore]
      rfl

end SearchFilter.Query
