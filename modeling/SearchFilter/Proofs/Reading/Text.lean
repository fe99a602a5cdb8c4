import SearchFilter.Proofs.Reading.Basic
import SearchFilter.Proofs.Text.Quoted

/-!
# The written form of readings

The text of a query in the standard dialect is the written form of its reading, so the reading
keeps everything that is in the text.
-/

namespace SearchFilter.Query

open Text (toList_quote)
open Token (spellAll spellAll_joined)

/-- The junction between two members, with a space on both sides. -/
def separatorChars : Junction → List Char
  | .and => [' ', 'A', 'N', 'D', ' ']
  | .or => [' ', 'O', 'R', ' ']

/-- The written form of a truth value. -/
def truthChars (b : Bool) : List Char :=
  if b then ['t', 'r', 'u', 'e'] else ['f', 'a', 'l', 's', 'e']

/-- The written form of a test, behind its field and the colon. -/
def Test.chars : Test → List Char
  | .equals v => v.text.toList
  | .truth b => truthChars b
  | .contains s => '*' :: (Text.escapeChars s.toList ++ ['*'])
  | .startsWith s => Text.escapeChars s.toList ++ ['*']
  | .anyOf ss =>
    '(' :: ((separatorChars .or).intercalate (ss.map fun s => Text.quoteChars s.toList) ++ [')'])
  | .interval lower upper =>
    lower.lowerText.toList ++ ([' ', 'T', 'O', ' '] ++ upper.upperText.toList)

/-- The written form of a leaf. -/
def Leaf.chars : Leaf → List Char
  | .test field t => field.toList ++ ':' :: t.chars
  | .excluded field s => '-' :: (field.toList ++ ':' :: Text.quoteChars s.toList)
  | .presence present field => (presenceWord present).toList ++ ':' :: Text.quoteChars field.toList

namespace Reading

mutual

/-- The written form of a reading. -/
def chars : Reading → List Char
  | .leaf l => l.chars
  | .traversal field query => field.toList ++ ':' :: '\x7b' :: (query.chars ++ ['\x7d'])
  | .group mark j members =>
    mark.chars
      ++ '(' :: ((separatorChars (j.getD .and)).intercalate (charsOfAll members) ++ [')'])

/-- The written form of each of the readings. -/
def charsOfAll : List Reading → List (List Char)
  | [] => []
  | r :: rs => r.chars :: charsOfAll rs

end

theorem charsOfAll_eq_map (rs : List Reading) : charsOfAll rs = rs.map chars := by
  induction rs with
  | nil => rfl
  | cons r rs ih => rw [charsOfAll, ih, List.map_cons]

end Reading

theorem toList_separator (j : Junction) : (Dialect.separator {} j).toList = separatorChars j := by
  cases j <;> decide

theorem toList_markText (b : Boost) :
    (Dialect.markText {} b).toList = (GroupMark.ofBoost b).chars := by
  cases b <;> decide

/-- Between less than two members there is no separator. -/
theorem intercalate_visibleJunction (j : Junction) (xs : List (List Char)) :
    (separatorChars ((visibleJunction j xs.length).getD .and)).intercalate xs
      = (separatorChars j).intercalate xs := by
  match xs with
  | [] => rfl
  | [x] => rw [List.intercalate_singleton, List.intercalate_singleton]
  | x :: y :: rest =>
    rw [List.length_cons, List.length_cons, visibleJunction_add_two, Option.getD_some]

theorem Test.toList_spellAll (field : String) (t : Test) :
    (spellAll {} (t.tokens field)).toList = field.toList ++ ':' :: t.chars := by
  cases t with
  | anyOf ss =>
    have hseparated := congrArg String.toList (spellAll_joined {} .or
      (ss.map fun s => [Token.text (Text.quote s)]))
    rw [String.toList_intercalate, toList_separator, List.map_map, List.map_map] at hseparated
    simp only [tokens, Token.spellAll_cons, Token.spellAll_append, String.toList_append, hseparated]
    simp [chars, Function.comp_def, Token.spell, toList_quote]
  | truth b => cases b <;> simp [tokens, Token.spell, chars, truthChars]
  | _ => simp [tokens, Token.spell, chars, Text.escapeTerm]

theorem Leaf.toList_spellAll (l : Leaf) : (spellAll {} l.tokens).toList = l.chars := by
  cases l with
  | test field t => exact t.toList_spellAll field
  | excluded field s =>
    simp [tokens, chars, Token.spell, toList_quote, toList_markText, GroupMark.ofBoost,
      GroupMark.chars]
  | presence present field => simp [tokens, chars, Token.spell, toList_quote]

theorem toList_fill_standard (field query : String) :
    (Clause.Traversal.standard.fill field query).toList
      = field.toList ++ ':' :: '\x7b' :: (query.toList ++ ['\x7d']) := by
  have hbefore : Clause.splitOn Clause.fieldSlot Clause.Traversal.standard.before
      = [[], [':', '\x7b']] := by decide
  have hafter : Clause.splitOn Clause.fieldSlot Clause.Traversal.standard.after
      = [['\x7d']] := by decide
  simp [Clause.Traversal.fill, Clause.replace, hbefore, hafter]

namespace Expr

mutual

/-- The text of an expression in the standard dialect is the written form of its reading. -/
theorem toList_spell (e : Expr) : (e.spell {} .standard).toList = e.reading.chars := by
  match e with
  | .leaf l => exact l.toList_spellAll
  | .traversal field query =>
    rw [spell_traversal, toList_fill_standard, toList_spell query]
    rfl
  | .group b j members =>
    have hlength : members.length = (Reading.charsOfAll (readings members)).length := by
      rw [readings_eq_map, Reading.charsOfAll_eq_map, List.length_map, List.length_map]
    rw [spell_group, reading, Reading.chars, hlength, intercalate_visibleJunction,
      ← map_toList_spell members, List.map_map]
    simp only [String.toList_append, toList_markText, String.toList_intercalate, toList_separator,
      List.append_assoc, List.map_map]
    rfl

theorem map_toList_spell (es : List Expr) :
    (es.map (spell {} .standard)).map String.toList = Reading.charsOfAll (readings es) := by
  match es with
  | [] => rfl
  | e :: es =>
    rw [readings, Reading.charsOfAll, ← toList_spell e, ← map_toList_spell es]
    rfl

end

end Expr

end SearchFilter.Query
