import Mathlib.Data.List.Basic
import SearchFilter.Query.Writer

/-!
# What a step of writing adds

A step of writing sees the whole text before it, but a clause only looks at the end of that text,
and only to learn whether its marker needs a space. A text fits a clause if the marker needs none;
behind such a text, tokens are written as they are spelled, whatever else the text holds.
-/

namespace SearchFilter

namespace Writer

/-- Behind `before` the step does what `result` says: it adds the text at the end, or fails with
the error. -/
def Appends (w : Writer Unit) (before : String) : Except QueryError String → Prop
  | .ok s => w.run before = .ok () (before ++ s)
  | .error e => ∃ after, w.run before = .error e after

@[simp] theorem run_append (s before : String) :
    (append s).run before = .ok () (before ++ s) := rfl

theorem appends_append (s before : String) : Appends (append s) before (.ok s) := rfl

/-- What a step adds behind the empty text is its text. -/
theorem text_of_appends {w : Writer Unit} {result : Except QueryError String}
    (h : Appends w "" result) : w.text = result := by
  cases result with
  | ok s =>
    have h : w.run "" = .ok () ("" ++ s) := h
    simp [text, h]
  | error e =>
    obtain ⟨after, h⟩ := h
    simp [text, h]

/-- What a step adds only depends on how it runs. -/
theorem appends_congr {w w' : Writer Unit} {before : String} {result : Except QueryError String}
    (hrun : w.run before = w'.run before) (h : Appends w' before result) :
    Appends w before result := by
  cases result with
  | ok s => exact hrun.trans h
  | error e =>
    obtain ⟨after, h⟩ := h
    exact ⟨after, hrun.trans h⟩

/-- A step that goes on like another one behind some more text adds this text first. -/
theorem appends_of_run_eq {w w' : Writer Unit} {before s : String}
    {result : Except QueryError String} (hrun : w.run before = w'.run (before ++ s))
    (h : Appends w' (before ++ s) result) : Appends w before (result.map (s ++ ·)) := by
  cases result with
  | ok s' =>
    have h : w'.run (before ++ s) = .ok () (before ++ s ++ s') := h
    show w.run before = .ok () (before ++ (s ++ s'))
    rw [hrun, h, String.append_assoc]
  | error e =>
    obtain ⟨after, h⟩ := h
    exact ⟨after, hrun.trans h⟩

/-- Two steps add their texts one after the other. -/
theorem appends_seq {w w' : Writer Unit} {before s : String} {result : Except QueryError String}
    (h : Appends w before (.ok s)) (h' : Appends w' (before ++ s) result) :
    Appends (do w; w') before (result.map (s ++ ·)) := by
  have h : w.run before = .ok () (before ++ s) := h
  have hrun : (do w; w').run before = w'.run (before ++ s) := by rw [EStateM.run_bind, h]
  exact appends_of_run_eq hrun h'

end Writer

namespace Dialect

/-- The marker of a boost as text. -/
def markText (d : Dialect) (b : Boost) : String :=
  (d.marker? b).getD ""

/-- A marker at the end of the text needs no space: nothing was written yet, or the text ends with
an opening delimiter or a blank. -/
def Fits (d : Dialect) (text : String) : Prop :=
  text = "" ∨ d.groupOpen.toList <:+ text.toList ∨ Text.endsBlank text = true

theorem fits_empty (d : Dialect) : d.Fits "" := .inl rfl

theorem fits_append_groupOpen (d : Dialect) (text : String) : d.Fits (text ++ d.groupOpen) :=
  .inr (.inl (by simp))

theorem fits_append_junction (d : Dialect) (text : String) (j : Junction) :
    d.Fits (text ++ (" " ++ d.junctionToken j ++ " ")) := by
  have hend : Text.endsBlank (text ++ (" " ++ d.junctionToken j ++ " ")) = true := by
    rw [← String.append_assoc]
    simp only [Text.endsBlank, String.toList_append, List.getLast?_append]
    rfl
  exact .inr (.inr hend)

/-- Where a text fits, a marker is written as it is. -/
theorem mark?_of_fits {d : Dialect} {text : String} (h : d.Fits text) (b : Boost) :
    d.mark? b (.atEnd d text) text = d.marker? b := by
  have hspace : ¬ (Position.atEnd d text = .afterContent ∧ ¬ Text.endsBlank text) := by
    rintro ⟨hposition, hblank⟩
    rcases h with rfl | hopen | hend
    · simp [Position.atEnd] at hposition
    · simp [Position.atEnd, List.isSuffixOf_iff_suffix.mpr hopen] at hposition
    · exact hblank hend
  simp only [mark?, if_neg hspace, Option.map_id']

theorem run_writeMark {d : Dialect} {text : String} (h : d.Fits text) (b : Boost) :
    (d.writeMark b).run text = .ok (d.marker? b).isSome (text ++ d.markText b) := by
  have hmark := mark?_of_fits h b
  rw [writeMark, EStateM.run_bind]
  simp only [EStateM.run_get, hmark, markText]
  cases d.marker? b with
  | none => simp
  | some m => rfl

theorem appends_writeMark {d : Dialect} {text : String} (h : d.Fits text) (b : Boost) :
    Writer.Appends (do let _ ← d.writeMark b) text (.ok (d.markText b)) := by
  show (do let _ ← d.writeMark b : Writer Unit).run text = _
  rw [EStateM.run_bind, run_writeMark h b]
  rfl

end Dialect

namespace Query.Token

/-- The spelling of a token where no marker needs a space. -/
def spell (d : Dialect) : Token → String
  | .text s => s
  | .groupOpen => d.groupOpen
  | .groupClose => d.groupClose
  | .junction j => " " ++ d.junctionToken j ++ " "
  | .mark b => d.markText b

/-- The spelling of tokens one after the other. -/
def spellAll (d : Dialect) : List Token → String
  | [] => ""
  | t :: ts => t.spell d ++ spellAll d ts

@[simp] theorem spellAll_nil (d : Dialect) : spellAll d [] = "" := rfl

@[simp] theorem spellAll_cons (d : Dialect) (t : Token) (ts : List Token) :
    spellAll d (t :: ts) = t.spell d ++ spellAll d ts := rfl

@[simp] theorem spellAll_append (d : Dialect) (ts us : List Token) :
    spellAll d (ts ++ us) = spellAll d ts ++ spellAll d us := by
  induction ts with
  | nil => simp
  | cons t ts ih => simp [ih, String.append_assoc]

/-- The token is a marker. -/
def isMark : Token → Bool
  | .mark _ => true
  | _ => false

/-- Only the first token may be a marker. -/
def MarkedAtFront (ts : List Token) : Prop :=
  ∀ t ∈ ts.tail, t.isMark = false

/-- A token is written as it is spelled, a marker only behind a text that fits. -/
theorem appends_write {d : Dialect} {text : String} (t : Token)
    (h : t.isMark = true → d.Fits text) : Writer.Appends (t.write d) text (.ok (t.spell d)) := by
  cases t with
  | mark b => exact Dialect.appends_writeMark (h rfl) b
  | _ => exact Writer.appends_append _ _

theorem appends_writeAll_unmarked (d : Dialect) (text : String) (ts : List Token)
    (h : ∀ t ∈ ts, t.isMark = false) :
    Writer.Appends (writeAll d ts) text (.ok (spellAll d ts)) := by
  induction ts generalizing text with
  | nil => simp [writeAll, Writer.Appends]
  | cons t ts ih =>
    have hunmarked : t.isMark = false := h t (by simp)
    have hfirst : Writer.Appends (t.write d) text (.ok (t.spell d)) :=
      appends_write t (by simp [hunmarked])
    have hrest := ih (text ++ t.spell d) fun u hu => h u (by simp [hu])
    exact Writer.appends_seq hfirst hrest

/-- Behind a text that fits, a clause is written as it is spelled. -/
theorem appends_writeAll {d : Dialect} {text : String} {ts : List Token} (h : d.Fits text)
    (hts : MarkedAtFront ts) : Writer.Appends (writeAll d ts) text (.ok (spellAll d ts)) := by
  cases ts with
  | nil => exact appends_writeAll_unmarked d text [] (by simp)
  | cons t ts =>
    have hfirst := appends_write (d := d) t fun _ => h
    have hrest := appends_writeAll_unmarked d (text ++ t.spell d) ts hts
    exact Writer.appends_seq hfirst hrest

end Query.Token

end SearchFilter
