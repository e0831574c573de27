import Logicless.Name
import Logicless.Proofs.Expr.Grammar
import Mathlib.Data.List.TakeWhile

/-!
# Blank characters around the content of tags

The content of a tag is read without the blank characters around it. Names are trimmed before they are
read. Expressions are not: the reader passes over the blank characters in front, and those behind the text
it meets in whatever state the text has left it. There it refuses a blank character exactly if it would have
refused the end of the text, and for the same reason. So blank characters around a text change neither the
expression that is read nor the error that is reported.

## Shape of the proof

* `Text.SameInside` is the relation between texts that differ in the blank characters around them. By
  `sameInside_iff` these are the texts of which trimming leaves the same.
* `Reader.verdict` is what the reader says of a text, without the characters that it has left.
  `verdict_start` and `verdict_append_blanks` are about blank characters in front and behind.
* `parse_eq_of_sameInside` and `parseName_eq_of_sameInside` join the two.
-/

namespace Logicless

namespace Text

/-- The text is `inside`, with blank characters around it or not. -/
def Surrounds (inside : List Char) (text : String) : Prop :=
  ∃ front back : Expr.Blanks, text.toList = front.chars ++ inside ++ back.chars

/-- Two texts that are the same up to the blank characters around them. -/
def SameInside (text text' : String) : Prop :=
  ∃ inside, Surrounds inside text ∧ Surrounds inside text'

theorem trimStart_append_blanks {cs : List Char} (front : Expr.Blanks) :
    trimStart (front.chars ++ cs) = trimStart cs :=
  List.dropWhile_append_of_pos front.blank

theorem trimEnd_append_blanks {cs : List Char} (back : Expr.Blanks) :
    trimEnd (cs ++ back.chars) = trimEnd cs := by
  have hblank : ∀ c ∈ back.chars.reverse, isBlank c = true :=
    fun c hc => back.blank c (List.mem_reverse.mp hc)
  rw [trimEnd, List.reverse_append, List.dropWhile_append_of_pos hblank, trimEnd]

theorem trim_append_blanks {cs : List Char} (back : Expr.Blanks) :
    trim (cs ++ back.chars) = trim cs := by
  have hback : trimStart back.chars = [] := List.dropWhile_eq_nil_iff.mpr back.blank
  rw [trim, trim, trimStart, List.dropWhile_append, ← trimStart, ← trimStart]
  by_cases hstart : trimStart cs = []
  · simp [hstart, hback]
  · simp [hstart, trimEnd_append_blanks]

theorem Surrounds.trim {inside : List Char} {text : String} (h : Surrounds inside text) :
    trim text.toList = trim inside := by
  obtain ⟨front, back, htext⟩ := h
  rw [htext, trim_append_blanks, Text.trim, trimStart_append_blanks, ← Text.trim]

theorem Surrounds.all_isBlank {inside : List Char} {text : String} (h : Surrounds inside text) :
    text.toList.all isBlank = inside.all isBlank := by
  obtain ⟨front, back, htext⟩ := h
  have hfront : front.chars.all isBlank = true := List.all_eq_true.mpr front.blank
  have hback : back.chars.all isBlank = true := List.all_eq_true.mpr back.blank
  rw [htext, List.all_append, List.all_append, hfront, hback, Bool.true_and, Bool.and_true]

/-- Every text is what is left of it by trimming, with blank characters around it. -/
theorem surrounds_trim (text : String) : Surrounds (Text.trim text.toList) text := by
  let front : Expr.Blanks := ⟨text.toList.takeWhile isBlank, fun _ => List.mem_takeWhile_imp⟩
  let back : Expr.Blanks := ⟨((trimStart text.toList).reverse.takeWhile isBlank).reverse,
    fun _ hc => List.mem_takeWhile_imp (List.mem_reverse.mp hc)⟩
  have hend : Text.trim text.toList ++ back.chars = trimStart text.toList := by
    rw [Text.trim, trimEnd, ← List.reverse_append, List.takeWhile_append_dropWhile, List.reverse_reverse]
  refine ⟨front, back, ?_⟩
  rw [List.append_assoc, hend, trimStart, List.takeWhile_append_dropWhile]

theorem sameInside_iff {text text' : String} :
    SameInside text text' ↔ Text.trim text.toList = Text.trim text'.toList := by
  constructor
  · rintro ⟨inside, h, h'⟩
    rw [h.trim, h'.trim]
  · intro h
    exact ⟨_, surrounds_trim text, h ▸ surrounds_trim text'⟩

end Text

/-- A name is read without the blank characters around it. -/
theorem parseName_eq_of_sameInside {content content' : String} (h : Text.SameInside content content')
    (role : NameRole) : parseName role content' = parseName role content := by
  rw [parseName, parseName, Text.sameInside_iff.mp h]

namespace Expr

namespace Reader

variable {reader reader' : Reader} {functions : List Expr} {cs cs' : List Char}

/-- What the reader says of the rest of a text: the expression, or why it has stopped. -/
def verdict (reader : Reader) (cs : List Char) : Except Refusal Expr :=
  (reader.run cs).mapError Prod.fst

@[simp]
theorem verdict_nil : reader.verdict [] = reader.finish := by
  rw [verdict, run]
  cases reader.finish <;> rfl

@[simp]
theorem verdict_cons (c : Char) :
    reader.verdict (c :: cs) = (reader.step c >>= fun next => next.verdict cs) := by
  rw [verdict, run]
  cases reader.step c <;> rfl

theorem verdict_append (h : reader.readAll cs = .ok reader') :
    reader.verdict (cs ++ cs') = reader'.verdict cs' := by
  induction cs generalizing reader with
  | nil =>
    cases h
    rfl
  | cons c cs ih =>
    rw [List.cons_append, verdict_cons]
    cases hstep : reader.step c with
    | error refusal =>
      simp [readAll, hstep, bind, Except.bind] at h
    | ok next =>
      rw [readAll_cons hstep] at h
      exact ih h

/-- Blank characters where an expression has to start are passed over. -/
theorem verdict_start (blanks : Blanks) :
    verdict ⟨functions, .start⟩ (blanks.chars ++ cs) = verdict ⟨functions, .start⟩ cs :=
  verdict_append (readAll_start blanks)

/-- A blank character is refused exactly where the end of the text is, and else it changes nothing about
the end. -/
theorem step_bind_finish {c : Char} (hc : Text.isBlank c = true) :
    (reader.step c >>= finish) = reader.finish := by
  obtain ⟨functions, place⟩ := reader
  have hidentifier : isIdentifierChar c = false := not_isIdentifierChar_of_isBlank hc
  cases place with
  | start | selecting base => simp [step, hidentifier, hc, finish, Place.expression?, bind, Except.bind]
  | dot | naming word | member base word | closed e | spaced e =>
    cases functions <;>
      simp [step, hidentifier, operator_of_isBlank hc, finish, Place.expression?, bind, Except.bind]

/-- Only blank characters are left. -/
theorem verdict_blanks (hblank : ∀ c ∈ cs, Text.isBlank c = true) :
    reader.verdict cs = reader.finish := by
  induction cs generalizing reader with
  | nil => exact verdict_nil
  | cons c cs ih =>
    have hrest : ∀ next : Reader, next.verdict cs = next.finish :=
      fun next => ih fun d hd => hblank d (List.mem_cons_of_mem _ hd)
    simp only [verdict_cons, hrest]
    exact step_bind_finish (hblank c List.mem_cons_self)

/-- Blank characters behind a text are passed over. -/
theorem verdict_append_blanks (blanks : Blanks) :
    reader.verdict (cs ++ blanks.chars) = reader.verdict cs := by
  induction cs generalizing reader with
  | nil => rw [List.nil_append, verdict_blanks blanks.blank, verdict_nil]
  | cons c cs ih => simp only [List.cons_append, verdict_cons, ih]

end Reader

theorem parse_eq_verdict (source : String) :
    parse source = if source.toList.all Text.isBlank then .error .blank
      else (Reader.initial.verdict source.toList).mapError
        fun refusal => .malformed refusal (Text.trimmed source) := by
  rw [parse, Reader.verdict]
  cases Reader.initial.run source.toList <;> rfl

/-- An expression is read without the blank characters around it, and so is what is reported where there is
none. -/
theorem parse_eq_of_sameInside {source source' : String} (h : Text.SameInside source source') :
    parse source' = parse source := by
  obtain ⟨inside, hsource, hsource'⟩ := h
  have hverdict : ∀ {text : String}, Text.Surrounds inside text →
      Reader.initial.verdict text.toList = Reader.initial.verdict inside := by
    rintro text ⟨front, back, htext⟩
    rw [htext, Reader.verdict_append_blanks, Reader.initial, Reader.verdict_start]
  rw [parse_eq_verdict, parse_eq_verdict, Text.trimmed, Text.trimmed, hsource.all_isBlank,
    hsource'.all_isBlank, hverdict hsource, hverdict hsource', hsource.trim, hsource'.trim]

end Expr

end Logicless
