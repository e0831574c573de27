import Logicless.Expr.Parser

/-!
# The grammar of expressions

An expression is a primary and the steps behind it, from left to right:

    text       := blanks expression blanks
    expression := primary ( "." identifier | "(" blanks expression blanks ")" )*
    primary    := "." [ identifier ] | identifier

The automaton that reads expressions knows nothing of primaries and steps. It holds the expressions
that are complete so far, and decides by the next character alone. That it accepts the texts of this
grammar and no others, and makes of them what the grammar says, is the subject of this module.

## Shape of the module

* `Derivation` is the type of derivations of the grammar, with the text that is derived and the
  expression that it stands for. Its parts are `Primary`, `Step` and `Phrase`.
* `Phrase.reads` follows a derivation: the automaton reads its text and comes to its expression.
* `Reader.Reached` says how the characters that were read so far are the start of a derivation.
  Each character keeps it (`Reached.step`), so a text that is read has a derivation.
* `Derivation.text_injective` says that no text has two derivations. It does not need the automaton:
  each part of a derivation is told from what may follow it by the first character.
* `parse_iff_derivation` joins the directions.
-/

namespace Logicless.Expr

/-! ## Derivations -/

/-- Blank characters, or none. -/
structure Blanks where
  /-- The characters. -/
  chars : List Char
  /-- All of them are blank. -/
  blank : ∀ c ∈ chars, Text.isBlank c = true

instance (name : String) : Decidable (IsIdentifier name) :=
  decidable_of_iff (name.toList ≠ [] ∧ name.toList.all isIdentifierChar = true)
    (and_congr_right fun _ => List.all_eq_true)

/-- A text that can stand as an identifier. -/
structure Identifier where
  /-- The text. -/
  name : String
  /-- It is not empty and has no blank or reserved characters. -/
  valid : IsIdentifier name

/-- The start of an expression. -/
inductive Primary where
  /-- A dot. -/
  | dot
  /-- A dot and an identifier. -/
  | leading (word : Identifier)
  /-- An identifier. -/
  | named (word : Identifier)

/-- What follows a complete expression and makes another one of it. -/
inductive Step where
  /-- A dot and an identifier. -/
  | select (word : Identifier)
  /-- An argument in parentheses, given by its primary and its steps. -/
  | apply (before : Blanks) (primary : Primary) (steps : List Step) (after : Blanks)

/-- The derivation of an expression. -/
structure Phrase where
  /-- Its start. -/
  primary : Primary
  /-- The steps behind it, in order. -/
  steps : List Step

/-- The derivation of a whole text. -/
structure Derivation where
  /-- The blank characters in front of the expression. -/
  before : Blanks
  /-- The expression. -/
  phrase : Phrase
  /-- The blank characters behind it. -/
  after : Blanks

/-- The characters of an identifier. -/
def Identifier.chars (word : Identifier) : List Char :=
  word.name.toList

/-- The text of a primary. -/
def Primary.text : Primary → List Char
  | dot => ['.']
  | leading word => '.' :: word.chars
  | named word => word.chars

/-- The expression that a primary stands for. -/
def Primary.expression : Primary → Expr
  | dot => .implicit
  | leading word => .member .implicit word.name
  | named word => .identifier word.name

mutual

/-- The text of a step. -/
def Step.text : Step → List Char
  | .select word => '.' :: word.chars
  | .apply before primary steps after =>
    '(' :: (before.chars ++ (primary.text ++ (textOfSteps steps ++ (after.chars ++ [')']))))
termination_by structural step => step

/-- The text of some steps in order. -/
def textOfSteps : List Step → List Char
  | [] => []
  | step :: steps => step.text ++ textOfSteps steps
termination_by structural steps => steps

end

mutual

/-- What a step makes of the expression in front of it. -/
def Step.extend (base : Expr) : Step → Expr
  | .select word => .member base word.name
  | .apply _ primary steps _ => .filtered base (extendBySteps primary.expression steps)
termination_by structural step => step

/-- What some steps make of the expression in front of them, from left to right. -/
def extendBySteps (base : Expr) : List Step → Expr
  | [] => base
  | step :: steps => extendBySteps (step.extend base) steps
termination_by structural steps => steps

end

namespace Phrase

/-- The text of an expression. -/
def text (phrase : Phrase) : List Char :=
  phrase.primary.text ++ textOfSteps phrase.steps

/-- The expression itself. -/
def expression (phrase : Phrase) : Expr :=
  extendBySteps phrase.primary.expression phrase.steps

/-- An expression with one more step. -/
def append (phrase : Phrase) (step : Step) : Phrase :=
  ⟨phrase.primary, phrase.steps ++ [step]⟩

end Phrase

/-- The text that is derived. -/
def Derivation.text (derivation : Derivation) : List Char :=
  derivation.before.chars ++ (derivation.phrase.text ++ derivation.after.chars)

/-- The expression that a text stands for. -/
def Derivation.expression (derivation : Derivation) : Expr :=
  derivation.phrase.expression

/-- No blank characters. -/
def Blanks.none : Blanks :=
  ⟨[], by simp⟩

/-- Blank characters with another one behind them. -/
def Blanks.concat (blanks : Blanks) (c : Char) (h : Text.isBlank c = true) : Blanks :=
  ⟨blanks.chars ++ [c], by
    intro d hd
    rcases List.mem_append.mp hd with hd | hd
    · exact blanks.blank d hd
    · rwa [List.mem_singleton.mp hd]⟩

theorem textOfSteps_append (steps steps' : List Step) :
    textOfSteps (steps ++ steps') = textOfSteps steps ++ textOfSteps steps' := by
  induction steps with
  | nil => rfl
  | cons step steps ih => rw [List.cons_append, textOfSteps, ih, textOfSteps, List.append_assoc]

theorem extendBySteps_append (base : Expr) (steps steps' : List Step) :
    extendBySteps base (steps ++ steps') = extendBySteps (extendBySteps base steps) steps' := by
  induction steps generalizing base with
  | nil => rfl
  | cons step steps ih => rw [List.cons_append, extendBySteps, ih, extendBySteps]

namespace Phrase

@[simp]
theorem text_append (phrase : Phrase) (step : Step) :
    (phrase.append step).text = phrase.text ++ step.text := by
  rw [append, text, textOfSteps_append, textOfSteps, textOfSteps, List.append_nil, text,
    List.append_assoc]

@[simp]
theorem expression_append (phrase : Phrase) (step : Step) :
    (phrase.append step).expression = step.extend phrase.expression := by
  rw [append, expression, extendBySteps_append, extendBySteps, extendBySteps, expression]

end Phrase

/-! ## The characters of the grammar -/

/-- An identifier has a first character. -/
theorem Identifier.exists_chars_eq_cons (word : Identifier) :
    ∃ c cs, word.chars = c :: cs ∧ isIdentifierChar c = true ∧
      ∀ d ∈ cs, isIdentifierChar d = true := by
  obtain ⟨c, cs, h⟩ := List.exists_cons_of_ne_nil word.valid.1
  have hvalid : ∀ d ∈ c :: cs, isIdentifierChar d = true := h ▸ word.valid.2
  exact ⟨c, cs, h, hvalid c List.mem_cons_self, fun d hd => hvalid d (List.mem_cons_of_mem _ hd)⟩

theorem not_isIdentifierChar_of_isBlank {c : Char} (h : Text.isBlank c = true) :
    isIdentifierChar c = false := by
  simp [isIdentifierChar, h]

theorem not_isBlank_of_isIdentifierChar {c : Char} (h : isIdentifierChar c = true) :
    Text.isBlank c = false := by
  simp only [isIdentifierChar, Bool.and_eq_true, Bool.not_eq_true'] at h
  exact h.1

@[simp]
theorem isIdentifierChar_dot : isIdentifierChar '.' = false := by decide

@[simp]
theorem isIdentifierChar_open : isIdentifierChar '(' = false := by decide

@[simp]
theorem isIdentifierChar_close : isIdentifierChar ')' = false := by decide

@[simp]
theorem isBlank_dot : Text.isBlank '.' = false := by decide

@[simp]
theorem isBlank_open : Text.isBlank '(' = false := by decide

@[simp]
theorem isBlank_close : Text.isBlank ')' = false := by decide

/-! ## From derivations to readings -/

namespace Reader

/-- Reads some characters, if none of them is refused. -/
def readAll (reader : Reader) (cs : List Char) : Except Refusal Reader :=
  cs.foldlM step reader

variable {reader reader' : Reader} {functions : List Expr} {cs cs' : List Char}

@[simp]
theorem readAll_nil : reader.readAll [] = .ok reader := rfl

theorem readAll_cons {c : Char} (h : reader.step c = .ok reader') :
    reader.readAll (c :: cs) = reader'.readAll cs := by
  rw [readAll, List.foldlM_cons, h]
  rfl

theorem readAll_append (h : reader.readAll cs = .ok reader') :
    reader.readAll (cs ++ cs') = reader'.readAll cs' := by
  rw [readAll] at h
  rw [readAll, List.foldlM_append, h]
  rfl

/-- A text is read to its end exactly if no character is refused and the end is not. -/
theorem run_eq_ok_iff {e : Expr} :
    reader.run cs = .ok e ↔ ∃ reader', reader.readAll cs = .ok reader' ∧ reader'.finish = .ok e := by
  induction cs generalizing reader with
  | nil =>
    rw [run]
    cases h : reader.finish with
    | error refusal => simp [h]
    | ok e' => simp [h]
  | cons c cs ih =>
    rw [run]
    cases h : reader.step c with
    | error refusal => simp [readAll, h, bind, Except.bind]
    | ok next => rw [readAll_cons h, ← ih]

/-- A blank character after a complete expression. -/
theorem operator_of_isBlank {e : Expr} {spaced : Bool} {c : Char} (h : Text.isBlank c = true) :
    operator functions e spaced c = .ok ⟨functions, .spaced e⟩ := by
  unfold operator
  rw [if_pos h]

/-- A closing parenthesis closes the innermost argument, blank characters in front of it or not. -/
theorem operator_close {function e : Expr} {spaced : Bool} :
    operator (function :: functions) e spaced ')' =
      .ok ⟨functions, .closed (.filtered function e)⟩ := by
  simp [operator]

theorem operator_dot {e : Expr} :
    operator functions e false '.' = .ok ⟨functions, .selecting e⟩ := by
  simp [operator]

theorem operator_open {e : Expr} :
    operator functions e false '(' = .ok ⟨e :: functions, .start⟩ := by
  simp [operator]

/-- After a complete expression that no blank characters follow, a character that is part of no
identifier is an operator. -/
theorem step_of_open {place : Place} {e : Expr} {c : Char} (hplace : place.expression? = some e)
    (hopen : ∀ e', place ≠ .spaced e') (hc : isIdentifierChar c = false) :
    Reader.step ⟨functions, place⟩ c = operator functions e false c := by
  cases place with
  | start => cases hplace
  | selecting base => cases hplace
  | spaced e' => exact absurd rfl (hopen e')
  | dot => cases hplace; simp [step, hc]
  | naming word => cases hplace; simp [step, hc]
  | member base word => cases hplace; simp [step, hc]
  | closed e' => cases hplace; simp [step, hc]

/-- Blank characters in front of an expression are passed over. -/
theorem readAll_start (blanks : Blanks) :
    Reader.readAll ⟨functions, .start⟩ blanks.chars = .ok ⟨functions, .start⟩ := by
  obtain ⟨cs, hblank⟩ := blanks
  induction cs with
  | nil => rfl
  | cons c cs ih =>
    have hc : Text.isBlank c = true := hblank c List.mem_cons_self
    have hstep : Reader.step ⟨functions, .start⟩ c = .ok ⟨functions, .start⟩ := by
      simp [step, not_isIdentifierChar_of_isBlank hc, hc]
    rw [readAll_cons hstep]
    exact ih fun d hd => hblank d (List.mem_cons_of_mem _ hd)

theorem readAll_spaced (e : Expr) (hblank : ∀ c ∈ cs, Text.isBlank c = true) :
    Reader.readAll ⟨functions, .spaced e⟩ cs = .ok ⟨functions, .spaced e⟩ := by
  induction cs with
  | nil => rfl
  | cons c cs ih =>
    have hc : Text.isBlank c = true := hblank c List.mem_cons_self
    have hstep : Reader.step ⟨functions, .spaced e⟩ c = .ok ⟨functions, .spaced e⟩ := by
      simp [step, operator_of_isBlank hc, not_isIdentifierChar_of_isBlank hc]
    rw [readAll_cons hstep]
    exact ih fun d hd => hblank d (List.mem_cons_of_mem _ hd)

/-- Identifier characters after the start of a leading identifier. -/
theorem readAll_naming (word : List Char) (h : ∀ c ∈ cs, isIdentifierChar c = true) :
    Reader.readAll ⟨functions, .naming word⟩ cs = .ok ⟨functions, .naming (cs.reverse ++ word)⟩ := by
  induction cs generalizing word with
  | nil => rfl
  | cons c cs ih =>
    have hc : isIdentifierChar c = true := h c List.mem_cons_self
    have hstep : Reader.step ⟨functions, .naming word⟩ c =
        .ok ⟨functions, .naming (c :: word)⟩ := by
      simp [step, hc, Place.extend?]
    rw [readAll_cons hstep, ih _ fun d hd => h d (List.mem_cons_of_mem _ hd)]
    simp

/-- Identifier characters after the start of an identifier behind a dot. -/
theorem readAll_member (base : Expr) (word : List Char) (h : ∀ c ∈ cs, isIdentifierChar c = true) :
    Reader.readAll ⟨functions, .member base word⟩ cs =
      .ok ⟨functions, .member base (cs.reverse ++ word)⟩ := by
  induction cs generalizing word with
  | nil => rfl
  | cons c cs ih =>
    have hc : isIdentifierChar c = true := h c List.mem_cons_self
    have hstep : Reader.step ⟨functions, .member base word⟩ c =
        .ok ⟨functions, .member base (c :: word)⟩ := by
      simp [step, hc, Place.extend?]
    rw [readAll_cons hstep, ih _ fun d hd => h d (List.mem_cons_of_mem _ hd)]
    simp

/-- The reader has a complete expression that no blank characters follow. -/
def IsOpen (reader : Reader) (functions : List Expr) (e : Expr) : Prop :=
  reader.functions = functions ∧ reader.place.expression? = some e ∧ ∀ e', reader.place ≠ .spaced e'

/-- A character that is part of no identifier, after a complete expression. -/
theorem IsOpen.step {e : Expr} {c : Char} (h : reader.IsOpen functions e)
    (hc : isIdentifierChar c = false) : reader.step c = operator functions e false c := by
  obtain ⟨functions', place⟩ := reader
  obtain ⟨rfl, hplace, hopen⟩ := h
  exact step_of_open hplace hopen hc

/-- An identifier where a dot awaits one. -/
theorem readAll_identifier_of_extend {place : Place} {base : Expr} (word : Identifier)
    (hextend : ∀ c, place.extend? c = some (.member base [c])) :
    ∃ reader', Reader.readAll ⟨functions, place⟩ word.chars = .ok reader' ∧
      reader'.IsOpen functions (.member base word.name) := by
  obtain ⟨c, cs, hchars, hc, hcs⟩ := word.exists_chars_eq_cons
  have hstep : Reader.step ⟨functions, place⟩ c = .ok ⟨functions, .member base [c]⟩ := by
    simp [Reader.step, hc, hextend]
  refine ⟨⟨functions, .member base (cs.reverse ++ [c])⟩, ?_, rfl, ?_, by simp⟩
  · rw [hchars, readAll_cons hstep, readAll_member _ _ hcs]
  · have hname : String.ofList (c :: cs) = word.name := by
      rw [← hchars, Identifier.chars, String.ofList_toList]
    simp [Place.expression?, hname]

/-- A primary is read to its expression. -/
theorem readAll_primary (functions : List Expr) (primary : Primary) :
    ∃ reader', Reader.readAll ⟨functions, .start⟩ primary.text = .ok reader' ∧
      reader'.IsOpen functions primary.expression := by
  have hdot : Reader.step ⟨functions, .start⟩ '.' = .ok ⟨functions, .dot⟩ := by
    simp [Reader.step]
  cases primary with
  | dot =>
    exact ⟨⟨functions, .dot⟩, by rw [Primary.text, readAll_cons hdot, readAll_nil], rfl, rfl, by simp⟩
  | leading word =>
    rw [Primary.text, readAll_cons hdot]
    exact readAll_identifier_of_extend word fun _ => rfl
  | named word =>
    obtain ⟨c, cs, hchars, hc, hcs⟩ := word.exists_chars_eq_cons
    have hstep : Reader.step ⟨functions, .start⟩ c = .ok ⟨functions, .naming [c]⟩ := by
      simp [Reader.step, hc, Place.extend?]
    refine ⟨⟨functions, .naming (cs.reverse ++ [c])⟩, ?_, rfl, ?_, by simp⟩
    · rw [Primary.text, hchars, readAll_cons hstep, readAll_naming _ hcs]
    · have hname : String.ofList (c :: cs) = word.name := by
        rw [← hchars, Identifier.chars, String.ofList_toList]
      simp [Place.expression?, Primary.expression, hname]

/-- Blank characters after a complete expression leave it complete. -/
theorem IsOpen.readAll_blanks {e : Expr} (h : reader.IsOpen functions e) (blanks : Blanks) :
    ∃ reader' spaced, reader.readAll blanks.chars = .ok reader' ∧ reader'.functions = functions ∧
      reader'.place.expression? = some e ∧ reader'.step ')' = operator functions e spaced ')' := by
  obtain ⟨cs, hblank⟩ := blanks
  cases cs with
  | nil => exact ⟨reader, false, rfl, h.1, h.2.1, h.step (by simp)⟩
  | cons c cs =>
    have hc : Text.isBlank c = true := hblank c List.mem_cons_self
    have hstep : reader.step c = .ok ⟨functions, .spaced e⟩ := by
      rw [h.step (not_isIdentifierChar_of_isBlank hc), operator_of_isBlank hc]
    refine ⟨⟨functions, .spaced e⟩, true, ?_, rfl, rfl, ?_⟩
    · rw [readAll_cons hstep]
      exact readAll_spaced e fun d hd => hblank d (List.mem_cons_of_mem _ hd)
    · simp [Reader.step]

end Reader

mutual

/-- A step is read to what it makes of the expression in front of it. -/
theorem readAll_step {functions : List Expr} {reader : Reader} {e : Expr}
    (h : reader.IsOpen functions e) :
    (step : Step) → ∃ reader', reader.readAll step.text = .ok reader' ∧
      reader'.IsOpen functions (step.extend e)
  | .select word => by
    have hdot : reader.step '.' = .ok ⟨functions, .selecting e⟩ := by
      rw [h.step isIdentifierChar_dot, Reader.operator_dot]
    rw [Step.text, Reader.readAll_cons hdot, Step.extend]
    exact Reader.readAll_identifier_of_extend word fun _ => rfl
  | .apply before primary steps after => by
    have hparen : reader.step '(' = .ok ⟨e :: functions, .start⟩ := by
      rw [h.step isIdentifierChar_open, Reader.operator_open]
    rw [Step.text, Reader.readAll_cons hparen, Reader.readAll_append (Reader.readAll_start before),
      Step.extend]
    -- inside the parentheses, the expression waits as the innermost function
    obtain ⟨opened, hread, hopened⟩ := Reader.readAll_primary (e :: functions) primary
    rw [Reader.readAll_append hread]
    obtain ⟨argument, hread, hargument⟩ := readAll_steps hopened steps
    rw [Reader.readAll_append hread]
    obtain ⟨spaced, _, hread, _, _, hclose⟩ := hargument.readAll_blanks after
    have hclosed : spaced.step ')' =
        .ok ⟨functions, .closed (.filtered e (extendBySteps primary.expression steps))⟩ := by
      rw [hclose, Reader.operator_close]
    rw [Reader.readAll_append hread, Reader.readAll_cons hclosed]
    exact ⟨_, rfl, rfl, rfl, by simp⟩

/-- Some steps are read to what they make of the expression in front of them. -/
theorem readAll_steps {functions : List Expr} {reader : Reader} {e : Expr}
    (h : reader.IsOpen functions e) :
    (steps : List Step) → ∃ reader', reader.readAll (textOfSteps steps) = .ok reader' ∧
      reader'.IsOpen functions (extendBySteps e steps)
  | [] => ⟨reader, rfl, h⟩
  | step :: steps => by
    obtain ⟨next, hread, hnext⟩ := readAll_step h step
    rw [textOfSteps, Reader.readAll_append hread, extendBySteps]
    exact readAll_steps hnext steps

end

/-- The text of an expression is read to the expression. -/
theorem Phrase.reads (functions : List Expr) (phrase : Phrase) :
    ∃ reader', Reader.readAll ⟨functions, .start⟩ phrase.text = .ok reader' ∧
      reader'.IsOpen functions phrase.expression := by
  obtain ⟨opened, hread, hopened⟩ := Reader.readAll_primary functions phrase.primary
  rw [Phrase.text, Reader.readAll_append hread]
  exact readAll_steps hopened phrase.steps

/-- A complete expression outside of all parentheses may be the end. -/
theorem Reader.finish_eq_ok_iff {reader : Reader} {e : Expr} :
    reader.finish = .ok e ↔ reader.functions = [] ∧ reader.place.expression? = some e := by
  obtain ⟨functions, place⟩ := reader
  rw [Reader.finish]
  cases hplace : place.expression? with
  | none => cases place <;> simp
  | some e' => cases functions <;> simp

/-- The text of a derivation is read to its expression. -/
theorem Derivation.run_text (derivation : Derivation) :
    Reader.initial.run derivation.text = .ok derivation.expression := by
  obtain ⟨opened, hread, hopened⟩ := derivation.phrase.reads []
  obtain ⟨spaced, _, hblanks, hfunctions, hplace, -⟩ := hopened.readAll_blanks derivation.after
  refine Reader.run_eq_ok_iff.mpr ⟨spaced, ?_, Reader.finish_eq_ok_iff.mpr ⟨hfunctions, hplace⟩⟩
  rw [Derivation.text, Reader.initial,
    Reader.readAll_append (Reader.readAll_start derivation.before), Reader.readAll_append hread,
    hblanks]

/-! ## From readings to derivations -/

/-- How the characters of the innermost expression that were read so far, from its primary on, come to
a place. -/
inductive Place.Spells : Place → List Char → Prop
  | start : Spells .start []
  | dot : Spells .dot ['.']
  | naming {word : List Char} (hne : word ≠ []) (hword : ∀ c ∈ word, isIdentifierChar c = true) :
      Spells (.naming word) word.reverse
  | leading {word : List Char} (hne : word ≠ []) (hword : ∀ c ∈ word, isIdentifierChar c = true) :
      Spells (.member .implicit word) ('.' :: word.reverse)
  | selecting (phrase : Phrase) : Spells (.selecting phrase.expression) (phrase.text ++ ['.'])
  | member (phrase : Phrase) {word : List Char} (hne : word ≠ [])
      (hword : ∀ c ∈ word, isIdentifierChar c = true) :
      Spells (.member phrase.expression word) (phrase.text ++ '.' :: word.reverse)
  | closed (phrase : Phrase) : Spells (.closed phrase.expression) phrase.text
  | spaced (phrase : Phrase) (blanks : Blanks) :
      Spells (.spaced phrase.expression) (phrase.text ++ blanks.chars)

/-- How the characters in front of the innermost expression come to the functions that are waiting for
their argument. -/
inductive Opened : List Expr → List Char → Prop
  | outermost (blanks : Blanks) : Opened [] blanks.chars
  | argument {functions : List Expr} {before : List Char} (houter : Opened functions before)
      (phrase : Phrase) (blanks : Blanks) :
      Opened (phrase.expression :: functions) (before ++ (phrase.text ++ '(' :: blanks.chars))

/-- How the characters that were read so far come to a state of the reader. -/
def Reader.Reached (reader : Reader) (read : List Char) : Prop :=
  ∃ before inner, read = before ++ inner ∧ Opened reader.functions before ∧
    reader.place.Spells inner

/-- The characters of an identifier, read back to front, as an identifier. -/
def Identifier.ofReversed (word : List Char) (hne : word ≠ [])
    (hword : ∀ c ∈ word, isIdentifierChar c = true) : Identifier :=
  ⟨String.ofList word.reverse, by
    rw [IsIdentifier, String.toList_ofList]
    exact ⟨by simpa using hne, by simpa using hword⟩⟩

@[simp]
theorem Identifier.chars_ofReversed {word : List Char} {hne : word ≠ []}
    {hword : ∀ c ∈ word, isIdentifierChar c = true} :
    (ofReversed word hne hword).chars = word.reverse :=
  String.toList_ofList

/-- More characters of an identifier. -/
theorem Place.Spells.extend {place place' : Place} {inner : List Char} {c : Char}
    (h : place.Spells inner) (hc : isIdentifierChar c = true)
    (hextend : place.extend? c = some place') : place'.Spells (inner ++ [c]) := by
  have hcons : ∀ {word : List Char}, (∀ d ∈ word, isIdentifierChar d = true) →
      ∀ d ∈ c :: word, isIdentifierChar d = true := by
    intro word hword d hd
    rcases List.mem_cons.mp hd with rfl | hd
    · exact hc
    · exact hword d hd
  have hsingle : ∀ d ∈ [c], isIdentifierChar d = true := hcons (by simp)
  cases h with
  | closed | spaced => cases hextend
  | start =>
    obtain rfl := Option.some.inj hextend
    exact .naming (by simp) hsingle
  | dot =>
    obtain rfl := Option.some.inj hextend
    exact .leading (by simp) hsingle
  | naming hne hword =>
    obtain rfl := Option.some.inj hextend
    rw [← List.reverse_cons]
    exact .naming (by simp) (hcons hword)
  | leading hne hword =>
    obtain rfl := Option.some.inj hextend
    rw [List.cons_append, ← List.reverse_cons]
    exact .leading (by simp) (hcons hword)
  | selecting phrase =>
    obtain rfl := Option.some.inj hextend
    rw [List.append_assoc]
    exact .member phrase (by simp) hsingle
  | member phrase hne hword =>
    obtain rfl := Option.some.inj hextend
    rw [List.append_assoc, List.cons_append, ← List.reverse_cons]
    exact .member phrase (by simp) (hcons hword)

/-- A complete expression has a derivation, with blank characters behind it where some were read. -/
theorem Place.Spells.exists_phrase {place : Place} {inner : List Char} {e : Expr}
    (h : place.Spells inner) (hplace : place.expression? = some e) :
    ∃ (phrase : Phrase) (blanks : Blanks), phrase.expression = e ∧
      inner = phrase.text ++ blanks.chars ∧ ((∀ e', place ≠ .spaced e') → blanks.chars = []) := by
  cases h with
  | start | selecting => cases hplace
  | dot =>
    obtain rfl := Option.some.inj hplace
    exact ⟨⟨.dot, []⟩, .none, rfl, rfl, fun _ => rfl⟩
  | naming hne hword =>
    obtain rfl := Option.some.inj hplace
    refine ⟨⟨.named (.ofReversed _ hne hword), []⟩, .none, rfl, ?_, fun _ => rfl⟩
    simp [Phrase.text, Primary.text, textOfSteps, Blanks.none]
  | leading hne hword =>
    obtain rfl := Option.some.inj hplace
    refine ⟨⟨.leading (.ofReversed _ hne hword), []⟩, .none, rfl, ?_, fun _ => rfl⟩
    simp [Phrase.text, Primary.text, textOfSteps, Blanks.none]
  | member phrase hne hword =>
    obtain rfl := Option.some.inj hplace
    refine ⟨phrase.append (.select (.ofReversed _ hne hword)), .none, ?_, ?_, fun _ => rfl⟩
    · rw [Phrase.expression_append, Step.extend]
      rfl
    · simp [Step.text, Blanks.none]
  | closed phrase =>
    obtain rfl := Option.some.inj hplace
    exact ⟨phrase, .none, rfl, by simp [Blanks.none], fun _ => rfl⟩
  | spaced phrase blanks =>
    obtain rfl := Option.some.inj hplace
    exact ⟨phrase, blanks, rfl, rfl, fun hopen => absurd rfl (hopen _)⟩

/-- The character after a complete expression is a blank one or part of the next step. -/
theorem reached_of_operator {functions : List Expr} {before : List Char} {phrase : Phrase}
    {blanks : Blanks} {spaced : Bool} {c : Char} {reader' : Reader}
    (hfunctions : Opened functions before) (hblanks : spaced = false → blanks.chars = [])
    (h : Reader.operator functions phrase.expression spaced c = .ok reader') :
    reader'.Reached (before ++ (phrase.text ++ blanks.chars) ++ [c]) := by
  unfold Reader.operator at h
  split at h
  case isTrue hblank =>
    obtain rfl := Except.ok.inj h
    refine ⟨before, phrase.text ++ (blanks.concat c hblank).chars, ?_, hfunctions,
      .spaced phrase _⟩
    simp [Blanks.concat]
  case isFalse =>
    split at h
    · -- a closing parenthesis makes the argument a step of the function
      obtain rfl := Except.ok.inj h
      cases hfunctions with
      | @argument outer outside houter function inside =>
        have hstep : (function.append
            (.apply inside phrase.primary phrase.steps blanks)).expression =
              .filtered function.expression phrase.expression := by
          rw [Phrase.expression_append, Step.extend, ← Phrase.expression]
        rw [← hstep]
        refine ⟨outside, _, ?_, houter, .closed _⟩
        have htext : phrase.text = phrase.primary.text ++ textOfSteps phrase.steps := rfl
        rw [Phrase.text_append, Step.text, htext]
        simp
    · split at h
      · cases h
      · rename_i hspaced
        obtain rfl := Except.ok.inj h
        refine ⟨before, phrase.text ++ ['.'], ?_, hfunctions, .selecting phrase⟩
        simp [hblanks (Bool.eq_false_iff.mpr hspaced)]
    · split at h
      · cases h
      · rename_i hspaced
        obtain rfl := Except.ok.inj h
        refine ⟨before ++ (phrase.text ++ '(' :: Blanks.none.chars), [], ?_,
          .argument hfunctions phrase .none, .start⟩
        simp [hblanks (Bool.eq_false_iff.mpr hspaced), Blanks.none]
    · cases h

/-- Blank characters in front of an expression belong to what is in front of it. -/
theorem Opened.concat {functions : List Expr} {before : List Char} {c : Char}
    (h : Opened functions before) (hblank : Text.isBlank c = true) :
    Opened functions (before ++ [c]) := by
  cases h with
  | outermost blanks => exact .outermost (blanks.concat c hblank)
  | argument houter phrase blanks =>
    have hargument := Opened.argument houter phrase (blanks.concat c hblank)
    simpa [Blanks.concat] using hargument

namespace Reader.Reached

variable {reader reader' : Reader} {read : List Char}

theorem initial : Reader.initial.Reached [] :=
  ⟨[], [], rfl, .outermost .none, .start⟩

/-- After a complete expression. -/
theorem of_operator {functions : List Expr} {place : Place} {before inner : List Char} {e : Expr}
    {spaced : Bool} {c : Char} (hfunctions : Opened functions before) (hplace : place.Spells inner)
    (hcomplete : place.expression? = some e)
    (hspaced : spaced = false → ∀ e', place ≠ .spaced e')
    (h : operator functions e spaced c = .ok reader') :
    reader'.Reached (before ++ inner ++ [c]) := by
  obtain ⟨phrase, blanks, rfl, rfl, hblanks⟩ := hplace.exists_phrase hcomplete
  exact reached_of_operator hfunctions (fun hfalse => hblanks (hspaced hfalse)) h

/-- Each character that is read continues a derivation. -/
theorem step {c : Char} (h : reader.Reached read) (hstep : reader.step c = .ok reader') :
    reader'.Reached (read ++ [c]) := by
  obtain ⟨functions, place⟩ := reader
  obtain ⟨before, inner, rfl, hfunctions, hplace⟩ := h
  -- an identifier goes on, an expression starts, or an operator follows a complete one
  rw [Reader.step] at hstep
  split at hstep
  case isTrue hc =>
    split at hstep
    · rename_i place' hextend
      obtain rfl := Except.ok.inj hstep
      exact ⟨before, inner ++ [c], List.append_assoc .., hfunctions, hplace.extend hc hextend⟩
    · cases hstep
  case isFalse hc =>
    cases place with
    | start =>
      cases hplace
      dsimp only at hstep
      split at hstep
      · rename_i hblank
        obtain rfl := Except.ok.inj hstep
        exact ⟨before ++ [c], [], by simp, hfunctions.concat hblank, .start⟩
      · split at hstep
        · rename_i hdot
          obtain rfl := hdot
          obtain rfl := Except.ok.inj hstep
          exact ⟨before, ['.'], by simp, hfunctions, .dot⟩
        · cases hstep
    | selecting base => cases hstep
    | dot => exact of_operator hfunctions hplace rfl (by simp) hstep
    | naming word => exact of_operator hfunctions hplace rfl (by simp) hstep
    | member base word => exact of_operator hfunctions hplace rfl (by simp) hstep
    | closed e => exact of_operator hfunctions hplace rfl (by simp) hstep
    | spaced e => exact of_operator hfunctions hplace rfl (by simp) hstep

theorem readAll {cs : List Char} (h : reader.Reached read) (hread : reader.readAll cs = .ok reader') :
    reader'.Reached (read ++ cs) := by
  induction cs generalizing reader read with
  | nil =>
    obtain rfl := Except.ok.inj hread
    rwa [List.append_nil]
  | cons c cs ih =>
    cases hstep : reader.step c with
    | error refusal => simp [Reader.readAll, hstep, bind, Except.bind] at hread
    | ok next =>
      rw [readAll_cons hstep] at hread
      have hreached := ih (h.step hstep) hread
      rwa [List.append_assoc, List.singleton_append] at hreached

end Reader.Reached

/-- A text that is read to its end has a derivation. -/
theorem exists_derivation_of_run {cs : List Char} {e : Expr} (h : Reader.initial.run cs = .ok e) :
    ∃ derivation : Derivation, derivation.text = cs ∧ derivation.expression = e := by
  obtain ⟨reader, hread, hfinish⟩ := Reader.run_eq_ok_iff.mp h
  obtain ⟨before, inner, hcs, hfunctions, hplace⟩ := Reader.Reached.initial.readAll hread
  obtain ⟨hempty, hcomplete⟩ := Reader.finish_eq_ok_iff.mp hfinish
  obtain ⟨phrase, after, hphrase, rfl, -⟩ := hplace.exists_phrase hcomplete
  rw [hempty] at hfunctions
  cases hfunctions with
  | outermost blanks => exact ⟨⟨blanks, phrase, after⟩, hcs.symm, hphrase⟩

/-! ## No text has two derivations -/

/-- No identifier goes on with these characters. -/
def EndsIdentifier (cs : List Char) : Prop :=
  ∀ c ∈ cs.head?, isIdentifierChar c = false

/-- No expression goes on with these characters: they are none, or the first of them is blank or a
closing parenthesis. -/
def EndsPhrase (cs : List Char) : Prop :=
  ∀ c ∈ cs.head?, Text.isBlank c = true ∨ c = ')'

section Endings

variable {cs cs' : List Char}

theorem EndsPhrase.endsIdentifier (h : EndsPhrase cs) : EndsIdentifier cs := by
  intro c hc
  rcases h c hc with hblank | rfl
  · exact not_isIdentifierChar_of_isBlank hblank
  · exact isIdentifierChar_close

theorem endsIdentifier_steps (steps : List Step) (h : EndsPhrase cs) :
    EndsIdentifier (textOfSteps steps ++ cs) := by
  cases steps with
  | nil => exact h.endsIdentifier
  | cons step steps =>
    intro c hc
    cases step <;> (rw [textOfSteps, Step.text] at hc; obtain rfl := Option.some.inj hc; simp)

/-- The blank characters behind an expression end it, and so does the parenthesis behind them. -/
theorem endsPhrase_close (blanks : Blanks) : EndsPhrase (blanks.chars ++ ')' :: cs) := by
  obtain ⟨chars, hblank⟩ := blanks
  intro c hc
  cases chars with
  | nil => exact .inr (Option.some.inj hc).symm
  | cons d chars =>
    obtain rfl := Option.some.inj hc
    exact .inl (hblank d List.mem_cons_self)

theorem endsPhrase_blanks (blanks : Blanks) : EndsPhrase blanks.chars := by
  intro c hc
  exact .inl (blanks.blank c (List.mem_of_mem_head? hc))

/-- Where a run of characters of a class ends is determined by the characters. -/
theorem eq_of_append_eq {p : Char → Bool} {run run' : List Char} (hrun : ∀ c ∈ run, p c = true)
    (hrun' : ∀ c ∈ run', p c = true) (hend : ∀ c ∈ cs.head?, p c = false)
    (hend' : ∀ c ∈ cs'.head?, p c = false) (h : run ++ cs = run' ++ cs') : run = run' ∧ cs = cs' := by
  have hempty : ∀ {cs : List Char}, (∀ c ∈ cs.head?, p c = false) → cs.takeWhile p = [] := by
    intro cs hcs
    cases cs with
    | nil => rfl
    | cons c cs => rw [List.takeWhile_cons, hcs c rfl]; rfl
  have htake := congrArg (List.takeWhile p) h
  rw [List.takeWhile_append_of_pos hrun, List.takeWhile_append_of_pos hrun', hempty hend,
    hempty hend', List.append_nil, List.append_nil] at htake
  subst htake
  exact ⟨rfl, List.append_cancel_left h⟩

theorem Identifier.eq_of_append_eq {word word' : Identifier} (hend : EndsIdentifier cs)
    (hend' : EndsIdentifier cs') (h : word.chars ++ cs = word'.chars ++ cs') :
    word = word' ∧ cs = cs' := by
  obtain ⟨hchars, hcs⟩ := Expr.eq_of_append_eq word.valid.2 word'.valid.2 hend hend' h
  obtain ⟨name, _⟩ := word
  obtain ⟨name', _⟩ := word'
  obtain rfl : name = name' := String.toList_injective hchars
  exact ⟨rfl, hcs⟩

theorem Blanks.eq_of_append_eq {blanks blanks' : Blanks}
    (hend : ∀ c ∈ cs.head?, Text.isBlank c = false) (hend' : ∀ c ∈ cs'.head?, Text.isBlank c = false)
    (h : blanks.chars ++ cs = blanks'.chars ++ cs') : blanks = blanks' ∧ cs = cs' := by
  obtain ⟨hchars, hcs⟩ := Expr.eq_of_append_eq blanks.blank blanks'.blank hend hend' h
  obtain ⟨chars, _⟩ := blanks
  obtain ⟨chars', _⟩ := blanks'
  obtain rfl : chars = chars' := hchars
  exact ⟨rfl, hcs⟩

/-- A primary starts with a character that is not blank. -/
theorem Primary.exists_text_eq_cons (primary : Primary) :
    ∃ c cs, primary.text = c :: cs ∧ Text.isBlank c = false := by
  cases primary with
  | dot => exact ⟨'.', [], rfl, isBlank_dot⟩
  | leading word => exact ⟨'.', word.chars, rfl, isBlank_dot⟩
  | named word =>
    obtain ⟨c, cs, hchars, hc, -⟩ := word.exists_chars_eq_cons
    exact ⟨c, cs, hchars, not_isBlank_of_isIdentifierChar hc⟩

theorem Primary.not_isBlank_head (primary : Primary) :
    ∀ c ∈ (primary.text ++ cs).head?, Text.isBlank c = false := by
  obtain ⟨d, ds, htext, hd⟩ := primary.exists_text_eq_cons
  intro c hc
  rw [htext] at hc
  obtain rfl := Option.some.inj hc
  exact hd

/-- An identifier does not start with a dot. -/
theorem Identifier.chars_append_ne_dot (word : Identifier) : word.chars ++ cs ≠ '.' :: cs' := by
  obtain ⟨c, ds, hchars, hc, -⟩ := word.exists_chars_eq_cons
  rw [hchars, List.cons_append]
  intro h
  obtain ⟨rfl, -⟩ := List.cons.inj h
  cases hc

/-- No identifier goes on where one starts. -/
theorem Identifier.not_endsIdentifier (word : Identifier) : ¬ EndsIdentifier (word.chars ++ cs) := by
  obtain ⟨c, ds, hchars, hc, -⟩ := word.exists_chars_eq_cons
  intro h
  rw [hchars] at h
  rw [h c rfl] at hc
  cases hc

theorem Primary.eq_of_append_eq {primary primary' : Primary} (hend : EndsIdentifier cs)
    (hend' : EndsIdentifier cs') (h : primary.text ++ cs = primary'.text ++ cs') :
    primary = primary' ∧ cs = cs' := by
  cases primary with
  | dot =>
    cases primary' with
    | dot => exact ⟨rfl, (List.cons.inj h).2⟩
    | leading word' =>
      obtain rfl := (List.cons.inj h).2
      exact absurd hend word'.not_endsIdentifier
    | named word' => exact absurd h.symm word'.chars_append_ne_dot
  | leading word =>
    cases primary' with
    | dot =>
      obtain rfl := (List.cons.inj h).2.symm
      exact absurd hend' word.not_endsIdentifier
    | leading word' =>
      obtain ⟨rfl, hcs⟩ := Identifier.eq_of_append_eq hend hend' (List.cons.inj h).2
      exact ⟨rfl, hcs⟩
    | named word' => exact absurd h.symm word'.chars_append_ne_dot
  | named word =>
    cases primary' with
    | dot | leading => exact absurd h word.chars_append_ne_dot
    | named word' =>
      obtain ⟨rfl, hcs⟩ := Identifier.eq_of_append_eq hend hend' h
      exact ⟨rfl, hcs⟩

end Endings

mutual

/-- A step is determined by a text that starts with it, if no identifier goes on behind it. -/
theorem Step.eq_of_append_eq {cs cs' : List Char} (hend : EndsIdentifier cs)
    (hend' : EndsIdentifier cs') :
    (step step' : Step) → step.text ++ cs = step'.text ++ cs' → step = step' ∧ cs = cs'
  | .select word, .select word', h => by
    rw [Step.text, Step.text] at h
    obtain ⟨rfl, hcs⟩ := Identifier.eq_of_append_eq hend hend' (List.cons.inj h).2
    exact ⟨rfl, hcs⟩
  | .select _, .apply _ _ _ _, h => by
    rw [Step.text, Step.text] at h
    exact absurd (List.cons.inj h).1 (by decide)
  | .apply _ _ _ _, .select _, h => by
    rw [Step.text, Step.text] at h
    exact absurd (List.cons.inj h).1 (by decide)
  | .apply before primary steps after, .apply before' primary' steps' after', h => by
    -- each part ends where the next one starts, so the parts are told off from left to right
    simp only [Step.text, List.cons_append, List.append_assoc, List.nil_append] at h
    have hinside := (List.cons.inj h).2
    obtain ⟨rfl, hprimary⟩ :=
      Blanks.eq_of_append_eq primary.not_isBlank_head primary'.not_isBlank_head hinside
    obtain ⟨rfl, hsteps⟩ := Primary.eq_of_append_eq
      (endsIdentifier_steps steps (endsPhrase_close after))
      (endsIdentifier_steps steps' (endsPhrase_close after')) hprimary
    obtain ⟨rfl, hafter⟩ := eq_of_textOfSteps_append_eq (endsPhrase_close after)
      (endsPhrase_close after') steps steps' hsteps
    have hclose : ∀ {cs : List Char}, ∀ c ∈ (')' :: cs).head?, Text.isBlank c = false := by
      intro cs c hc
      obtain rfl := Option.some.inj hc
      exact isBlank_close
    obtain ⟨rfl, hclosed⟩ := Blanks.eq_of_append_eq hclose hclose hafter
    exact ⟨rfl, (List.cons.inj hclosed).2⟩

/-- Some steps are determined by a text that starts with them, if the expression ends behind them. -/
theorem eq_of_textOfSteps_append_eq {cs cs' : List Char} (hend : EndsPhrase cs)
    (hend' : EndsPhrase cs') :
    (steps steps' : List Step) → textOfSteps steps ++ cs = textOfSteps steps' ++ cs' →
      steps = steps' ∧ cs = cs'
  | [], [], h => ⟨rfl, h⟩
  | [], step' :: _, h => by
    subst h
    -- a step starts with a character that ends no expression
    cases step' <;>
      (rw [textOfSteps, Step.text] at hend; simpa using hend _ rfl)
  | step :: _, [], h => by
    subst h
    cases step <;>
      (rw [textOfSteps, Step.text] at hend'; simpa using hend' _ rfl)
  | step :: steps, step' :: steps', h => by
    rw [textOfSteps, textOfSteps, List.append_assoc, List.append_assoc] at h
    obtain ⟨rfl, hrest⟩ := Step.eq_of_append_eq (endsIdentifier_steps steps hend)
      (endsIdentifier_steps steps' hend') step step' h
    obtain ⟨rfl, hcs⟩ := eq_of_textOfSteps_append_eq hend hend' steps steps' hrest
    exact ⟨rfl, hcs⟩

end

/-- No text has two derivations. -/
theorem Derivation.text_injective {derivation derivation' : Derivation}
    (h : derivation.text = derivation'.text) : derivation = derivation' := by
  obtain ⟨before, ⟨primary, steps⟩, after⟩ := derivation
  obtain ⟨before', ⟨primary', steps'⟩, after'⟩ := derivation'
  simp only [Derivation.text, Phrase.text, List.append_assoc] at h
  obtain ⟨rfl, hphrase⟩ :=
    Blanks.eq_of_append_eq primary.not_isBlank_head primary'.not_isBlank_head h
  obtain ⟨rfl, hsteps⟩ := Primary.eq_of_append_eq
    (endsIdentifier_steps steps (endsPhrase_blanks after))
    (endsIdentifier_steps steps' (endsPhrase_blanks after')) hphrase
  obtain ⟨rfl, hafter⟩ := eq_of_textOfSteps_append_eq (endsPhrase_blanks after)
    (endsPhrase_blanks after') steps steps' hsteps
  obtain ⟨chars, _⟩ := after
  obtain ⟨chars', _⟩ := after'
  obtain rfl : chars = chars' := hafter
  rfl

/-! ## The texts that are expressions -/

/-- A derived text is not blank. -/
theorem Derivation.exists_not_isBlank (derivation : Derivation) :
    ∃ c ∈ derivation.text, Text.isBlank c = false := by
  obtain ⟨c, cs, htext, hc⟩ := derivation.phrase.primary.exists_text_eq_cons
  refine ⟨c, ?_, hc⟩
  rw [Derivation.text, Phrase.text, htext]
  simp

theorem parse_eq_ok_iff {source : String} {e : Expr} :
    parse source = .ok e ↔
      ∃ derivation : Derivation, derivation.text = source.toList ∧ derivation.expression = e := by
  rw [parse]
  split
  · rename_i hblank
    rw [List.all_eq_true] at hblank
    simp only [reduceCtorEq, false_iff, not_exists, not_and]
    intro derivation htext
    obtain ⟨c, hc, hnot⟩ := derivation.exists_not_isBlank
    rw [htext] at hc
    rw [hblank c hc] at hnot
    cases hnot
  · constructor
    · intro h
      cases hrun : Reader.initial.run source.toList with
      | error stop => simp [hrun] at h
      | ok e' =>
        rw [hrun] at h
        obtain rfl := Except.ok.inj h
        exact exists_derivation_of_run hrun
    · rintro ⟨derivation, htext, rfl⟩
      rw [← htext, derivation.run_text]
      rfl

/-- A text is refused as blank exactly if it consists of blank characters. -/
theorem isBlank_of_parse_eq_error {source : String} {error : ParseError}
    (h : parse source = .error error) :
    error.isBlank = true ↔ ∀ c ∈ source.toList, Text.isBlank c = true := by
  rw [parse] at h
  split at h
  · rename_i hblank
    obtain rfl := Except.error.inj h
    simpa [ParseError.isBlank] using hblank
  · rename_i hblank
    cases hrun : Reader.initial.run source.toList with
    | ok e => simp [hrun] at h
    | error stop =>
      rw [hrun] at h
      obtain rfl := Except.error.inj h
      simpa [ParseError.isBlank] using hblank

/-- Whatever a parser has read before, it reads a text to an expression exactly if the grammar derives
the text, in one way only, and the expression is the one that the derivation stands for. Any other text
is refused, as blank exactly if it consists of blank characters. -/
theorem parse_iff_derivation (parser : Parser) (source : String) :
    (∀ e, (parser.parse source).1 = .ok e ↔
      ∃ derivation : Derivation, derivation.text = source.toList ∧ derivation.expression = e) ∧
    (∀ derivation derivation' : Derivation, derivation.text = source.toList →
      derivation'.text = source.toList → derivation = derivation') ∧
    ((¬ ∃ derivation : Derivation, derivation.text = source.toList) →
      ∃ error, (parser.parse source).1 = .error error ∧
        (error.isBlank = true ↔ ∀ c ∈ source.toList, Text.isBlank c = true)) := by
  rw [Parser.parse_fst]
  refine ⟨fun e => parse_eq_ok_iff, ?_, ?_⟩
  · intro derivation derivation' htext htext'
    exact Derivation.text_injective (htext.trans htext'.symm)
  · intro hnone
    cases hparse : parse source with
    | ok e =>
      obtain ⟨derivation, htext, -⟩ := parse_eq_ok_iff.mp hparse
      exact absurd ⟨derivation, htext⟩ hnone
    | error error => exact ⟨error, rfl, isBlank_of_parse_eq_error hparse⟩

/-- A dot may be followed by the dot of a step, and stands for the current value then, also after a
text where the identifier behind the dot was missing. -/
theorem parse_iff_derivation_dots :
    let parser := (Parser.unused.parse "a. ").2
    (parser.parse " ..a").1 = .ok (.member .implicit "a") ∧
      (parser.parse ".a").1 = .ok (.member .implicit "a") := by
  intro parser
  have hspaced := ((parse_iff_derivation parser " ..a").1 (.member .implicit "a")).mpr
    ⟨⟨.concat .none ' ' (by decide), ⟨.dot, [.select ⟨"a", by decide⟩]⟩, .none⟩, by decide, rfl⟩
  have hleading := ((parse_iff_derivation parser ".a").1 (.member .implicit "a")).mpr
    ⟨⟨.none, ⟨.leading ⟨"a", by decide⟩, []⟩, .none⟩, by decide, rfl⟩
  exact ⟨hspaced, hleading⟩

end Logicless.Expr
