import Logicless.Proofs.Expr.Grammar

/-!
# Where a text stops being an expression

A text that is refused was read up to some place. What stands in front of that place could have been the
start of an expression, and no expression goes on from there with the next character. So the place is the
first one at which the text could be known to be none, and if it is the end of the text, the whole text
could have been continued.

The one half is that whatever has been read can be completed: an expression that has to start can be a
dot, an identifier that has to follow a dot can be any, and every open parenthesis can be closed. The
other half is that the automaton never goes back, so that a character that is refused once is refused
whatever comes after it.

## Shape of the proof

* `Viable` texts are the starts of texts that are read as expressions.
* `Reader.exists_run` completes what has been read, and `viable_iff_readAll` says that the viable texts are
  those of which no character is refused.
* `Reader.exists_refuses_of_run` says where a reader has stopped. `Refusal.Fits` is what a refusal says of
  the next character.
* `Parser.refused_at_first_impossible` is the result.
-/

namespace Logicless.Expr

/-- A text that is the start of a text that is read as an expression. -/
def Viable (cs : List Char) : Prop :=
  ∃ rest e, parse (String.ofList (cs ++ rest)) = .ok e

/-- How many characters of its text a parser has read. -/
def Parser.position (parser : Parser) : Nat :=
  parser.source.toList.length - parser.rest.length

/-- A refusal fits the next character, or the end of the text if there is none: it quotes the character,
or says that there is none, if it says anything about it. -/
def Refusal.Fits : Refusal → Option Char → Prop
  | unexpectedCharacter c, next => next = some c
  | unexpectedEnd, next => next = none
  | missingIdentifier, _ | missingParenthesis, _ => True

namespace Reader

variable {reader reader' : Reader} {functions : List Expr} {cs cs' rest : List Char} {c : Char}

/-! ## Completing what has been read -/

/-- A closing parenthesis closes the innermost argument, if an expression is complete. -/
theorem step_close {function e : Expr} {place : Place} (hplace : place.expression? = some e) :
    Reader.step ⟨function :: functions, place⟩ ')' = .ok ⟨functions, .closed (.filtered function e)⟩ := by
  cases place with
  | start | selecting base => cases hplace
  | spaced e' =>
    cases hplace
    simp [step, operator_close]
  | dot | naming word | member base word | closed e' =>
    rw [step_of_open hplace (by simp) isIdentifierChar_close, operator_close]

/-- Behind a complete expression, closing all parentheses ends the text. -/
theorem exists_run_of_expression (functions : List Expr) (place : Place) {e : Expr}
    (hplace : place.expression? = some e) :
    ∃ rest e', Reader.run ⟨functions, place⟩ rest = .ok e' := by
  induction functions generalizing place e with
  | nil => exact ⟨[], e, by simp [run, finish, hplace]⟩
  | cons function functions ih =>
    obtain ⟨rest, e', hrest⟩ := ih (.closed (.filtered function e)) rfl
    exact ⟨')' :: rest, e', by rw [run, step_close hplace]; exact hrest⟩

/-- Whatever has been read can be completed. -/
theorem exists_run (reader : Reader) : ∃ rest e, reader.run rest = .ok e := by
  obtain ⟨functions, place⟩ := reader
  cases place with
  | start =>
    obtain ⟨rest, e, hrest⟩ := exists_run_of_expression functions .dot rfl
    exact ⟨'.' :: rest, e, by simpa [run, step] using hrest⟩
  | selecting base =>
    have hletter : isIdentifierChar 'a' = true := by decide
    obtain ⟨rest, e, hrest⟩ := exists_run_of_expression functions (.member base ['a']) rfl
    exact ⟨'a' :: rest, e, by simpa [run, step, hletter, Place.extend?] using hrest⟩
  | dot | naming word | member base word | closed e | spaced e =>
    exact exists_run_of_expression functions _ rfl

/-- The start of a text that is read is read. -/
theorem exists_readAll_of_append (h : reader.readAll (cs ++ rest) = .ok reader') :
    ∃ between, reader.readAll cs = .ok between := by
  rw [readAll, List.foldlM_append] at h
  cases hread : List.foldlM step reader cs with
  | ok between => exact ⟨between, hread⟩
  | error refusal => simp [hread, bind, Except.bind] at h

/-! ## Where a reader stops -/

theorem readAll_concat (h : reader.readAll cs = .ok reader') :
    reader.readAll (cs ++ [c]) = reader'.step c := by
  rw [readAll_append h, readAll, List.foldlM_cons]
  cases reader'.step c <;> rfl

/-- The reader refuses the next character, or the end of the text if there is none. -/
def Refuses (reader : Reader) (refusal : Refusal) : Option Char → Prop
  | some c => reader.step c = .error refusal
  | none => reader.finish = .error refusal

/-- A reader has stopped behind characters that it has read. -/
theorem exists_refuses_of_run {refusal : Refusal} (h : reader.run cs = .error (refusal, rest)) :
    ∃ read reader', cs = read ++ rest ∧ reader.readAll read = .ok reader' ∧
      reader'.Refuses refusal rest.head? := by
  induction cs generalizing reader with
  | nil =>
    rw [run] at h
    cases hfinish : reader.finish with
    | ok e => simp [hfinish] at h
    | error refusal' =>
      rw [hfinish] at h
      cases h
      exact ⟨[], reader, rfl, rfl, hfinish⟩
  | cons c cs ih =>
    rw [run] at h
    cases hstep : reader.step c with
    | ok next =>
      rw [hstep] at h
      obtain ⟨read, reader', rfl, hread, hrefuses⟩ := ih h
      exact ⟨c :: read, reader', rfl, by rw [readAll_cons hstep, hread], hrefuses⟩
    | error refusal' =>
      rw [hstep] at h
      cases h
      exact ⟨[], reader, rfl, rfl, hstep⟩

theorem refusalAfter_fits (functions : List Expr) (c : Char) :
    (refusalAfter functions c).Fits (some c) := by
  rw [refusalAfter]
  split
  · rfl
  · trivial

/-- What is refused after a complete expression is the next character. -/
theorem fits_of_operator {e : Expr} {spaced : Bool} {refusal : Refusal}
    (h : operator functions e spaced c = .error refusal) : refusal.Fits (some c) := by
  unfold operator at h
  split at h
  · cases h
  · split at h
    · cases h
    · split at h
      · cases h
        exact refusalAfter_fits _ _
      · cases h
    · split at h
      · cases h
        exact refusalAfter_fits _ _
      · cases h
    · cases h
      exact refusalAfter_fits _ _

theorem fits_of_step {refusal : Refusal} (h : reader.step c = .error refusal) :
    refusal.Fits (some c) := by
  rw [step] at h
  split at h
  · split at h
    · cases h
    · cases h
      exact refusalAfter_fits _ _
  · split at h
    · split at h
      · cases h
      · split at h
        · cases h
        · cases h
          rfl
    · cases h
      trivial
    all_goals exact fits_of_operator h

theorem fits_of_finish {refusal : Refusal} (h : reader.finish = .error refusal) :
    refusal.Fits none := by
  rw [finish] at h
  split at h
  · cases h
  · cases h
    trivial
  · cases h
    trivial
  · cases h
    rfl

/-- A refusal tells the truth about the next character. -/
theorem Refuses.fits {refusal : Refusal} {next : Option Char} (h : reader.Refuses refusal next) :
    refusal.Fits next := by
  cases next with
  | some c => exact fits_of_step h
  | none => exact fits_of_finish h

end Reader

/-! ## The starts of expressions -/

/-- Where the automaton reads a text, the text is not blank. -/
theorem parse_eq_ok_iff_run {source : String} {e : Expr} :
    parse source = .ok e ↔ Reader.initial.run source.toList = .ok e := by
  constructor
  · intro h
    obtain ⟨derivation, htext, rfl⟩ := parse_eq_ok_iff.mp h
    rw [← htext, derivation.run_text]
  · intro h
    exact parse_eq_ok_iff.mpr (exists_derivation_of_run h)

/-- The starts of expressions are the texts of which no character is refused. -/
theorem viable_iff_readAll {cs : List Char} :
    Viable cs ↔ ∃ reader, Reader.initial.readAll cs = .ok reader := by
  constructor
  · rintro ⟨rest, e, hparse⟩
    rw [parse_eq_ok_iff_run, String.toList_ofList] at hparse
    obtain ⟨reader, hread, _⟩ := Reader.run_eq_ok_iff.mp hparse
    exact Reader.exists_readAll_of_append hread
  · rintro ⟨reader, hread⟩
    obtain ⟨rest, e, hrest⟩ := reader.exists_run
    obtain ⟨reader', hread', hfinish⟩ := Reader.run_eq_ok_iff.mp hrest
    refine ⟨rest, e, ?_⟩
    rw [parse_eq_ok_iff_run, String.toList_ofList, Reader.run_eq_ok_iff]
    exact ⟨reader', by rw [Reader.readAll_append hread, hread'], hfinish⟩

/-- No expression goes on with a character that is refused. -/
theorem not_viable_of_refuses {read : List Char} {reader : Reader} {refusal : Refusal} {c : Char}
    (hread : Reader.initial.readAll read = .ok reader) (hrefuses : reader.Refuses refusal (some c)) :
    ¬ Viable (read ++ [c]) := by
  rw [viable_iff_readAll, Reader.readAll_concat hread]
  rintro ⟨reader', hstep⟩
  cases hstep.symm.trans hrefuses

namespace Parser

variable {parser after : Parser} {source : String} {error : ParseError}

/-- A parser that refuses a text keeps the text, and its place is where the automaton has stopped. -/
theorem exists_refuses_of_parse (hsource : ∃ c ∈ source.toList, Text.isBlank c = false)
    (h : parser.parse source = (.error error, after)) :
    ∃ read reader refusal, after.source = source ∧ source.toList = read ++ after.rest ∧
      Reader.initial.readAll read = .ok reader ∧ reader.Refuses refusal after.rest.head? ∧
      error = .malformed refusal (Text.trimmed source) := by
  obtain ⟨c, hc, hblank⟩ := hsource
  rw [parse, if_neg] at h
  · rw [readRest] at h
    split at h
    · cases h
    · rename_i refusal rest hrun
      cases h
      obtain ⟨read, reader, htext, hread, hrefuses⟩ := Reader.exists_refuses_of_run hrun
      exact ⟨read, reader, refusal, rfl, htext, hread, hrefuses, rfl⟩
  · rw [List.all_eq_true]
    intro hall
    cases (hall c hc).symm.trans hblank

/-- A parser that refuses a text that is not blank has stopped at the first place where it could. What it
has read is the start of an expression; and it has either read all of the text, or no expression goes on
with the next character. A character that is reported as unexpected is the next one, and the end of the
text is reported only where all of the text is the start of an expression. -/
theorem refused_at_first_impossible (hsource : ∃ c ∈ source.toList, Text.isBlank c = false)
    (h : parser.parse source = (.error error, after)) :
    let read := source.toList.take after.position
    source.toList = read ++ after.rest ∧ Viable read ∧
      (after.position = source.toList.length ∨
        after.position < source.toList.length ∧
          ¬ Viable (source.toList.take (after.position + 1))) ∧
      ∃ refusal, error = .malformed refusal (Text.trimmed source) ∧
        (∀ c, refusal = .unexpectedCharacter c →
          source.toList[after.position]? = some c ∧ ¬ Viable (read ++ [c])) ∧
        (refusal = .unexpectedEnd →
          after.position = source.toList.length ∧ Viable source.toList) := by
  obtain ⟨read, reader, refusal, hkept, htext, hread, hrefuses, herror⟩ :=
    exists_refuses_of_parse hsource h
  have hposition : after.position = read.length := by
    rw [position, hkept, htext, List.length_append, Nat.add_sub_cancel]
  have hviable : Viable read := viable_iff_readAll.mpr ⟨reader, hread⟩
  have hfits := hrefuses.fits
  rw [hposition, htext, List.take_left]
  refine ⟨rfl, hviable, ?_, refusal, herror, ?_, ?_⟩
  · cases hrest : after.rest with
    | nil => simp
    | cons c rest =>
      rw [hrest] at hrefuses
      have htake : (read ++ c :: rest).take (read.length + 1) = read ++ [c] := by
        simp [List.take_append, List.take_of_length_le]
      exact .inr ⟨by simp, htake ▸ not_viable_of_refuses hread hrefuses⟩
  · rintro c rfl
    obtain ⟨rest, hrest⟩ := List.head?_eq_some_iff.mp hfits
    rw [hfits] at hrefuses
    exact ⟨by simp [hrest], not_viable_of_refuses hread hrefuses⟩
  · rintro rfl
    have hend : after.rest = [] := List.head?_eq_none_iff.mp hfits
    rw [hend, List.append_nil]
    exact ⟨rfl, hviable⟩

/-- A second word where only the parenthesis could be closed. -/
theorem refused_at_first_impossible_unclosed :
    (∃ c ∈ "f(a b)".toList, Text.isBlank c = false) ∧
      Viable "f(a ".toList ∧ ¬ Viable "f(a b".toList := by
  have hparse : (Parser.mk "" []).parse "f(a b)" =
      (.error (.malformed .missingParenthesis "f(a b)"), ⟨"f(a b)", ['b', ')']⟩) := rfl
  have hblank : ∃ c ∈ "f(a b)".toList, Text.isBlank c = false := ⟨'f', by decide, by decide⟩
  have h := refused_at_first_impossible hblank hparse
  exact ⟨hblank, h.2.1, (h.2.2.1.resolve_left (by decide)).2⟩

end Parser

end Logicless.Expr
