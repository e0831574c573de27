import Logicless.Error.Diagnostic
import Mathlib.Data.List.Basic

/-!
# Colours of a diagnostic

Colours put escape sequences around texts that may hold any characters, the start of an escape sequence
among them. Without its escape sequences, a diagnostic is nevertheless the same with and without colours:
no sequence goes on behind a character that is not printable, and both the escape character that starts
what colours insert and the line break behind a text are such characters.

## Shape of the proof

* `stripChars_append_of_breaks` cuts a text in front of a character that no sequence goes on with.
* `stripChars_append_of_plain` passes over a text without escape characters.
* `stripEscapes_paint` and `stripEscapes_paint_append` take a styled text apart with them.
* `stripEscapes_intercalate` takes the lines of a diagnostic apart, of which `Diagnostic.strip_header`,
  `strip_place` and `strip_explanation` compare each.
* `Diagnostic.colours_unobservable` is the result.
-/

namespace Logicless

namespace Text

variable {c : Char} {cs rest : List Char}

/-! ## Where no sequence goes on -/

/-- A character that stands in no escape sequence but at its start. -/
def Breaks (c : Char) : Prop :=
  ¬ (' ' ≤ c ∧ c ≤ '~')

instance : DecidablePred Breaks :=
  fun _ => inferInstanceAs (Decidable (¬ _))

/-- A character that breaks is in none of the ranges of which sequences are made. -/
theorem Breaks.within_eq_false {low high : Char} (hc : Breaks c) (hlow : ' ' ≤ low) (hhigh : high ≤ '~') :
    within low high c = false := by
  by_contra hwithin
  simp only [within, Bool.and_eq_false_imp, decide_eq_true_eq, decide_eq_false_iff_not, not_forall,
    not_not] at hwithin
  obtain ⟨hl, hh⟩ := hwithin
  exact hc ⟨Char.le_trans hlow hl, Char.le_trans hh hhigh⟩

theorem Breaks.ne_bracket (hc : Breaks c) : c ≠ '[' := by
  rintro rfl
  exact hc (by decide)

theorem Breaks.isEscapeFinal_eq_false (hc : Breaks c) : isEscapeFinal c = false := by
  rw [isEscapeFinal, hc.within_eq_false (by decide) (by decide), Bool.false_and]

/-- What a sequence takes of one kind of characters ends in front of a character of no such kind. -/
theorem dropWhile_append_cons {p : Char → Bool} (hc : p c = false) :
    (cs ++ c :: rest).dropWhile p = cs.dropWhile p ++ c :: rest := by
  rw [List.dropWhile_append]
  split
  · rename_i hempty
    rw [List.isEmpty_iff.mp hempty, List.dropWhile_cons_of_neg (by simp [hc]), List.nil_append]
  · rfl

theorem controlRest?_append (hc : Breaks c) :
    controlRest? (cs ++ c :: rest) = (controlRest? cs).map (· ++ c :: rest) := by
  have hfinal : within '@' '~' c = false := hc.within_eq_false (by decide) (by decide)
  rw [controlRest?, dropWhile_append_cons (hc.within_eq_false (by decide) (by decide)),
    dropWhile_append_cons (hc.within_eq_false (by decide) (by decide)), controlRest?]
  cases (cs.dropWhile (within '0' '?')).dropWhile (within ' ' '/') with
  | nil => simp [hfinal]
  | cons final behind =>
    simp only [List.cons_append]
    split <;> rfl

theorem escapeRest?_append (hc : Breaks c) :
    escapeRest? (cs ++ c :: rest) = (escapeRest? cs).map (· ++ c :: rest) := by
  cases cs with
  | nil => simp [escapeRest?, hc.ne_bracket, hc.isEscapeFinal_eq_false]
  | cons first cs =>
    simp only [List.cons_append, escapeRest?]
    split
    · exact controlRest?_append hc
    · split <;> rfl

/-! ## One pass over a text that is put together -/

theorem stripChars_escape_of_some (h : escapeRest? cs = some rest) :
    stripEscapesChars (escape :: cs) = stripEscapesChars rest := by
  rw [stripEscapesChars, if_pos rfl]
  split
  · rename_i rest' h'
    cases h.symm.trans h'
    rfl
  · rename_i h'
    cases h.symm.trans h'

theorem stripChars_escape_of_none (h : escapeRest? cs = none) :
    stripEscapesChars (escape :: cs) = escape :: stripEscapesChars cs := by
  rw [stripEscapesChars, if_pos rfl]
  split
  · rename_i rest' h'
    cases h.symm.trans h'
  · rfl

theorem stripChars_of_ne (hc : c ≠ escape) :
    stripEscapesChars (c :: cs) = c :: stripEscapesChars cs := by
  rw [stripEscapesChars, if_neg hc]

/-- A text can be cut in front of a character that no sequence goes on with: not even an unfinished
sequence at the end of the first part takes anything of the second. -/
theorem stripChars_append_of_breaks (hc : Breaks c) (cs rest : List Char) :
    stripEscapesChars (cs ++ c :: rest) = stripEscapesChars cs ++ stripEscapesChars (c :: rest) := by
  -- by the cases of the pass itself, which takes a whole sequence at once
  induction cs using stripEscapesChars.induct with
  | case1 => simp [stripEscapesChars]
  | case2 cs behind hsequence ih =>
    rw [stripChars_escape_of_some hsequence, ← ih, List.cons_append]
    exact stripChars_escape_of_some (by rw [escapeRest?_append hc, hsequence, Option.map_some])
  | case3 cs hsequence ih =>
    rw [stripChars_escape_of_none hsequence, List.cons_append, List.cons_append, ← ih]
    exact stripChars_escape_of_none (by rw [escapeRest?_append hc, hsequence, Option.map_none])
  | case4 first cs hfirst ih =>
    rw [stripChars_of_ne hfirst, List.cons_append, List.cons_append, ← ih, stripChars_of_ne hfirst]

/-- A text without escape characters stays, whatever stands behind it. -/
theorem stripChars_append_of_plain (hcs : escape ∉ cs) (rest : List Char) :
    stripEscapesChars (cs ++ rest) = cs ++ stripEscapesChars rest := by
  induction cs with
  | nil => rfl
  | cons c cs ih =>
    rw [List.mem_cons, not_or] at hcs
    rw [List.cons_append, stripChars_of_ne (Ne.symm hcs.1), ih hcs.2, List.cons_append]

/-- A text without escape characters can be put in front. -/
theorem stripEscapes_append_of_plain {plain : String} (hplain : escape ∉ plain.toList) (text : String) :
    stripEscapes (plain ++ text) = plain ++ stripEscapes text := by
  rw [stripEscapes, String.toList_append, stripChars_append_of_plain hplain, String.ofList_append,
    String.ofList_toList, stripEscapes]

/-! ## Styled texts -/

/-- A complete sequence of parameter characters goes away, whatever stands behind it. -/
theorem stripChars_selectRendition {parameter : String}
    (hparameter : parameter.toList.all (within '0' '?') = true) (rest : List Char) :
    stripEscapesChars ((selectRendition parameter).toList ++ rest) = stripEscapesChars rest := by
  have htext : (selectRendition parameter).toList ++ rest =
      escape :: '[' :: (parameter.toList ++ 'm' :: rest) := by
    simp [selectRendition]
  rw [htext]
  refine stripChars_escape_of_some ?_
  have hfinal : List.dropWhile (within ' ' '/') ('m' :: rest) = 'm' :: rest :=
    List.dropWhile_cons_of_neg (by decide)
  have hkind : within '@' '~' 'm' = true := by decide
  rw [escapeRest?, if_pos rfl, controlRest?, List.dropWhile_append_of_pos (List.all_eq_true.mp hparameter),
    List.dropWhile_cons_of_neg (by decide), hfinal]
  simp only [hkind, if_true]

theorem stripChars_sequence (style : Style) (rest : List Char) :
    stripEscapesChars (style.sequence.toList ++ rest) = stripEscapesChars rest := by
  cases style <;> exact stripChars_selectRendition (by decide) rest

theorem stripChars_sequences (styles : List Style) (rest : List Char) :
    stripEscapesChars ((String.join (styles.map Style.sequence)).toList ++ rest) =
      stripEscapesChars rest := by
  induction styles with
  | nil => rfl
  | cons style styles ih =>
    rw [List.map_cons, String.join_cons, String.toList_append, List.append_assoc, stripChars_sequence, ih]

theorem stripChars_reset (rest : List Char) :
    stripEscapesChars (resetSequence.toList ++ rest) = stripEscapesChars rest :=
  stripChars_selectRendition (by decide) rest

/-- The reset starts with an escape character, in front of which any text can be cut. -/
theorem stripChars_append_reset (cs rest : List Char) :
    stripEscapesChars (cs ++ (resetSequence.toList ++ rest)) =
      stripEscapesChars cs ++ stripEscapesChars rest := by
  rw [← stripChars_reset rest]
  exact stripChars_append_of_breaks (by decide) cs _

/-- The escape sequences of a styled text are those of the text. -/
theorem stripEscapes_paint (colours : Bool) (styles : List Style) (text : String) :
    stripEscapes (paint colours styles text) = stripEscapes text := by
  rw [paint]
  split
  · rw [stripEscapes, String.toList_append, String.toList_append, List.append_assoc,
      stripChars_sequences, ← List.append_nil resetSequence.toList, stripChars_append_reset]
    simp [stripEscapesChars, stripEscapes]
  · rfl

/-- Of a styled text without escape characters the text stays, whatever stands behind it. -/
theorem stripEscapes_paint_append {plain : String} (hplain : escape ∉ plain.toList) (colours : Bool)
    (styles : List Style) (text : String) :
    stripEscapes (paint colours styles plain ++ text) = plain ++ stripEscapes text := by
  rw [← stripEscapes_append_of_plain hplain, paint]
  split
  · simp only [stripEscapes, String.toList_append, List.append_assoc]
    rw [stripChars_sequences, stripChars_append_of_plain hplain, stripChars_reset,
      stripChars_append_of_plain hplain]
  · rfl

/-- No sequence goes on behind the end of a line. -/
theorem stripEscapes_line_append (line rest : String) :
    stripEscapes (line ++ "\n" ++ rest) = stripEscapes line ++ "\n" ++ stripEscapes rest := by
  have hnewline : "\n".toList ++ rest.toList = '\n' :: rest.toList := rfl
  rw [stripEscapes, String.toList_append, String.toList_append, List.append_assoc, hnewline,
    stripChars_append_of_breaks (by decide), stripChars_of_ne (by decide)]
  simp [stripEscapes, String.append_assoc]

theorem stripEscapes_intercalate (lines : List String) :
    stripEscapes ("\n".intercalate lines) = "\n".intercalate (lines.map stripEscapes) := by
  induction lines with
  | nil => simp [stripEscapes, stripEscapesChars]
  | cons line lines ih =>
    cases lines with
    | nil => simp
    | cons next lines =>
      rw [String.intercalate_cons_cons, stripEscapes_line_append, ih, List.map_cons, List.map_cons,
        List.map_cons, String.intercalate_cons_cons]

end Text

namespace Diagnostic

open Text

variable (colours : Bool)

/-- Codes are written without escape characters. -/
theorem plain_text (code : ErrorCode) : escape ∉ code.text.toList := by
  cases code <;> decide

theorem strip_header {code : Option String} (hcode : ∀ text ∈ code, escape ∉ text.toList)
    (message : String) :
    stripEscapes (header colours code message) = stripEscapes (header false code message) := by
  cases code with
  | none => rfl
  | some text =>
    rw [header, header]
    split
    · rfl
    · simp only [Role.paint, String.append_assoc]
      rw [stripEscapes_paint_append (hcode text rfl), stripEscapes_paint_append (hcode text rfl)]

theorem strip_place (location : String) :
    stripEscapes (place colours location) = stripEscapes (place false location) := by
  have hplain : escape ∉ "  --> ".toList := by decide
  simp only [place, Role.paint, stripEscapes_append_of_plain hplain, stripEscapes_paint]

theorem strip_explanation (url : String) :
    stripEscapes (explanation colours url) = stripEscapes (explanation false url) := by
  have hindent : escape ∉ "  ".toList := by decide
  have hlabel : escape ∉ "Docs:".toList := by decide
  have hgap : escape ∉ " ".toList := by decide
  simp only [explanation, Role.paint, String.append_assoc, stripEscapes_append_of_plain hindent,
    stripEscapes_paint_append hlabel, stripEscapes_append_of_plain hgap, stripEscapes_paint]

/-- Line by line, the text of a diagnostic does not depend on colours. -/
theorem strip_lines (fault : Fault) :
    (lines colours fault).map stripEscapes = (lines false fault).map stripEscapes := by
  have hcode : ∀ text ∈ fault.code?.map ErrorCode.text, escape ∉ text.toList := by
    intro text htext
    obtain ⟨code, _, rfl⟩ := Option.map_eq_some_iff.mp htext
    exact plain_text code
  have hsummary : (summary colours fault).map stripEscapes = (summary false fault).map stripEscapes := by
    cases fault with
    | located fault =>
      simp only [summary, List.map_cons, List.map_nil]
      rw [strip_header colours hcode, strip_place]
    | _ =>
      simp only [summary, List.map_cons, List.map_nil]
      rw [strip_header colours hcode]
  rw [lines, List.map_append, hsummary, lines, List.map_append]
  cases fault.code? with
  | none => rfl
  | some code => simp [strip_explanation colours]

/-- Colours never change a diagnostic: without its escape sequences it is the same with and without
them, whatever characters its texts hold. And a styled text has the text that it had. -/
theorem colours_unobservable :
    (∀ (colours colours' : Bool) (fault : Fault),
      stripEscapes (compact colours fault) = stripEscapes (compact colours' fault)) ∧
    ∀ (colours : Bool) (names : List String) (text : String),
      stripEscapes (paintNamed colours names text) = stripEscapes text := by
  constructor
  · intro colours colours' fault
    rw [compact, compact, stripEscapes_intercalate, stripEscapes_intercalate, strip_lines colours,
      strip_lines colours']
  · intro colours names text
    rw [paintNamed, stripEscapes_paint]

end Diagnostic

end Logicless
