import Logicless.Proofs.Text.Stripping
import Mathlib.Data.List.TakeWhile

/-!
# What one pass leaves

Escape sequences are removed in one pass from left to right, and the pass does not look back. So where a
sequence is removed, the characters on both sides of it come to stand together, and they can be an escape
sequence now: in front of the removed one there was the start of another, and behind it there is the
rest. In no other way does a sequence get into a text without its escape sequences.

## Shape of the proof

* `IsSequence` is what an escape sequence is made of, and `escapeRest?_eq_some_iff` says that these are the
  ones that are recognized.
* `pass_induction` goes through a text as the pass does: a sequence is removed at once, any other character
  stays (`Keeps`).
* `stripChars_eq_self_iff` is about texts in which there is nothing to remove.
* `HasJoint` says where removing a sequence joins two parts of another one. `hasSequence_stripChars_iff` looks
  for the first character of a sequence that is left, and for the first sequence that is removed behind it.
* `sequences_left_at_joints` is the result.
-/

namespace Logicless

namespace Text

variable {c : Char} {cs rest sequence : List Char}

/-! ## Escape sequences -/

/-- An escape sequence: two characters, or a control sequence with its parameter characters, its
intermediate characters and its final character. -/
inductive IsSequence : List Char → Prop
  | pair {final : Char} (hfinal : isEscapeFinal final = true) : IsSequence [escape, final]
  | control {parameters intermediates : List Char} {final : Char}
      (hparameters : ∀ c ∈ parameters, within '0' '?' c = true)
      (hintermediates : ∀ c ∈ intermediates, within ' ' '/' c = true)
      (hfinal : within '@' '~' final = true) :
      IsSequence (escape :: '[' :: (parameters ++ (intermediates ++ [final])))

/-- There is an escape sequence somewhere in a text. -/
def HasSequence (cs : List Char) : Prop :=
  ∃ sequence, IsSequence sequence ∧ sequence <:+: cs

theorem IsSequence.exists_eq_cons (h : IsSequence sequence) : ∃ tail, sequence = escape :: tail := by
  cases h with
  | pair | control => exact ⟨_, rfl⟩

theorem not_hasSequence_nil : ¬ HasSequence [] := by
  rintro ⟨sequence, hsequence, hinfix⟩
  obtain ⟨tail, rfl⟩ := hsequence.exists_eq_cons
  cases List.infix_nil.mp hinfix

/-- A character in one range is in no other that lies apart from it. -/
theorem within_eq_false_of_within {low high low' high' : Char} (h : within low high c = true)
    (hapart : high < low' ∨ high' < low) : within low' high' c = false := by
  simp only [within, Bool.and_eq_true, decide_eq_true_eq] at h
  rw [within, Bool.and_eq_false_iff, decide_eq_false_iff_not, decide_eq_false_iff_not]
  rcases hapart with hapart | hapart
  · exact .inl fun hlow => Char.not_le.mpr hapart (Char.le_trans hlow h.2)
  · exact .inr fun hhigh => Char.not_le.mpr hapart (Char.le_trans h.1 hhigh)

/-- Which characters of a control sequence are parameters, which are intermediate and which one is final
can be told from the characters. -/
theorem controlRest?_eq_some_iff :
    controlRest? cs = some rest ↔
      ∃ parameters intermediates final, (∀ c ∈ parameters, within '0' '?' c = true) ∧
        (∀ c ∈ intermediates, within ' ' '/' c = true) ∧ within '@' '~' final = true ∧
        cs = parameters ++ (intermediates ++ final :: rest) := by
  constructor
  · intro h
    have hparameters := List.takeWhile_append_dropWhile (p := within '0' '?') (l := cs)
    have hintermediates := List.takeWhile_append_dropWhile (p := within ' ' '/')
      (l := cs.dropWhile (within '0' '?'))
    rw [controlRest?] at h
    split at h
    · rename_i final behind hbehind
      split at h
      · rename_i hfinal
        obtain rfl := Option.some.inj h
        refine ⟨cs.takeWhile (within '0' '?'),
          (cs.dropWhile (within '0' '?')).takeWhile (within ' ' '/'), final,
          fun c hc => List.mem_takeWhile_imp hc, fun c hc => List.mem_takeWhile_imp hc, hfinal, ?_⟩
        rw [← hbehind, hintermediates, hparameters]
      · cases h
    · cases h
  · rintro ⟨parameters, intermediates, final, hparameters, hintermediates, hfinal, rfl⟩
    have hstop : (intermediates ++ final :: rest).dropWhile (within '0' '?') =
        intermediates ++ final :: rest := by
      cases intermediates with
      | nil =>
        refine List.dropWhile_cons_of_neg ?_
        simp [within_eq_false_of_within hfinal (.inr (by decide : '?' < '@'))]
      | cons first intermediates =>
        refine List.dropWhile_cons_of_neg ?_
        simp [within_eq_false_of_within (hintermediates first List.mem_cons_self)
          (.inl (by decide : '/' < '0'))]
    have hend : (final :: rest).dropWhile (within ' ' '/') = final :: rest := by
      refine List.dropWhile_cons_of_neg ?_
      simp [within_eq_false_of_within hfinal (.inr (by decide : '/' < '@'))]
    rw [controlRest?, List.dropWhile_append_of_pos hparameters, hstop,
      List.dropWhile_append_of_pos hintermediates, hend]
    simp only [hfinal, if_true]

/-- Behind an escape character, exactly the escape sequences are recognized. -/
theorem escapeRest?_eq_some_iff :
    escapeRest? cs = some rest ↔ ∃ tail, IsSequence (escape :: tail) ∧ cs = tail ++ rest := by
  constructor
  · intro h
    cases cs with
    | nil => cases h
    | cons first cs =>
      rw [escapeRest?] at h
      split at h
      · rename_i hbracket
        obtain ⟨parameters, intermediates, final, hparameters, hintermediates, hfinal, rfl⟩ :=
          controlRest?_eq_some_iff.mp h
        exact ⟨_, .control hparameters hintermediates hfinal, by simp [hbracket]⟩
      · split at h
        · rename_i hfinal
          obtain rfl := Option.some.inj h
          exact ⟨[first], .pair hfinal, rfl⟩
        · cases h
  · rintro ⟨tail, hsequence, rfl⟩
    cases hsequence with
    | @pair final hfinal =>
      have hbracket : final ≠ '[' := by
        rintro rfl
        cases hfinal
      rw [List.singleton_append, escapeRest?, if_neg hbracket, if_pos hfinal]
    | control hparameters hintermediates hfinal =>
      rw [List.cons_append, escapeRest?, if_pos rfl, controlRest?_eq_some_iff]
      exact ⟨_, _, _, hparameters, hintermediates, hfinal, by simp⟩

/-! ## The course of the pass -/

/-- A character in front of a text stays, since no escape sequence starts with it. -/
def Keeps (c : Char) (cs : List Char) : Prop :=
  c = escape → escapeRest? cs = none

theorem stripChars_sequence_append (h : IsSequence sequence) (rest : List Char) :
    stripEscapesChars (sequence ++ rest) = stripEscapesChars rest := by
  obtain ⟨tail, rfl⟩ := h.exists_eq_cons
  exact stripChars_escape_of_some (escapeRest?_eq_some_iff.mpr ⟨tail, h, rfl⟩)

namespace Keeps

theorem stripChars_cons (h : Keeps c cs) : stripEscapesChars (c :: cs) = c :: stripEscapesChars cs := by
  by_cases hc : c = escape
  · subst hc
    exact stripChars_escape_of_none (h rfl)
  · exact stripChars_of_ne hc

theorem not_prefix (h : Keeps c cs) (hsequence : IsSequence sequence) : ¬ sequence <+: c :: cs := by
  rintro ⟨rest, hrest⟩
  obtain ⟨tail, rfl⟩ := hsequence.exists_eq_cons
  obtain ⟨hc, hcs⟩ := List.cons.inj hrest
  have hrecognized := escapeRest?_eq_some_iff.mpr ⟨tail, hsequence, hcs.symm⟩
  cases (h hc.symm).symm.trans hrecognized

/-- A character that stays in front of a text stays in front of less of it. -/
theorem of_append (h : Keeps c (cs ++ rest)) : Keeps c cs := by
  intro hc
  by_contra hsome
  obtain ⟨behind, hbehind⟩ := Option.ne_none_iff_exists'.mp hsome
  obtain ⟨tail, hsequence, rfl⟩ := escapeRest?_eq_some_iff.mp hbehind
  refine h.not_prefix hsequence ⟨behind ++ rest, ?_⟩
  simp [hc]

end Keeps

/-- What is true of the empty text, and of a text with an escape sequence or with a character that stays in
front, is true of every text. -/
@[elab_as_elim]
theorem pass_induction {P : List Char → Prop} (nil : P [])
    (removed : ∀ {sequence rest}, IsSequence sequence → P rest → P (sequence ++ rest))
    (kept : ∀ {c cs}, Keeps c cs → P cs → P (c :: cs)) (cs : List Char) : P cs := by
  induction cs using stripEscapesChars.induct with
  | case1 => exact nil
  | case2 cs rest hrest ih =>
    obtain ⟨tail, hsequence, rfl⟩ := escapeRest?_eq_some_iff.mp hrest
    exact removed hsequence ih
  | case3 cs hnone ih => exact kept (fun _ => hnone) ih
  | case4 c cs hc ih => exact kept (fun heq => absurd heq hc) ih

theorem length_stripChars_le (cs : List Char) : (stripEscapesChars cs).length ≤ cs.length := by
  induction cs using pass_induction with
  | nil => simp [stripEscapesChars]
  | removed hsequence ih =>
    rw [stripChars_sequence_append hsequence, List.length_append]
    omega
  | kept hkeeps ih =>
    rw [hkeeps.stripChars_cons, List.length_cons, List.length_cons]
    omega

theorem Keeps.hasSequence_cons_iff (h : Keeps c cs) : HasSequence (c :: cs) ↔ HasSequence cs := by
  constructor
  · rintro ⟨sequence, hsequence, hinfix⟩
    rcases List.infix_cons_iff.mp hinfix with hstart | hinfix
    · exact absurd hstart (h.not_prefix hsequence)
    · exact ⟨sequence, hsequence, hinfix⟩
  · rintro ⟨sequence, hsequence, hinfix⟩
    exact ⟨sequence, hsequence, List.infix_cons_iff.mpr (.inr hinfix)⟩

/-- The pass changes a text exactly if there is a sequence in it. -/
theorem stripChars_eq_self_iff (cs : List Char) : stripEscapesChars cs = cs ↔ ¬ HasSequence cs := by
  induction cs using pass_induction with
  | nil => simp [stripEscapesChars, not_hasSequence_nil]
  | @removed sequence rest hsequence ih =>
    have hchanged : stripEscapesChars (sequence ++ rest) ≠ sequence ++ rest := by
      intro hsame
      obtain ⟨tail, rfl⟩ := hsequence.exists_eq_cons
      have hlength := congrArg List.length hsame
      rw [stripChars_sequence_append hsequence, List.length_append, List.length_cons] at hlength
      have hshorter := length_stripChars_le rest
      omega
    refine iff_of_false hchanged (not_not_intro ⟨sequence, hsequence, ?_⟩)
    exact (List.prefix_append sequence rest).isInfix
  | kept hkeeps ih => simp [hkeeps.stripChars_cons, hkeeps.hasSequence_cons_iff, ih]

/-! ## Joints -/

/-- Somewhere in a text there is the first part of an escape sequence, directly in front of a sequence that
is removed, and what stays of the text behind that starts with the other part. -/
def HasJoint (cs : List Char) : Prop :=
  ∃ before unfinished removed behind finish,
    cs = before ++ (unfinished ++ (removed ++ behind)) ∧ IsSequence removed ∧
      stripEscapesChars cs = stripEscapesChars before ++ (unfinished ++ stripEscapesChars behind) ∧
      unfinished ≠ [] ∧ finish ≠ [] ∧ finish <+: stripEscapesChars behind ∧
      IsSequence (unfinished ++ finish)

namespace HasJoint

theorem hasSequence (h : HasJoint cs) : HasSequence (stripEscapesChars cs) := by
  obtain ⟨before, unfinished, _, _, finish, _, _, hstrip, _, _, ⟨rest, hrest⟩, hsequence⟩ := h
  refine ⟨unfinished ++ finish, hsequence, stripEscapesChars before, rest, ?_⟩
  rw [hstrip, ← hrest]
  simp

theorem sequence_append (h : HasJoint cs) (hsequence : IsSequence sequence) : HasJoint (sequence ++ cs) := by
  obtain ⟨before, unfinished, removed, behind, finish, rfl, hremoved, hstrip, hjoined⟩ := h
  refine ⟨sequence ++ before, unfinished, removed, behind, finish, by simp, hremoved, ?_, hjoined⟩
  rw [stripChars_sequence_append hsequence, stripChars_sequence_append hsequence, hstrip]

theorem cons (h : HasJoint cs) (hkeeps : Keeps c cs) : HasJoint (c :: cs) := by
  obtain ⟨before, unfinished, removed, behind, finish, rfl, hremoved, hstrip, hjoined⟩ := h
  refine ⟨c :: before, unfinished, removed, behind, finish, rfl, hremoved, ?_, hjoined⟩
  rw [hkeeps.stripChars_cons, hkeeps.of_append.stripChars_cons, hstrip, List.cons_append]

end HasJoint

/-- Unless nothing is removed from a text, some of it stays in front of a sequence that is removed. -/
theorem exists_first_removed (cs : List Char) :
    stripEscapesChars cs = cs ∨
      ∃ front removed behind, cs = front ++ (removed ++ behind) ∧ IsSequence removed ∧
        stripEscapesChars cs = front ++ stripEscapesChars behind := by
  induction cs using pass_induction with
  | nil => exact .inl (by rw [stripEscapesChars])
  | removed hsequence ih => exact .inr ⟨[], _, _, rfl, hsequence, stripChars_sequence_append hsequence _⟩
  | kept hkeeps ih =>
    rw [hkeeps.stripChars_cons]
    rcases ih with hsame | ⟨front, removed, behind, rfl, hremoved, hstrip⟩
    · exact .inl (by rw [hsame])
    · exact .inr ⟨_ :: front, removed, behind, rfl, hremoved, by rw [hstrip, List.cons_append]⟩

/-- A sequence at the start of what is left of a text was not there before: a part of it was behind the
first sequence that is removed. -/
theorem Keeps.hasJoint_of_prefix (hkeeps : Keeps c cs) (hsequence : IsSequence sequence)
    (hstart : sequence <+: c :: stripEscapesChars cs) : HasJoint (c :: cs) := by
  obtain ⟨rest, hrest⟩ := hstart
  obtain ⟨tail, rfl⟩ := hsequence.exists_eq_cons
  obtain ⟨rfl, htail⟩ := List.cons.inj hrest
  -- the whole sequence cannot have been in front of all that is removed
  have hfresh : ∀ more, cs ≠ tail ++ more := by
    rintro more rfl
    exact hkeeps.not_prefix hsequence ⟨more, rfl⟩
  rcases exists_first_removed cs with hsame | ⟨front, removed, behind, hcs, hremoved, hstrip⟩
  · exact absurd (hsame.symm.trans htail.symm) (hfresh rest)
  · rcases List.append_eq_append_iff.mp (hstrip.symm.trans htail.symm) with
      ⟨finish, rfl, hfinish⟩ | ⟨more, rfl, _⟩
    · have hne : finish ≠ [] := by
        rintro rfl
        exact hfresh (removed ++ behind) (by rw [hcs, List.append_nil])
      refine ⟨[], escape :: front, removed, behind, finish, by rw [hcs]; rfl, hremoved, ?_,
        List.cons_ne_nil _ _, hne, ⟨rest, hfinish.symm⟩, hsequence⟩
      rw [hkeeps.stripChars_cons, hstrip, stripEscapesChars]
      rfl
    · exact absurd (by rw [hcs, List.append_assoc]) (hfresh (more ++ (removed ++ behind)))

/-- Sequences are left exactly where they are joined. -/
theorem hasSequence_stripChars_iff (cs : List Char) :
    HasSequence (stripEscapesChars cs) ↔ HasJoint cs := by
  refine ⟨fun h => ?_, HasJoint.hasSequence⟩
  induction cs using pass_induction with
  | nil =>
    rw [stripEscapesChars] at h
    exact absurd h not_hasSequence_nil
  | removed hsequence ih =>
    rw [stripChars_sequence_append hsequence] at h
    exact (ih h).sequence_append hsequence
  | kept hkeeps ih =>
    rw [hkeeps.stripChars_cons] at h
    obtain ⟨sequence, hsequence, hinfix⟩ := h
    rcases List.infix_cons_iff.mp hinfix with hstart | hinfix
    · exact hkeeps.hasJoint_of_prefix hsequence hstart
    · exact (ih ⟨sequence, hsequence, hinfix⟩).cons hkeeps

theorem stripEscapes_eq_self_iff (text : String) :
    stripEscapes text = text ↔ ¬ HasSequence text.toList := by
  rw [← stripChars_eq_self_iff, stripEscapes, ← String.toList_inj, String.toList_ofList]

/-- A text has no escape sequence in it exactly if stripping changes nothing. After one pass there may
still be sequences, and exactly where the pass has joined them: the first part of an escape sequence stood
directly in front of one that was removed, and what stayed behind that finishes it. So it is for these texts
alone that a second pass changes anything. -/
theorem sequences_left_at_joints (text : String) :
    (stripEscapes text = text ↔ ¬ HasSequence text.toList) ∧
      (HasSequence (stripEscapes text).toList ↔ HasJoint text.toList) ∧
      (stripEscapes (stripEscapes text) = stripEscapes text ↔ ¬ HasJoint text.toList) := by
  have hleft : HasSequence (stripEscapes text).toList ↔ HasJoint text.toList := by
    rw [← hasSequence_stripChars_iff, stripEscapes, String.toList_ofList]
  refine ⟨stripEscapes_eq_self_iff text, hleft, ?_⟩
  rw [stripEscapes_eq_self_iff, hleft]

/-- A reset inside another one, behind its escape character. Only the inner one is removed, which leaves the
outer one. -/
theorem reset_inside_reset :
    let text := String.singleton escape ++ resetSequence ++ "[0m"
    HasSequence (stripEscapes text).toList ∧ stripEscapes (stripEscapes text) ≠ stripEscapes text := by
  intro text
  have hstrip : stripEscapes text = resetSequence := by decide +kernel
  have hsequence : IsSequence resetSequence.toList :=
    @IsSequence.control ['0'] [] 'm' (List.forall_mem_singleton.mpr rfl) (List.forall_mem_nil _) rfl
  have hreset : stripEscapes resetSequence ≠ resetSequence := by decide +kernel
  rw [hstrip]
  exact ⟨⟨_, hsequence, List.infix_refl _⟩, hreset⟩

end Text

end Logicless
