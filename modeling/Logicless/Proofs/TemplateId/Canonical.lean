import Logicless.TemplateId

/-!
# Template ids are canonical

A template can be named in many ways, with repeated slashes, dots and detours, from any place in the tree.
Its id is what remains of them: first the double dots that lead out of the directory of the outermost
template, then the names of the entries on the way down. A template is looked up under its id and its own
inclusions are resolved from there, so everything along a chain of inclusions relies on ids being spelled
in this one way.

## Shape of the proof

* `Direct` describes the paths that are left as they are. One step of the walk leads from such a path to
  such a path (`Direct.step`), so every walk ends in one (`Direct.walk`), and a walk along one ends in the
  path itself (`Direct.walk_eq`).
* Segments of a direct path are not empty and have no slashes. So its spelling determines it
  (`Direct.segments_joinSegments`), is not empty and does not start with a slash.
* `place` is where a name leads. It is at the root for an absolute name (`ofNameChars_absolute`). A relative
  name stays relative when it is appended to a directory that does not start with a slash
  (`ofNameChars_relative`). Ids do not start with a slash, so this holds along every chain of inclusions
  (`Issued.isRooted_eq`).
* `IsCanonical` are the spellings of direct paths, and both ways of using one as a name return it
  (`IsCanonical.ofName_eq`, `IsCanonical.ofName_slash_eq`). `ofName_canonical` collects this for ids.
-/

namespace Logicless

namespace TemplateId

variable {rooted : Bool} {path trail entries : List (List Char)} {segment : List Char}

/-! ## Paths and their segments -/

theorem segments_eq_splitOn (path : List Char) : segments path = path.splitOn '/' := by
  induction path with
  | nil => rfl
  | cons c cs ih =>
    obtain ⟨first, rest, hcs⟩ := List.exists_cons_of_ne_nil (List.splitOn_ne_nil '/' cs)
    rw [segments, ih, List.splitOn_cons_eq_if_modifyHead, hcs]
    simp

theorem joinSegments_eq_intercalate (path : List (List Char)) :
    joinSegments path = ['/'].intercalate path := by
  induction path with
  | nil => rfl
  | cons segment rest ih =>
    cases rest with
    | nil => rw [joinSegments, List.intercalate_singleton]
    | cons next rest =>
      rw [joinSegments, ih, List.intercalate_cons_cons, List.append_assoc, List.singleton_append]
      simp

theorem segments_append (front back : List Char) :
    segments (front ++ '/' :: back) = segments front ++ segments back := by
  simp only [segments_eq_splitOn, List.splitOn_append_cons_self]

theorem not_mem_of_mem_segments {path : List Char} (h : segment ∈ segments path) : '/' ∉ segment := by
  induction path generalizing segment with
  | nil =>
    obtain rfl := List.mem_singleton.mp h
    exact List.not_mem_nil
  | cons c cs ih =>
    rw [segments] at h
    split at h
    · rcases List.mem_cons.mp h with rfl | h
      · exact List.not_mem_nil
      · exact ih h
    · rename_i hc
      obtain ⟨first, rest, hcs⟩ : ∃ first rest, segments cs = first :: rest := by
        rw [segments_eq_splitOn]
        exact List.exists_cons_of_ne_nil (List.splitOn_ne_nil '/' cs)
      rw [hcs] at h ih
      rcases List.mem_cons.mp h with rfl | h
      · exact List.not_mem_cons_of_ne_of_not_mem (Ne.symm hc) (ih List.mem_cons_self)
      · exact ih (List.mem_cons_of_mem _ h)

/-! ## Places -/

/-- A segment that names an entry of a directory. -/
structure IsEntry (segment : List Char) : Prop where
  ne_nil : segment ≠ []
  ne_dot : segment ≠ ['.']
  ne_up : segment ≠ up
  no_slash : '/' ∉ segment

theorem isEntry_iff :
    IsEntry segment ↔ segment ≠ [] ∧ segment ≠ ['.'] ∧ segment ≠ up ∧ '/' ∉ segment :=
  ⟨fun ⟨hnil, hdot, hup, hslash⟩ => ⟨hnil, hdot, hup, hslash⟩,
    fun ⟨hnil, hdot, hup, hslash⟩ => ⟨hnil, hdot, hup, hslash⟩⟩

instance (segment : List Char) : Decidable (IsEntry segment) :=
  decidable_of_iff _ isEntry_iff.symm

/-- A path without detours: it goes up, but not if it is rooted, and then down alone. -/
def Direct (rooted : Bool) (path : List (List Char)) : Prop :=
  ∃ ups entries, path = List.replicate ups up ++ entries ∧ (rooted = true → ups = 0) ∧
    ∀ segment ∈ entries, IsEntry segment

theorem IsEntry.not_isStay (h : IsEntry segment) : isStay segment = false := by
  simp [isStay, h.ne_nil, h.ne_dot]

theorem isEntry_of_not (hstay : ¬ isStay segment = true) (hup : segment ≠ up)
    (hslash : '/' ∉ segment) : IsEntry segment := by
  simp only [isStay, Bool.or_eq_true, decide_eq_true_eq, not_or] at hstay
  exact ⟨hstay.1, hstay.2, hup, hslash⟩

theorem walkStep_stay (h : isStay segment = true) : walkStep rooted trail segment = trail :=
  if_pos h

theorem walkStep_entry (h : IsEntry segment) : walkStep rooted trail segment = segment :: trail := by
  simp [walkStep, h.not_isStay, h.ne_up]

/-- Going up from an entry leads to its directory. -/
theorem walkStep_up (h : IsEntry segment) : walkStep rooted (segment :: trail) up = trail := by
  simp [walkStep, isStay, up, show segment ≠ ['.', '.'] from h.ne_up]

/-- What a relative path cannot follow is kept. -/
theorem walkStep_up_ups (ups : Nat) :
    walkStep false (List.replicate ups up) up = List.replicate (ups + 1) up := by
  cases ups <;> rfl

theorem walk_append (rooted : Bool) (trail path path' : List (List Char)) :
    walk rooted trail (path ++ path') = walk rooted (walk rooted trail path) path' :=
  List.foldl_append

theorem walk_entries (h : ∀ segment ∈ entries, IsEntry segment) :
    walk rooted trail entries = entries.reverse ++ trail := by
  induction entries generalizing trail with
  | nil => rfl
  | cons segment entries ih =>
    obtain ⟨hsegment, hentries⟩ := List.forall_mem_cons.mp h
    rw [walk, List.foldl_cons, walkStep_entry hsegment, ← walk, ih hentries, List.reverse_cons,
      List.append_assoc, List.singleton_append]

theorem walk_ups (ups : Nat) : walk false [] (List.replicate ups up) = List.replicate ups up := by
  induction ups with
  | zero => rfl
  | succ ups ih =>
    rw [List.replicate_succ', walk_append, ih, ← List.replicate_succ']
    exact walkStep_up_ups ups

namespace Direct

/-- A direct path leads where it says. -/
theorem walk_eq (h : Direct rooted path) : walk rooted [] path = path.reverse := by
  obtain ⟨ups, entries, rfl, hrooted, hentries⟩ := h
  have hups : walk rooted [] (List.replicate ups up) = List.replicate ups up := by
    cases rooted with
    | true => rw [hrooted rfl]; rfl
    | false => exact walk_ups ups
  rw [walk_append, hups, walk_entries hentries, List.reverse_append, List.reverse_replicate]

/-- One more segment leads from a direct path to a direct path. -/
theorem step (h : Direct rooted trail.reverse) (hslash : '/' ∉ segment) :
    Direct rooted (walkStep rooted trail segment).reverse := by
  by_cases hstay : isStay segment = true
  · rwa [walkStep_stay hstay]
  · obtain ⟨ups, entries, htrail, hrooted, hentries⟩ := h
    obtain rfl : trail = entries.reverse ++ List.replicate ups up := by
      rw [← List.reverse_reverse trail, htrail, List.reverse_append, List.reverse_replicate]
    by_cases hup : segment = up
    · rcases List.eq_nil_or_concat entries with rfl | ⟨before, last, rfl⟩
      · -- there is nothing to go up from but what is above the start
        cases rooted with
        | true =>
          obtain rfl := hrooted rfl
          exact ⟨0, [], by simp [hup, walkStep, isStay, up], fun _ => rfl, by simp⟩
        | false =>
          refine ⟨ups + 1, [], ?_, nofun, by simp⟩
          rw [hup, List.reverse_nil, List.nil_append, walkStep_up_ups, List.reverse_replicate,
            List.append_nil]
      · rw [List.concat_eq_append] at hentries ⊢
        have hlast : IsEntry last := hentries last (by simp)
        refine ⟨ups, before, ?_, hrooted, fun other hother => hentries other (by simp [hother])⟩
        rw [hup, List.reverse_append, List.reverse_singleton, List.singleton_append,
          List.cons_append, walkStep_up hlast]
        simp
    · have hentry := isEntry_of_not hstay hup hslash
      refine ⟨ups, entries ++ [segment], ?_, hrooted, ?_⟩
      · rw [walkStep_entry hentry]
        simp
      · intro other hother
        rcases List.mem_append.mp hother with hother | hother
        · exact hentries other hother
        · obtain rfl := List.mem_singleton.mp hother
          exact hentry

/-- Every walk ends at a place that a direct path leads to. -/
theorem walk (h : Direct rooted trail.reverse) (hslash : ∀ segment ∈ path, '/' ∉ segment) :
    Direct rooted (walk rooted trail path).reverse := by
  induction path generalizing trail with
  | nil => exact h
  | cons segment path ih =>
    obtain ⟨hsegment, hpath⟩ := List.forall_mem_cons.mp hslash
    exact ih (h.step hsegment) hpath

theorem isEntry_or_up (h : Direct rooted path) (hsegment : segment ∈ path) :
    IsEntry segment ∨ segment = up := by
  obtain ⟨ups, entries, rfl, -, hentries⟩ := h
  rcases List.mem_append.mp hsegment with hsegment | hsegment
  · exact .inr (List.eq_of_mem_replicate hsegment)
  · exact .inl (hentries segment hsegment)

theorem ne_nil_of_mem (h : Direct rooted path) (hsegment : segment ∈ path) : segment ≠ [] := by
  rcases h.isEntry_or_up hsegment with hentry | rfl
  · exact hentry.ne_nil
  · exact nofun

theorem no_slash_of_mem (h : Direct rooted path) (hsegment : segment ∈ path) : '/' ∉ segment := by
  rcases h.isEntry_or_up hsegment with hentry | rfl
  · exact hentry.no_slash
  · decide

/-- Without double dots, a direct path can start at the root. -/
theorem rooted_of_up_not_mem (h : Direct rooted path) (hup : up ∉ path) : Direct true path := by
  obtain ⟨ups, entries, rfl, -, hentries⟩ := h
  refine ⟨ups, entries, rfl, fun _ => ?_, hentries⟩
  cases ups with
  | zero => rfl
  | succ ups => exact absurd List.mem_cons_self hup

theorem relative (h : Direct rooted path) : Direct false path := by
  obtain ⟨ups, entries, hpath, -, hentries⟩ := h
  exact ⟨ups, entries, hpath, nofun, hentries⟩

/-- A direct path is read back from its spelling. -/
theorem segments_joinSegments (h : Direct rooted path) (hne : path ≠ []) :
    segments (joinSegments path) = path := by
  rw [segments_eq_splitOn, joinSegments_eq_intercalate]
  exact List.splitOn_intercalate '/' (fun _ => h.no_slash_of_mem) hne

theorem joinSegments_ne_nil (h : Direct rooted path) (hne : path ≠ []) :
    joinSegments path ≠ [] := by
  intro hnil
  have hpath := h.segments_joinSegments hne
  rw [hnil] at hpath
  exact h.ne_nil_of_mem (hpath ▸ List.mem_singleton_self _) rfl

theorem head?_joinSegments (h : Direct rooted path) : (joinSegments path).head? ≠ some '/' := by
  by_cases hne : path = []
  · rw [hne]
    exact nofun
  intro hslash
  obtain ⟨rest, hrest⟩ := List.head?_eq_some_iff.mp hslash
  have hpath := h.segments_joinSegments hne
  rw [hrest] at hpath
  exact h.ne_nil_of_mem (hpath ▸ List.mem_cons_self) rfl

end Direct

/-! ## Where a name leads -/

/-- The direct path to the place that a spelled path leads to. -/
def place (rooted : Bool) (path : List Char) : List (List Char) :=
  (walk rooted [] (segments path)).reverse

variable {name including spelling : List Char} {relativeTo : Option (List Char)}

theorem direct_place (rooted : Bool) (path : List Char) : Direct rooted (place rooted path) :=
  Direct.walk ⟨0, [], rfl, fun _ => rfl, nofun⟩ fun _ => not_mem_of_mem_segments

theorem place_slash (rooted : Bool) (path : List Char) :
    place rooted ('/' :: path) = place rooted path := by
  rw [place, segments, if_pos rfl, walk, List.foldl_cons, walkStep_stay rfl, ← walk, ← place]

/-- A direct path leads to its own end. -/
theorem Direct.place_eq (h : Direct rooted path) : place rooted (joinSegments path) = path := by
  by_cases hne : path = []
  · rw [hne]
    rfl
  · rw [place, h.segments_joinSegments hne, h.walk_eq, List.reverse_reverse]

theorem dropWhile_slash (h : spelling.head? ≠ some '/') :
    spelling.dropWhile (· = '/') = spelling := by
  cases spelling with
  | nil => rfl
  | cons c cs => exact List.dropWhile_cons_of_neg (by simpa using h)

theorem leadingSlashes_relative (h : spelling.head? ≠ some '/') : leadingSlashes spelling = [] := by
  have hnone : spelling.takeWhile (· = '/') = [] := by
    cases spelling with
    | nil => rfl
    | cons c cs =>
      refine List.takeWhile_cons_of_neg ?_
      simpa using h
  rw [leadingSlashes, hnone]
  rfl

theorem leadingSlashes_absolute (h : spelling.head? = some '/') :
    leadingSlashes spelling ≠ [] ∧ ∀ c ∈ leadingSlashes spelling, c = '/' := by
  obtain ⟨rest, rfl⟩ := List.head?_eq_some_iff.mp h
  rw [leadingSlashes, List.takeWhile_cons_of_pos (by simp), List.length_cons]
  split <;> simp_all

/-- A relative path is spelled by the segments to its place, if there are any. -/
theorem normalize_relative (h : spelling.head? ≠ some '/') :
    normalize spelling =
      if place false spelling = [] then ['.'] else joinSegments (place false spelling) := by
  have hspelled : normalize spelling =
      if (joinSegments (place false spelling)).isEmpty then ['.']
      else joinSegments (place false spelling) := by
    rw [normalize, leadingSlashes_relative h]
    rfl
  rw [hspelled]
  by_cases hplace : place false spelling = []
  · rw [hplace]
    rfl
  · have hne := (direct_place false spelling).joinSegments_ne_nil hplace
    rw [if_neg (by simpa using hne), if_neg hplace]

/-- The id of an absolute name is spelled by the segments to its place. -/
theorem ofNameChars_absolute (h : name.head? = some '/') (relativeTo : Option (List Char)) :
    ofNameChars name relativeTo = joinSegments (place true name) := by
  obtain ⟨hne, hslashes⟩ := leadingSlashes_absolute h
  rw [ofNameChars.eq_def, if_pos h, normalize]
  have hrooted : (!(leadingSlashes name).isEmpty) = true := by simpa using hne
  rw [hrooted, ← place, if_neg (by simp [hne]),
    List.dropWhile_append_of_pos fun c hc => by simpa using hslashes c hc]
  exact dropWhile_slash (direct_place true name).head?_joinSegments

theorem directory_prefix (path : List Char) : directory path <+: path := by
  rw [directory, ← List.reverse_suffix, List.reverse_reverse]
  split
  · exact List.dropWhile_suffix _
  · exact (List.dropWhile_suffix _).trans (List.dropWhile_suffix _)

/-- A relative name stays relative when it is used inside a template. -/
theorem head?_append_directory (hname : name.head? ≠ some '/')
    (hincluding : including.head? ≠ some '/') :
    (append (directory including) name).head? ≠ some '/' := by
  obtain ⟨last, hlast⟩ := directory_prefix including
  rw [append]
  cases hdirectory : directory including with
  | nil => exact hname
  | cons c cs =>
    rw [hdirectory] at hlast
    rw [← hlast] at hincluding
    split <;> exact hincluding

theorem ofNameChars_none (h : name.head? ≠ some '/') : ofNameChars name none = normalize name :=
  if_neg h

theorem ofNameChars_some (h : name.head? ≠ some '/') (including : List Char) :
    ofNameChars name (some including) = normalize (append (directory including) name) :=
  if_neg h

/-- The id of a relative name is the normal form of a relative path. -/
theorem ofNameChars_relative (hname : name.head? ≠ some '/')
    (hincluding : ∀ including ∈ relativeTo, including.head? ≠ some '/') :
    ∃ spelling, spelling.head? ≠ some '/' ∧ ofNameChars name relativeTo = normalize spelling := by
  cases relativeTo with
  | none => exact ⟨name, hname, ofNameChars_none hname⟩
  | some including =>
    exact ⟨_, head?_append_directory hname (hincluding including rfl), ofNameChars_some hname including⟩

/-! ## Ids -/

section Ids

variable {name spelling id : String} {relativeTo : Option String}

/-- A name that starts at the root. -/
def isRooted (name : String) : Bool :=
  name.toList.head? = some '/'

/-- An id of the outermost template or of a template that one with such an id includes, under any
names. -/
inductive Issued : String → Prop
  | outermost (name : String) : Issued (ofName name none)
  | inside (name : String) {including : String} :
      Issued including → Issued (ofName name (some including))

/-- A direct path, spelled with single slashes; a dot if it is relative and has no segments. -/
def IsCanonical (rooted : Bool) (spelling : String) : Prop :=
  rooted = false ∧ spelling = "." ∨
    ∃ path, path ≠ [] ∧ Direct rooted path ∧ spelling.toList = ['/'].intercalate path

theorem isRooted_iff : isRooted name = true ↔ name.toList.head? = some '/' :=
  decide_eq_true_iff

theorem isRooted_eq_false_iff : isRooted name = false ↔ name.toList.head? ≠ some '/' :=
  decide_eq_false_iff_not

theorem toList_ofName (name : String) (relativeTo : Option String) :
    (ofName name relativeTo).toList = ofNameChars name.toList (relativeTo.map String.toList) :=
  String.toList_ofList

theorem toList_ofName_absolute (h : isRooted name = true) (relativeTo : Option String) :
    (ofName name relativeTo).toList = joinSegments (place true name.toList) := by
  rw [toList_ofName, ofNameChars_absolute (isRooted_iff.mp h)]

/-- A relative name has an id, and it is relative to where the outermost template is. -/
theorem isCanonical_ofName (hname : isRooted name = false)
    (hrelative : ∀ including ∈ relativeTo, isRooted including = false) :
    IsCanonical false (ofName name relativeTo) := by
  have hincluding : ∀ including ∈ relativeTo.map String.toList, including.head? ≠ some '/' := by
    intro including hincluding
    obtain ⟨including, hmem, rfl⟩ := Option.map_eq_some_iff.mp hincluding
    exact isRooted_eq_false_iff.mp (hrelative including hmem)
  obtain ⟨spelling, hspelling, hid⟩ :=
    ofNameChars_relative (isRooted_eq_false_iff.mp hname) hincluding
  rw [normalize_relative hspelling] at hid
  by_cases hplace : place false spelling = []
  · refine .inl ⟨rfl, String.toList_inj.mp ?_⟩
    rw [toList_ofName, hid, if_pos hplace]
    rfl
  · refine .inr ⟨_, hplace, direct_place false spelling, ?_⟩
    rw [toList_ofName, hid, if_neg hplace, joinSegments_eq_intercalate]

namespace IsCanonical

theorem isRooted_eq (h : IsCanonical rooted spelling) : isRooted spelling = false := by
  rw [isRooted_eq_false_iff]
  obtain ⟨-, rfl⟩ | ⟨path, -, hpath, hspelling⟩ := h
  · decide
  · rw [hspelling, ← joinSegments_eq_intercalate]
    exact hpath.head?_joinSegments

theorem ne_empty (h : IsCanonical rooted spelling) : spelling ≠ "" := by
  obtain ⟨-, rfl⟩ | ⟨path, hne, hpath, hspelling⟩ := h
  · decide
  · rintro rfl
    rw [← joinSegments_eq_intercalate] at hspelling
    exact hpath.joinSegments_ne_nil hne hspelling.symm

/-- A canonical spelling, used outside all templates, is an id. -/
theorem ofName_eq (h : IsCanonical rooted spelling) : ofName spelling none = spelling := by
  have hrelative := isRooted_eq_false_iff.mp h.isRooted_eq
  refine String.toList_inj.mp ?_
  rw [toList_ofName, Option.map_none, ofNameChars_none hrelative, normalize_relative hrelative]
  obtain ⟨-, rfl⟩ | ⟨path, hne, hpath, hspelling⟩ := h
  · rfl
  · rw [← joinSegments_eq_intercalate] at hspelling
    rw [hspelling, hpath.relative.place_eq, if_neg hne]

/-- A canonical spelling at the root is an id as soon as a slash says so, inside any template. -/
theorem ofName_slash_eq (h : IsCanonical true spelling) (other : Option String) :
    ofName ("/" ++ spelling) other = spelling := by
  obtain ⟨hfalse, -⟩ | ⟨path, -, hpath, hspelling⟩ := h
  · cases hfalse
  have hchars : ("/" ++ spelling).toList = '/' :: spelling.toList := String.toList_append
  refine String.toList_inj.mp ?_
  rw [toList_ofName_absolute (by rw [isRooted_iff, hchars]; rfl), hchars, place_slash, hspelling,
    ← joinSegments_eq_intercalate, hpath.place_eq]

/-- A canonical spelling other than a dot starts at the root if it has no double dots. -/
theorem rooted_of_up_not_mem (h : IsCanonical rooted spelling) (hdot : spelling ≠ ".")
    (hup : up ∉ segments spelling.toList) : IsCanonical true spelling := by
  obtain ⟨-, rfl⟩ | ⟨path, hne, hpath, hspelling⟩ := h
  · exact absurd rfl hdot
  · rw [hspelling, ← joinSegments_eq_intercalate, hpath.segments_joinSegments hne] at hup
    exact .inr ⟨path, hne, hpath.rooted_of_up_not_mem hup, hspelling⟩

end IsCanonical

/-- An absolute name has an id that starts at the root, or none if it leads to the root itself. -/
theorem ofName_absolute_cases (h : isRooted name = true) (relativeTo : Option String) :
    place true name.toList = [] ∧ ofName name relativeTo = "" ∨
      place true name.toList ≠ [] ∧ IsCanonical true (ofName name relativeTo) := by
  have hid := toList_ofName_absolute h relativeTo
  by_cases hplace : place true name.toList = []
  · rw [hplace] at hid
    exact .inl ⟨hplace, String.toList_inj.mp hid⟩
  · rw [joinSegments_eq_intercalate] at hid
    exact .inr ⟨hplace, .inr ⟨_, hplace, direct_place true _, hid⟩⟩

/-- No id starts with a slash where no id around does. -/
theorem isRooted_ofName (hrelative : ∀ including ∈ relativeTo, isRooted including = false) :
    isRooted (ofName name relativeTo) = false := by
  cases hname : isRooted name with
  | false => exact (isCanonical_ofName hname hrelative).isRooted_eq
  | true =>
    obtain ⟨-, hid⟩ | ⟨-, hid⟩ := ofName_absolute_cases hname relativeTo
    · rw [hid]
      decide
    · exact hid.isRooted_eq

theorem Issued.isRooted_eq (h : Issued id) : isRooted id = false := by
  induction h with
  | outermost name => exact isRooted_ofName nofun
  | inside name _ ih => exact isRooted_ofName fun _ hmem => Option.some.inj hmem ▸ ih

/-- Ids are canonical along all chains of inclusions. An id does not start with a slash. It is empty only
if it stands for the root, and this takes an absolute name; otherwise it is spelled canonically, and it is
the id of its own spelling, relative to where the outermost template is and, without double dots, also
relative to the root. No other canonical spelling leads to it. -/
theorem ofName_canonical (hissued : ∀ including ∈ relativeTo, Issued including)
    (hid : id = ofName name relativeTo) :
    isRooted id = false ∧
    (id = "" ↔ isRooted name = true ∧ walk true [] (segments name.toList) = []) ∧
    (id ≠ "" → IsCanonical (isRooted name) id) ∧
    (id ≠ "" → ofName id none = id) ∧
    (id ≠ "." → up ∉ segments id.toList → ∀ other, ofName ("/" ++ id) other = id) ∧
    (∀ spelling, IsCanonical false spelling → ofName spelling none = id → spelling = id) ∧
    (∀ spelling other, IsCanonical true spelling → ofName ("/" ++ spelling) other = id →
      spelling = id) := by
  have hrelative : ∀ including ∈ relativeTo, isRooted including = false :=
    fun including hmem => (hissued including hmem).isRooted_eq
  have hform : id = "" ∧ isRooted name = true ∧ place true name.toList = [] ∨
      IsCanonical (isRooted name) id ∧ ¬ (isRooted name = true ∧ place true name.toList = []) := by
    rw [hid]
    cases hname : isRooted name with
    | false => exact .inr ⟨isCanonical_ofName hname hrelative, nofun⟩
    | true =>
      obtain ⟨hplace, hid⟩ | ⟨hplace, hid⟩ := ofName_absolute_cases hname relativeTo
      · exact .inl ⟨hid, rfl, hplace⟩
      · exact .inr ⟨hid, fun h => hplace h.2⟩
  rw [place, List.reverse_eq_nil_iff] at hform
  have hcanonical : id ≠ "" → IsCanonical (isRooted name) id := fun hne =>
    hform.elim (fun h => absurd h.1 hne) And.left
  refine ⟨hid ▸ isRooted_ofName hrelative, ?_, hcanonical, fun hne => (hcanonical hne).ofName_eq, ?_,
    fun spelling hspelling hleads => hspelling.ofName_eq.symm.trans hleads,
    fun spelling other hspelling hleads => (hspelling.ofName_slash_eq other).symm.trans hleads⟩
  · obtain ⟨hempty, hroot⟩ | ⟨hid, hnot⟩ := hform
    · exact iff_of_true hempty hroot
    · exact iff_of_false hid.ne_empty hnot
  · intro hdot hup other
    by_cases hempty : id = ""
    · subst hempty
      refine String.toList_inj.mp ?_
      rw [toList_ofName_absolute rfl]
      rfl
    · exact ((hcanonical hempty).rooted_of_up_not_mem hdot hup).ofName_slash_eq other

/-- A template next to the directory of one that is outside of where the outermost template is. -/
theorem ofName_canonical_outside :
    Issued "../b/c" ∧ ofName "..//.//d" (some "../b/c") = "../d" ∧
    IsCanonical false "../d" ∧ ofName "../d" none = "../d" ∧
    ∀ spelling, IsCanonical false spelling → ofName spelling none = "../d" → spelling = "../d" := by
  have hissued : Issued "../b/c" := Issued.outermost "../b/c"
  have hid : ofName "..//.//d" (some "../b/c") = "../d" := rfl
  obtain ⟨-, -, hcanonical, hstable, -, honly, -⟩ := ofName_canonical
    (fun including hmem => Option.some.inj hmem ▸ hissued) hid.symm
  exact ⟨hissued, hid, hcanonical (by decide), hstable (by decide), honly⟩

end Ids

end TemplateId

end Logicless
