import Logicless.Proofs.TemplateId.Canonical

/-!
# The same template from its neighbour and from the root

A relative name is appended to the directory of the including template, and the double dots that the path
cannot follow are kept. A name with a slash in front starts at the root, and double dots stay there. The two
rules agree on a name that stays below the root: a template can be named from its neighbour or with the
directory of its neighbour spelled out, from anywhere.

## Shape of the proof

* `follow?` says where a name leads from a directory, as long as it does not go above the root.
* Below the root it does not matter how the walk treats double dots at its start. One segment at a time it
  takes the same way as `follow?`, for relative and for absolute names (`walkStep_of_descend?`,
  `walk_of_follow?`).
* The directory of an id is spelled by its segments but the last (`directory_joinSegments`), so both names
  start with the same directory (`Direct.place_append_joinSegments`, `place_append`). They mean the template
  where the name leads (`ofName_spell`, `ofName_slash_spell`).
-/

namespace Logicless

namespace TemplateId

variable {rooted : Bool} {start destination path : List (List Char)} {segment : List Char}

/-! ## Below the root -/

/-- One segment further from the place at the end of some segments below the root: `none` above the
root. -/
def descend? (start : List (List Char)) (segment : List Char) : Option (List (List Char)) :=
  if segment = [] ∨ segment = ['.'] then some start
  else if segment = ['.', '.'] then
    if start = [] then none else some start.dropLast
  else some (start ++ [segment])

/-- The place that segments lead to from a place below the root, if they do not go above it. -/
def follow? (start : List (List Char)) : List (List Char) → Option (List (List Char))
  | [] => some start
  | segment :: path => (descend? start segment).bind fun next => follow? next path

/-- Below the root, a step of the walk goes where the segment says. -/
theorem walkStep_of_descend? (hstart : ∀ segment ∈ start, IsEntry segment)
    (h : descend? start segment = some destination) :
    walkStep rooted start.reverse segment = destination.reverse := by
  by_cases hstay : segment = [] ∨ segment = ['.']
  · rw [descend?, if_pos hstay] at h
    cases h
    exact walkStep_stay (by simpa [isStay] using hstay)
  rw [descend?, if_neg hstay] at h
  by_cases hup : segment = ['.', '.']
  · rw [if_pos hup] at h
    rcases List.eq_nil_or_concat start with rfl | ⟨before, last, rfl⟩
    · cases h
    · rw [List.concat_eq_append] at h hstart ⊢
      rw [if_neg (by simp), List.dropLast_concat] at h
      cases h
      have hlast : IsEntry last := hstart last (by simp)
      rw [List.reverse_append, hup]
      exact walkStep_up hlast
  · rw [if_neg hup] at h
    cases h
    rw [List.reverse_append]
    simp [walkStep, isStay, not_or.mp hstay, up, hup]

theorem isEntry_of_descend? (hstart : ∀ segment ∈ start, IsEntry segment) (hslash : '/' ∉ segment)
    (h : descend? start segment = some destination) : ∀ segment ∈ destination, IsEntry segment := by
  rw [descend?] at h
  split at h
  next => cases h; exact hstart
  next hstay =>
    split at h
    next =>
      split at h
      next => cases h
      next => cases h; exact fun other hother => hstart other (List.dropLast_subset _ hother)
    next hup =>
      cases h
      intro other hother
      rcases List.mem_append.mp hother with hother | hother
      · exact hstart other hother
      · obtain rfl := List.mem_singleton.mp hother
        exact isEntry_of_not (by simpa [isStay] using hstay) hup hslash

/-- A walk that stays below the root ends where its segments lead. -/
theorem walk_of_follow? (hstart : ∀ segment ∈ start, IsEntry segment)
    (hslash : ∀ segment ∈ path, '/' ∉ segment) (h : follow? start path = some destination) :
    walk rooted start.reverse path = destination.reverse := by
  induction path generalizing start with
  | nil =>
    cases h
    rfl
  | cons segment path ih =>
    obtain ⟨hsegment, hpath⟩ := List.forall_mem_cons.mp hslash
    obtain ⟨next, hnext, h⟩ := Option.bind_eq_some_iff.mp h
    rw [walk, List.foldl_cons, walkStep_of_descend? hstart hnext]
    exact ih (isEntry_of_descend? hstart hsegment hnext) hpath h

/-! ## Directories -/

theorem joinSegments_segments (path : List Char) : joinSegments (segments path) = path := by
  rw [segments_eq_splitOn, joinSegments_eq_intercalate, List.intercalate_splitOn]

theorem place_append (rooted : Bool) (front back : List Char) :
    place rooted (front ++ '/' :: back) =
      (walk rooted (place rooted front).reverse (segments back)).reverse := by
  rw [place, segments_append, walk_append, place, List.reverse_reverse]

namespace Direct

theorem of_entries (h : ∀ segment ∈ path, IsEntry segment) : Direct rooted path :=
  ⟨0, path, rfl, fun _ => rfl, h⟩

theorem joinSegments_concat (h : Direct rooted path) (hne : path ≠ []) (hslash : '/' ∉ segment) :
    joinSegments (path ++ [segment]) = joinSegments path ++ '/' :: segment := by
  have hsegment : segments segment = [segment] := by
    rw [segments_eq_splitOn]
    exact List.splitOn_eq_singleton hslash
  calc joinSegments (path ++ [segment])
      = joinSegments (segments (joinSegments path ++ '/' :: segment)) := by
        rw [segments_append, h.segments_joinSegments hne, hsegment]
    _ = joinSegments path ++ '/' :: segment := joinSegments_segments _

theorem getLast?_joinSegments (h : Direct rooted path) : (joinSegments path).getLast? ≠ some '/' := by
  by_cases hne : path = []
  · rw [hne]
    exact nofun
  intro hslash
  obtain ⟨front, hfront⟩ := List.getLast?_eq_some_iff.mp hslash
  have hpath := h.segments_joinSegments hne
  rw [hfront, segments_append] at hpath
  exact h.ne_nil_of_mem (hpath ▸ List.mem_append_right _ (List.mem_singleton_self [])) rfl

/-- A name is appended to a directory with a slash, unless the directory is empty. -/
theorem place_append_joinSegments (h : Direct rooted path) (name : List Char) :
    place rooted (append (joinSegments path) name) =
      (TemplateId.walk rooted path.reverse (segments name)).reverse := by
  rw [append]
  by_cases hne : path = []
  · subst hne
    rfl
  · have hspelled : ¬ ((joinSegments path).isEmpty || (joinSegments path).getLast? = some '/') = true := by
      simp [h.joinSegments_ne_nil hne, h.getLast?_joinSegments]
    rw [if_neg hspelled, place_append, h.place_eq]

end Direct

/-- The search for the last slash goes past a segment. -/
theorem dropWhile_reverse_append (hslash : '/' ∉ segment) (front : List Char) :
    (segment.reverse ++ front).dropWhile (· ≠ '/') = front.dropWhile (· ≠ '/') := by
  refine List.dropWhile_append_of_pos fun c hc => ?_
  simpa using fun heq : c = '/' => hslash (heq ▸ List.mem_reverse.mp hc)

theorem directory_of_not_mem (hslash : '/' ∉ segment) : directory segment = [] := by
  have hback := dropWhile_reverse_append hslash []
  rw [List.append_nil] at hback
  rw [directory, hback]
  rfl

/-- The directory of a path is what is in front of its last slash, unless that ends in slashes. -/
theorem directory_append {front : List Char} (hne : front ≠ []) (hend : front.getLast? ≠ some '/')
    (hslash : '/' ∉ segment) : directory (front ++ '/' :: segment) = front := by
  rw [← List.head?_reverse] at hend
  rw [directory, List.reverse_append, List.reverse_cons, List.append_assoc,
    dropWhile_reverse_append hslash, List.singleton_append, List.dropWhile_cons_of_neg (by simp),
    List.dropWhile_cons_of_pos (by simp), dropWhile_slash hend, if_neg (by simpa using hne),
    List.reverse_reverse]

/-- The directory of a path below the root is spelled by all segments but the last. -/
theorem directory_joinSegments (h : ∀ segment ∈ path, IsEntry segment) :
    directory (joinSegments path) = joinSegments path.dropLast := by
  rcases List.eq_nil_or_concat path with rfl | ⟨before, last, rfl⟩
  · rfl
  rw [List.concat_eq_append] at h ⊢
  rw [List.dropLast_concat]
  obtain ⟨hbefore, hlast⟩ := List.forall_mem_append.mp h
  have hslash : '/' ∉ last := (hlast last (List.mem_singleton_self _)).no_slash
  have hdirect : Direct true before := Direct.of_entries hbefore
  by_cases hne : before = []
  · subst hne
    exact directory_of_not_mem hslash
  · rw [hdirect.joinSegments_concat hne hslash]
    exact directory_append (hdirect.joinSegments_ne_nil hne) hdirect.getLast?_joinSegments hslash

/-! ## Names -/

/-- Segments, spelled with a slash between each two of them. -/
def spell (path : List (List Char)) : String :=
  String.ofList (['/'].intercalate path)

theorem toList_spell (path : List (List Char)) : (spell path).toList = joinSegments path := by
  rw [spell, String.toList_ofList, joinSegments_eq_intercalate]

section

variable {name : String}

/-- A relative name, used inside a template below the root, means the template where it leads. -/
theorem ofName_spell (hentries : ∀ segment ∈ path, IsEntry segment) (hname : isRooted name = false)
    (hfollow : follow? path.dropLast (segments name.toList) = some destination)
    (hbelow : destination ≠ []) : ofName name (some (spell path)) = spell destination := by
  have hdirectory : ∀ segment ∈ path.dropLast, IsEntry segment :=
    fun segment hsegment => hentries segment (List.dropLast_subset _ hsegment)
  have hdirect : Direct true path := Direct.of_entries hentries
  have hrelative : (append (directory (joinSegments path)) name.toList).head? ≠ some '/' :=
    head?_append_directory (isRooted_eq_false_iff.mp hname) hdirect.head?_joinSegments
  have hplace : place false (append (directory (joinSegments path)) name.toList) = destination := by
    rw [directory_joinSegments hentries, (Direct.of_entries hdirectory).place_append_joinSegments,
      walk_of_follow? hdirectory (fun _ => not_mem_of_mem_segments) hfollow, List.reverse_reverse]
  refine String.toList_inj.mp ?_
  rw [toList_ofName, Option.map_some, ofNameChars_some (isRooted_eq_false_iff.mp hname), toList_spell,
    normalize_relative hrelative, hplace, if_neg hbelow, toList_spell]

/-- So does the name with the directory of that template in front, used anywhere. -/
theorem ofName_slash_spell (hentries : ∀ segment ∈ path, IsEntry segment)
    (hfollow : follow? path (segments name.toList) = some destination) (other : Option String) :
    ofName ("/" ++ spell path ++ "/" ++ name) other = spell destination := by
  have hdirect : Direct true path := Direct.of_entries hentries
  have hchars : ("/" ++ spell path ++ "/" ++ name).toList =
      '/' :: (joinSegments path ++ '/' :: name.toList) := by
    simp [String.toList_append, toList_spell]
  have hrooted : isRooted ("/" ++ spell path ++ "/" ++ name) = true := by
    rw [isRooted_iff, hchars]
    rfl
  have hplace : place true ("/" ++ spell path ++ "/" ++ name).toList = destination := by
    rw [hchars, place_slash, place_append, hdirect.place_eq,
      walk_of_follow? hentries (fun _ => not_mem_of_mem_segments) hfollow, List.reverse_reverse]
  refine String.toList_inj.mp ?_
  rw [toList_ofName_absolute hrooted, hplace, toList_spell]

end

/-- A relative name that stays below the root, and does not end at the root itself, means the same inside
a template as the absolute name that spells out the directory of that template, wherever that is used. Both
mean the template at the place that the name leads to. -/
theorem ofName_eq_ofName_slash (path destination : List (List Char)) (name : String)
    (hentries : ∀ segment ∈ path, IsEntry segment) (hname : isRooted name = false)
    (hfollow : follow? path.dropLast (segments name.toList) = some destination)
    (hbelow : destination ≠ []) (other : Option String) :
    ofName name (some (spell path)) = ofName ("/" ++ spell path.dropLast ++ "/" ++ name) other ∧
      ofName name (some (spell path)) = spell destination := by
  have hdirectory : ∀ segment ∈ path.dropLast, IsEntry segment :=
    fun segment hsegment => hentries segment (List.dropLast_subset _ hsegment)
  have hrelative : ofName name (some (spell path)) = spell destination :=
    ofName_spell hentries hname hfollow hbelow
  have habsolute : ofName ("/" ++ spell path.dropLast ++ "/" ++ name) other = spell destination :=
    ofName_slash_spell hdirectory hfollow other
  exact ⟨hrelative.trans habsolute.symm, hrelative⟩

/-- From `users/list/item`, the same template by a detour and from the root. -/
theorem ofName_eq_ofName_slash_detour :
    ofName "..//./shared/../footer" (some "users/list/item") =
        ofName "/users/list/..//./shared/../footer" (some "posts/new") ∧
      ofName "..//./shared/../footer" (some "users/list/item") = "users/footer" :=
  ofName_eq_ofName_slash ["users".toList, "list".toList, "item".toList]
    ["users".toList, "footer".toList] "..//./shared/../footer" (by decide) rfl rfl (by decide)
    (some "posts/new")

end TemplateId

end Logicless
