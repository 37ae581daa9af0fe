import GridReport.Files
import Mathlib.Data.String.Basic

/-!
What writing a file and making a directory change in a tree.

* `at?_put_self`, `at?_put_other` — a node that is put at a place is found there, and nowhere else
  is anything changed.
* `writeText_eq` — a text is written at the place that the path leads to, or nothing is.
* `not_directory_of_writable` — no directory is at that place.
* `ChangesOnly` — the frame of a change: which places may differ, and no directory is lost.
* `changesOnly_write`, `changesOnly_makeDirectories` — the frame of a file that is written and of
  the directories made for a path.
-/

namespace GridReport.Files

variable {files : Files} {place other : Place} {node : Node}

theorem lookup_entry (place found : Place) (node : Node) (rest : List (Place × Node)) :
    ((found, node) :: rest).lookup place =
      if place = found then some node else rest.lookup place := by
  rw [List.lookup_cons]
  by_cases h : place = found
  · rw [if_pos h, beq_iff_eq.mpr h]
  · rw [if_neg h, beq_eq_false_iff_ne.mpr h]

/-- Setting a node changes its own place only. -/
theorem lookup_setNode (place other : Place) (node : Node) (nodes : List (Place × Node)) :
    (setNode place node nodes).lookup other =
      if other = place then some node else nodes.lookup other := by
  induction nodes with
  | nil => rw [setNode, lookup_entry]
  | cons entry rest ih =>
      obtain ⟨found, old⟩ := entry
      rw [setNode]
      by_cases hfound : found = place
      · rw [if_pos hfound, lookup_entry, lookup_entry, hfound]
        by_cases h : other = place
        · rw [if_pos h, if_pos h]
        · rw [if_neg h, if_neg h, if_neg h]
      · rw [if_neg hfound, lookup_entry, lookup_entry, ih]
        by_cases h : other = found
        · rw [if_pos h, if_pos h, if_neg (h ▸ hfound)]
        · rw [if_neg h, if_neg h]

theorem at?_put_other (h : other ≠ place) : (files.put place node).at? other = files.at? other := by
  simp only [at?, put, lookup_setNode, if_neg h]

/-- A place with no directory at it is neither the root nor above the working directory. -/
theorem at?_put_self (free : files.at? place ≠ some .directory) :
    (files.put place node).at? place = some node := by
  simp only [at?, put, lookup_setNode, if_true]
  split
  · rename_i above
    exact absurd (if_pos above) free
  · rfl

/-- A text is written where it may be, or not at all. -/
theorem writeText_eq (files : Files) (path content : String) :
    files.writeText path content =
      match files.writable path with
      | .error fault => .error fault
      | .ok place => .ok (files.put place (.text content)) := by
  rw [writeText]
  cases files.writable path <;> rfl

/-! ### Frames -/

/-- Only places of a kind differ between two trees, and what was a directory still is one. -/
structure ChangesOnly (before after : Files) (kind : Place → Prop) : Prop where
  only : ∀ place, after.at? place ≠ before.at? place → kind place
  keeps : ∀ place, before.at? place = some .directory → after.at? place = some .directory

namespace ChangesOnly

variable {before middle after : Files} {kind first second : Place → Prop}

theorem refl (files : Files) (kind : Place → Prop) : ChangesOnly files files kind where
  only := fun _ differs => absurd rfl differs
  keeps := fun _ there => there

/-- What is said of the places that change may be weakened. -/
theorem mono (changes : ChangesOnly before after first) (h : ∀ place, first place → kind place) :
    ChangesOnly before after kind where
  only := fun place differs => h place (changes.only place differs)
  keeps := changes.keeps

/-- What two steps change is what one of them changes. -/
theorem trans (one : ChangesOnly before middle first) (two : ChangesOnly middle after second)
    (hfirst : ∀ place, first place → kind place) (hsecond : ∀ place, second place → kind place) :
    ChangesOnly before after kind where
  only := by
    intro place differs
    by_cases same : after.at? place = middle.at? place
    · rw [same] at differs
      exact hfirst place (one.only place differs)
    · exact hsecond place (two.only place same)
  keeps := fun place there => two.keeps place (one.keeps place there)

end ChangesOnly

/-- A node that is put changes its own place. -/
theorem changesOnly_put (node : Node) (free : files.at? place ≠ some .directory) :
    ChangesOnly files (files.put place node) (· = place) where
  only := by
    intro other differs
    by_cases here : other = place
    · exact here
    · exact absurd (at?_put_other here) differs
  keeps := by
    intro other there
    have elsewhere : other ≠ place := by
      rintro rfl
      exact free there
    rw [at?_put_other elsewhere, there]

/-! ### Where paths lead -/

/-- Where a name leads from a directory. -/
def enter (place : Place) (name : String) : Place :=
  if isSelf name then place else if name = ".." then Place.parent place else place ++ [name]

/-- What is left on the way is a directory. -/
theorem walk_cons_eq_ok {start : Place} {name : String} {rest : List String} :
    files.walk start (name :: rest) = .ok place ↔
      files.at? start = some .directory ∧ files.walk (enter start name) rest = .ok place := by
  have entered : (if isSelf name then files.walk start rest
      else if name = ".." then files.walk (Place.parent start) rest
      else files.walk (start ++ [name]) rest) = files.walk (enter start name) rest := by
    rw [enter]
    split
    · rfl
    · split <;> rfl
  rw [walk, entered]
  constructor
  · intro leads
    split at leads
    · cases leads
    · exact ⟨‹_›, leads⟩
    · cases leads
  · rintro ⟨there, leads⟩
    simp only [there, leads]

/-- A path leads where it led before, as only directories lie on its way. -/
theorem ChangesOnly.walk {after : Files} {kind : Place → Prop}
    (changes : ChangesOnly files after kind) {start : Place} {names : List String}
    (leads : files.walk start names = .ok place) : after.walk start names = .ok place := by
  induction names generalizing start with
  | nil => exact leads
  | cons name rest ih =>
      obtain ⟨there, leads⟩ := walk_cons_eq_ok.mp leads
      exact walk_cons_eq_ok.mpr ⟨changes.keeps start there, ih leads⟩

/-- A path still leads where it led, if only what it does not pass changes. -/
theorem ChangesOnly.resolve {after : Files} {kind : Place → Prop} {path : String}
    (changes : ChangesOnly files after kind) (leads : files.resolve path = .ok place) :
    after.resolve path = .ok place := by
  rw [Files.resolve] at leads ⊢
  by_cases empty : path = ""
  · rw [if_pos empty] at leads
    cases leads
  · rw [if_neg empty] at leads ⊢
    exact changes.walk leads

/-- A last step goes into the directory that the steps before have led to. -/
theorem walk_concat {start middle : Place} {front : List String} {name : String}
    (leads : files.walk start front = .ok middle) (there : files.at? middle = some .directory) :
    files.walk start (front ++ [name]) = .ok (enter middle name) := by
  induction front generalizing start with
  | nil =>
      cases leads
      exact walk_cons_eq_ok.mpr ⟨there, rfl⟩
  | cons first rest ih =>
      obtain ⟨here, leads⟩ := walk_cons_eq_ok.mp leads
      exact walk_cons_eq_ok.mpr ⟨here, ih leads⟩

theorem names_ne_nil (path : String) : names path ≠ [] := by
  rw [names, String.splitToList_of_valid]
  simp [List.splitOnP_ne_nil]

/-- A list that keeps its length without the blanks at its end has none there. -/
theorem exists_concat_of_kept {parts : List String} (some_part : parts ≠ [])
    (all : ¬ (parts.reverse.dropWhile (· == "")).reverse.length < parts.length) :
    (parts.reverse.dropWhile (· == "")).reverse = parts ∧
      ∃ front name, parts = front ++ [name] ∧ name ≠ "" := by
  have whole : parts.reverse.dropWhile (· == "") = parts.reverse := by
    apply (List.dropWhile_suffix _).eq_of_length_le
    simpa using all
  obtain ⟨front, name, rfl⟩ : ∃ front name, parts = front ++ [name] :=
    ⟨_, _, (List.dropLast_concat_getLast some_part).symm⟩
  refine ⟨by rw [whole, List.reverse_reverse], front, name, rfl, ?_⟩
  rintro rfl
  have shorter := (List.dropWhile_suffix (l := front.reverse) (· == "")).length_le
  have same := congrArg List.length whole
  simp only [List.reverse_append, List.reverse_singleton, List.singleton_append, beq_self_eq_true,
    List.dropWhile_cons_of_pos, List.length_cons] at same
  omega

/-- The place of a file to be written: the last name of the path stands below a directory. -/
theorem writable_eq_ok {path : String} (h : files.writable path = .ok place) :
    path ≠ "" ∧ files.at? place ≠ some .directory ∧ ∃ front name parent,
      names path = front ++ [name] ∧ files.walk (origin path) front = .ok parent ∧
      files.at? parent = some .directory ∧ place = enter parent name := by
  unfold writable at h
  simp only [bind, Except.bind, pure, Except.pure, throw, throwThe, MonadExceptOf.throw] at h
  split at h
  · cases h
  rename_i nonempty
  refine ⟨nonempty, ?_⟩
  split at h
  · cases h
  rename_i parent walked
  split at h
  · cases h
  · rename_i there
    split at h
    · cases h
    rename_i proper
    simp only [Bool.or_eq_true, decide_eq_true_eq, not_or] at proper
    obtain ⟨⟨kept, no_dot⟩, no_dots⟩ := proper
    obtain ⟨same, front, name, parts, filled⟩ := exists_concat_of_kept (names_ne_nil path) kept
    have last : (names path).getLast?.getD "" = name := by simp [parts]
    rw [same, last] at h no_dot no_dots
    rw [same, parts, List.dropLast_concat] at walked
    have entered : enter parent name = parent ++ [name] := by
      simp [enter, isSelf, filled, no_dot, no_dots]
    split at h
    · cases h
    · rename_i free
      cases h
      exact ⟨free, front, name, parent, parts, walked, there, entered.symm⟩
  · cases h

/-- No text is written in the place of a directory. -/
theorem not_directory_of_writable {path : String} (h : files.writable path = .ok place) :
    files.at? place ≠ some .directory :=
  (writable_eq_ok h).2.1

/-- A file is written at the place that its path leads to. -/
theorem resolve_of_writable {path : String} (h : files.writable path = .ok place) :
    files.resolve path = .ok place := by
  obtain ⟨nonempty, -, front, name, parent, parts, leads, there, rfl⟩ := writable_eq_ok h
  rw [resolve, if_neg nonempty, parts]
  exact walk_concat leads there

/-- Writing a file changes the place that its path then leads to. -/
theorem changesOnly_write {path : String} (node : Node) (h : files.writable path = .ok place) :
    ChangesOnly files (files.put place node) fun other =>
      (files.put place node).resolve path = .ok other := by
  have put := changesOnly_put node (not_directory_of_writable h)
  apply put.mono
  rintro other rfl
  exact put.resolve (resolve_of_writable h)

/-! ### Directories that are made -/

/-- The place is one of these, and a directory has been made there. -/
def Made (places : List Place) (before after : Files) (place : Place) : Prop :=
  place ∈ places ∧ before.at? place = none ∧ after.at? place = some .directory

theorem Made.mono {places more : List Place} {before after : Files} {place : Place}
    (made : Made places before after place) (h : ∀ place ∈ places, place ∈ more) :
    Made more before after place :=
  ⟨h place made.1, made.2⟩

theorem changesOnly_makeAlong (files : Files) (made : Bool) (start : Place) (names : List String) :
    ChangesOnly files (files.makeAlong made start names).2
      (Made (placesFrom start names) files (files.makeAlong made start names).2) := by
  induction names generalizing files made start with
  | nil => exact .refl files _
  | cons name rest ih =>
      rw [placesFrom, makeAlong]
      by_cases self : isSelf name
      · rw [if_pos self, if_pos self]
        exact ih files made start
      rw [if_neg self, if_neg self]
      have further : ∀ {next : Place} {place : Place},
          place ∈ placesFrom next rest → place ∈ next :: placesFrom next rest :=
        List.mem_cons_of_mem _
      by_cases up : name = ".."
      · simp only [if_pos up]
        exact (ih files made _).mono fun _ changed => changed.mono fun _ => further
      simp only [if_neg up]
      split
      · rename_i absent
        have free : files.at? (start ++ [name]) ≠ some .directory := by simp [absent]
        have made_here : (files.put (start ++ [name]) .directory).at? (start ++ [name]) =
            some .directory := at?_put_self free
        have made_rest := ih (files.put (start ++ [name]) .directory) true (start ++ [name])
        apply (changesOnly_put .directory free).trans made_rest
        · rintro place rfl
          exact ⟨List.mem_cons_self, absent, made_rest.keeps _ made_here⟩
        · rintro place ⟨along, unmade, there⟩
          have elsewhere : place ≠ start ++ [name] := by
            rintro rfl
            rw [made_here] at unmade
            cases unmade
          rw [at?_put_other elsewhere] at unmade
          exact ⟨further along, unmade, there⟩
      · exact (ih files made _).mono fun _ changed => changed.mono fun _ => further
      · exact .refl files _

/-- Making directories for a path makes some of the places that the path leads through, and changes
nothing else. -/
theorem changesOnly_makeDirectories (files : Files) (path : String) :
    ChangesOnly files (files.makeDirectories path).2
      (Made (placesAlong path) files (files.makeDirectories path).2) :=
  changesOnly_makeAlong files false (origin path) (names path)

end GridReport.Files
