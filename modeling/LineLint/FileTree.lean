/-! # File trees

A file tree is a finite set of entries, each at a place: the names that lead to it from the root.
The root is a directory and is not listed. No place is listed twice, every name is one that a
directory can hold, and whatever lies in something lies in a directory that is listed.
-/

namespace LineLint

/-- The names that lead from the root to an entry. -/
abbrev Place := List String

/-- What lies at a place. -/
inductive Entry where
  | file (octets : List UInt8)
  | directory
  /-- A symbolic link and the text of its target. -/
  | link (target : String)
deriving DecidableEq, Repr

/-- Whether a directory can hold an entry of this name. -/
def IsName (name : String) : Prop :=
  name ≠ "" ∧ name ≠ "." ∧ name ≠ ".." ∧ '/' ∉ name.toList

instance (name : String) : Decidable (IsName name) := inferInstanceAs (Decidable (_ ∧ _))

/-- Files, directories and links. -/
structure FileTree where
  entries : List (Place × Entry)
  places_nodup : (entries.map Prod.fst).Nodup
  named : ∀ place entry, (place, entry) ∈ entries → place ≠ [] ∧ ∀ name ∈ place, IsName name
  inDirectory : ∀ place entry, (place, entry) ∈ entries →
    place.dropLast = [] ∨ (place.dropLast, Entry.directory) ∈ entries

namespace FileTree

def empty : FileTree := ⟨[], by simp, by simp, by simp⟩

/-- What lies at a place, if anything does. -/
def at? (tree : FileTree) (place : Place) : Option Entry :=
  if place = [] then some .directory
  else (tree.entries.find? fun entry => entry.1 == place).map Prod.snd

def isDirectory (tree : FileTree) (place : Place) : Bool := tree.at? place == some .directory

theorem mem_of_at? {tree : FileTree} {place : Place} {entry : Entry} (proper : place ≠ [])
    (found : tree.at? place = some entry) : (place, entry) ∈ tree.entries := by
  simp only [at?, proper, if_false, Option.map_eq_some_iff] at found
  obtain ⟨⟨place', entry'⟩, listed, rfl⟩ := found
  have member := List.mem_of_find?_eq_some listed
  have same := List.find?_some listed
  simp only [beq_iff_eq] at same
  subst same
  exact member

/-- One place cannot hold two entries. -/
theorem unique_of_nodup {entries : List (Place × Entry)} (nodup : (entries.map Prod.fst).Nodup)
    {place : Place} {a b : Entry} (first : (place, a) ∈ entries) (second : (place, b) ∈ entries) :
    a = b := by
  induction entries with
  | nil => simp at first
  | cons head rest ih =>
    simp only [List.map_cons, List.nodup_cons, List.mem_map, not_exists, not_and] at nodup
    rcases List.mem_cons.mp first with here | later
    · subst here
      rcases List.mem_cons.mp second with eq | later
      · exact ((Prod.mk.inj eq).2).symm
      · exact (nodup.1 _ later rfl).elim
    · rcases List.mem_cons.mp second with here | after
      · subst here
        exact (nodup.1 _ later rfl).elim
      · exact ih nodup.2 later after

theorem at?_eq_some_iff {tree : FileTree} {place : Place} {entry : Entry} (proper : place ≠ []) :
    tree.at? place = some entry ↔ (place, entry) ∈ tree.entries := by
  refine ⟨mem_of_at? proper, fun member => ?_⟩
  cases found : tree.at? place with
  | none =>
    simp only [at?, proper, if_false, Option.map_eq_none_iff, List.find?_eq_none] at found
    simpa using found _ member
  | some other =>
    rw [unique_of_nodup tree.places_nodup member (mem_of_at? proper found)]

/-- Puts an entry under a name into a directory, in the place of the file or link of that name if
there is one. A directory is never replaced. -/
def put? (tree : FileTree) (directory : Place) (name : String) (entry : Entry) : Option FileTree :=
  if fits : tree.isDirectory directory = true ∧ IsName name ∧
      tree.at? (directory ++ [name]) ≠ some .directory then
    some
      { entries := tree.entries.filter (fun e => e.1 ≠ directory ++ [name]) ++
          [(directory ++ [name], entry)]
        places_nodup := by
          rw [List.map_append, List.nodup_append]
          refine ⟨?_, by simp, ?_⟩
          · exact tree.places_nodup.sublist (List.filter_sublist.map _)
          · intro a member b last same
            obtain ⟨e, kept, rfl⟩ := List.mem_map.mp member
            simp only [List.map_cons, List.map_nil, List.mem_singleton] at last
            have := (List.mem_filter.mp kept).2
            simp_all
        named := by
          intro place other member
          rcases List.mem_append.mp member with kept | last
          · exact tree.named place other (List.mem_filter.mp kept).1
          · simp only [List.mem_singleton, Prod.mk.injEq] at last
            obtain ⟨rfl, rfl⟩ := last
            refine ⟨by simp, fun n inPlace => ?_⟩
            rcases List.mem_append.mp inPlace with inside | last
            · by_cases top : directory = []
              · simp [top] at inside
              · have found : tree.at? directory = some .directory := by
                  simpa [isDirectory] using fits.1
                exact (tree.named directory _ (mem_of_at? top found)).2 n inside
            · rw [List.mem_singleton.mp last]
              exact fits.2.1
        inDirectory := by
          intro place other member
          rcases List.mem_append.mp member with kept | last
          · obtain ⟨member, _⟩ := List.mem_filter.mp kept
            rcases tree.inDirectory place other member with top | above
            · exact Or.inl top
            · refine Or.inr (List.mem_append_left _ (List.mem_filter.mpr ⟨above, ?_⟩))
              refine decide_eq_true fun same => fits.2.2 ?_
              exact (at?_eq_some_iff (by simp)).mpr (same ▸ above)
          · simp only [List.mem_singleton, Prod.mk.injEq] at last
            obtain ⟨rfl, rfl⟩ := last
            rw [List.dropLast_concat]
            by_cases top : directory = []
            · exact Or.inl top
            · have found : tree.at? directory = some .directory := by
                simpa [isDirectory] using fits.1
              refine Or.inr (List.mem_append_left _ (List.mem_filter.mpr
                ⟨mem_of_at? top found, decide_eq_true fun same => ?_⟩))
              have : directory.length = (directory ++ [name]).length := congrArg List.length same
              simp at this }
  else none

theorem at?_nil (tree : FileTree) : tree.at? [] = some .directory := rfl

/-- The entries of a tree into which something was put. -/
theorem entries_of_put? {tree changed : FileTree} {directory : Place} {name : String}
    {entry : Entry} (done : tree.put? directory name entry = some changed) :
    changed.entries =
      tree.entries.filter (fun e => e.1 ≠ directory ++ [name]) ++ [(directory ++ [name], entry)] := by
  unfold put? at done
  split at done
  · exact (congrArg entries (Option.some.inj done)).symm
  · cases done

/-- What was put into a tree lies there. -/
theorem at?_of_put? {tree changed : FileTree} {directory : Place} {name : String} {entry : Entry}
    (done : tree.put? directory name entry = some changed) :
    changed.at? (directory ++ [name]) = some entry := by
  rw [at?_eq_some_iff (by simp), entries_of_put? done]
  simp

/-- Putting something into a tree changes nothing at other places. -/
theorem at?_of_put?_of_ne {tree changed : FileTree} {directory place : Place} {name : String}
    {entry : Entry} (done : tree.put? directory name entry = some changed)
    (other : place ≠ directory ++ [name]) : changed.at? place = tree.at? place := by
  by_cases top : place = []
  · simp [top, at?_nil]
  · refine Option.ext fun found => ?_
    rw [at?_eq_some_iff top, at?_eq_some_iff top, entries_of_put? done]
    simp [other]

end FileTree

end LineLint
