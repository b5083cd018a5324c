import LineLint.Proofs.Following
import LineLint.Proofs.PathOrder
import LineLint.Proofs.Ways
import LineLint.Workspace
import Mathlib.Data.List.Infix

/-! # Absolute paths

What a path leads to has an absolute path free of links. The paths above it are the absolute paths of
the directories above. It leads where its names lead from the root, unless the system does not accept
it.
-/

namespace LineLint

namespace FileTree

variable {tree : FileTree} {links : Nat} {place found : Place} {names : List String}
  {steps : List Step}

theorem at?_of_isDirectory (inside : tree.isDirectory place = true) :
    tree.at? place = some .directory := by
  simpa [isDirectory] using inside

theorem isDirectory_dropLast (inside : tree.isDirectory place = true) :
    tree.isDirectory place.dropLast = true := by
  cases place using List.reverseRecOn with
  | nil => exact inside
  | append_singleton front name =>
    rw [List.dropLast_concat, isDirectory, at?_of_at?_append (at?_of_isDirectory inside)]
    rfl

theorem isDirectory_origin (path : Path) (inside : tree.isDirectory place = true) :
    tree.isDirectory (path.origin place) = true := by
  rw [Path.origin]
  split
  · rfl
  · exact inside

/-- What lies at a place is a directory or a file, and no link. -/
def IsReal (tree : FileTree) (place : Place) : Prop :=
  ∃ entry, tree.at? place = some entry ∧ ∀ target, entry ≠ .link target

theorem IsReal.isName (real : tree.IsReal place) : ∀ name ∈ place, IsName name := by
  obtain ⟨_, there, -⟩ := real
  rw [← List.nil_append place] at there
  exact isName_of_at? there

theorem isReal_of_isDirectory (inside : tree.isDirectory place = true) : tree.IsReal place :=
  ⟨.directory, at?_of_isDirectory inside, by simp⟩

theorem isDirectory_of_isReal_append {more : List String} (nonempty : more ≠ [])
    (real : tree.IsReal (place ++ more)) : tree.isDirectory place = true := by
  obtain ⟨entry, there, -⟩ := real
  rw [isDirectory, at?_of_at?_append_append nonempty there]
  rfl

/-- What steps lead to through all links is no link. -/
theorem Way.isReal {fits : Place → Prop} (way : Way tree .target fits links place steps found)
    (start : steps ≠ [] ∨ tree.IsReal place) : tree.IsReal found := by
  induction way with
  | here => exact start.resolve_left (not_not.mpr rfl)
  | stay inside _ ih | slash inside _ ih => exact ih (.inr (isReal_of_isDirectory inside))
  | up inside _ ih => exact ih (.inr (isReal_of_isDirectory (isDirectory_dropLast inside)))
  | into _ _ _ there noLink _ _ ih => exact ih (.inr ⟨_, there, noLink⟩)
  | through inside _ _ _ _ _ _ ih =>
    exact ih (.inr (isReal_of_isDirectory (isDirectory_origin _ inside)))
  | link _ _ _ _ itself => cases itself
  | fresh _ _ _ _ writing => cases writing

/-- Names that lead to no link are followed one by one, if they are not too long. -/
theorem follow_into_append (real : tree.IsReal (place ++ names)) (more : List Step) :
    tree.follow .target links place (names.map .into ++ more) =
      if ∀ name ∈ names, name.utf8ByteSize ≤ nameLimit then
        tree.follow .target links (place ++ names) more
      else .error .nameTooLong := by
  induction names generalizing place with
  | nil => simp
  | cons name rest ih =>
    have here := isDirectory_of_isReal_append (List.cons_ne_nil name rest) real
    have below : tree.IsReal (place ++ [name] ++ rest) := by rwa [List.append_assoc]
    obtain ⟨entry, there, noLink⟩ : tree.IsReal (place ++ [name]) := by
      by_cases last : rest = []
      · rwa [last, List.append_nil] at below
      · exact isReal_of_isDirectory (isDirectory_of_isReal_append last below)
    rw [List.map_cons, List.cons_append, follow, if_neg (by simp [here])]
    by_cases short : name.utf8ByteSize ≤ nameLimit
    · cases entry with
      | link target => exact absurd rfl (noLink target)
      | file | directory => simp [there, Nat.not_lt.mpr short, short, ih below]
    · simp [short, Nat.lt_of_not_le short]

end FileTree

namespace Path

open FileTree (absolute)

variable {place : Place} {name : String}

theorem ofPiece?_ne_none {piece : List Char} (nonempty : piece ≠ []) :
    Step.ofPiece? piece ≠ none := by
  rw [Step.ofPiece?, if_neg nonempty]
  split
  · simp
  · split <;> simp

theorem steps_ne_nil {path : Path} (nonempty : path.text ≠ "") : path.steps ≠ [] := by
  intro nothing
  obtain ⟨void, noSlash⟩ := List.append_eq_nil_iff.mp nothing
  have last : path.text.toList.getLast? ≠ some '/' := fun slash => by simp [slash] at noSlash
  have text : path.text.toList ≠ [] := by simpa using nonempty
  rw [List.filterMap_eq_nil_iff] at void
  by_cases slash : '/' ∈ path.text.toList.reverse
  · -- What stands behind the last slash is a piece.
    obtain ⟨back, front, cut, single⟩ := List.eq_append_cons_of_mem slash
    have cut : path.text.toList = front.reverse ++ '/' :: back.reverse := by
      rw [← List.reverse_inj, cut]
      simp
    have more : back.reverse ≠ [] := by
      intro none
      exact last (by rw [cut, none, List.getLast?_concat])
    refine ofPiece?_ne_none more (void _ ?_)
    have single : '/' ∉ back.reverse := by simpa using single
    rw [cut, Text.split_append_cons, Text.split_of_not_mem single]
    exact List.mem_append_right _ (List.mem_singleton_self _)
  · refine ofPiece?_ne_none text (void _ ?_)
    rw [Text.split_of_not_mem (by simpa using slash)]
    simp

theorem absolute_concat (nonempty : place ≠ []) :
    absolute (place ++ [name]) = ⟨(absolute place).text ++ "/" ++ name⟩ := by
  simp only [absolute, intercalate_append nonempty (List.cons_ne_nil name []),
    String.intercalate_singleton, String.append_assoc]

theorem getLast?_absolute (nonempty : place ≠ []) (areNames : ∀ name ∈ place, IsName name) :
    (absolute place).text.toList.getLast? ≠ some '/' := by
  cases place using List.reverseRecOn with
  | nil => exact absurd rfl nonempty
  | append_singleton front name =>
    have isName := areNames name (by simp)
    by_cases top : front = []
    · rw [top]
      exact getLast?_append_name "/" isName
    · rw [absolute_concat top]
      exact getLast?_append_name _ isName

theorem join_absolute (areNames : ∀ name ∈ place, IsName name) (isName : IsName name) :
    (absolute place).join name = absolute (place ++ [name]) := by
  rw [join, if_neg (by simpa using head?_of_isName isName)]
  by_cases top : place = []
  · rw [top, if_pos (.inr rfl)]
    rfl
  · rw [if_neg (not_or.mpr ⟨by simp [absolute], getLast?_absolute top areNames⟩),
      absolute_concat top]

/-- Names lead to their absolute path from the root. -/
theorem joinAll_root (areNames : ∀ name ∈ place, IsName name) :
    joinAll ⟨"/"⟩ place = absolute place := by
  induction place using List.reverseRecOn with
  | nil => rfl
  | append_singleton front name ih =>
    simp only [List.forall_mem_append, List.forall_mem_singleton] at areNames
    rw [joinAll, List.foldl_concat]
    change (joinAll ⟨"/"⟩ front).join name = _
    rw [ih areNames.1, join_absolute areNames.1 areNames.2]

theorem isAbsolute_absolute (place : Place) : (absolute place).isAbsolute = true := by
  simp [isAbsolute, absolute]

theorem components_absolute (areNames : ∀ name ∈ place, IsName name) :
    (absolute place).components = .root :: place.map .name := by
  rw [← joinAll_root areNames, components_joinAll _ areNames]
  rfl

/-- The steps of an absolute path go into its names. -/
theorem steps_absolute (nonempty : place ≠ []) (areNames : ∀ name ∈ place, IsName name) :
    (absolute place).steps = place.map .into := by
  rw [← joinAll_root areNames, steps_joinAll (by decide) areNames nonempty]
  rfl

theorem split_absolute (nonempty : place ≠ []) (areNames : ∀ name ∈ place, IsName name) :
    Text.split '/' (absolute place).text.toList = [] :: place.map String.toList := by
  have text : (absolute place).text.toList = [] ++ '/' :: ("/".intercalate place).toList := by
    simp [absolute]
  rw [text, Text.split_append_cons, split_intercalate nonempty areNames]
  rfl

theorem isVoid_eq_false (isName : IsName name) : isVoid name.toList = false := by
  have notDot : name.toList ≠ ['.'] := fun same => isName.2.1 (String.toList_inj.mp same)
  simp [isVoid, isName.1, notDot]

theorem parent?_absolute_concat (areNames : ∀ name ∈ place, IsName name) (isName : IsName name) :
    (absolute (place ++ [name])).parent? = some (absolute place) := by
  have named : ∀ other ∈ place ++ [name], IsName other := by
    simpa [or_imp, forall_and] using ⟨areNames, isName⟩
  have solid : (place.map String.toList).reverse.dropWhile isVoid =
      (place.map String.toList).reverse := by
    cases place using List.reverseRecOn with
    | nil => rfl
    | append_singleton front last => simp [isVoid_eq_false (areNames last (by simp))]
  rw [parent?, split_absolute (by simp) named]
  simp only [List.map_append, List.map_cons, List.map_nil, List.reverse_append,
    List.reverse_singleton, List.singleton_append, List.dropWhile_cons,
    isVoid_eq_false isName, Bool.false_eq_true, if_false, solid, List.reverse_reverse]
  by_cases top : place = []
  · rw [top]
    rfl
  · have text := Text.join_split '/' (absolute place).text.toList
    rw [split_absolute top areNames] at text
    simp [top, text]

theorem ancestors_absolute_nil : (absolute []).ancestors = [absolute []] := by cbv

/-- The first path above the absolute path to something is that of its directory. -/
theorem ancestors_absolute_concat (areNames : ∀ name ∈ place, IsName name)
    (isName : IsName name) : (absolute (place ++ [name])).ancestors =
      absolute (place ++ [name]) :: (absolute place).ancestors := by
  have named : ∀ other ∈ place ++ [name], IsName other := by
    simpa [or_imp, forall_and] using ⟨areNames, isName⟩
  have more : (absolute (place ++ [name])).components.length =
      (absolute place).components.length + 1 := by
    simp [components_absolute named, components_absolute areNames]
  rw [ancestors, more, above, parent?_absolute_concat areNames isName]
  rfl

/-- The paths above the absolute path to something are those of the directories above. -/
theorem ancestors_absolute (areNames : ∀ name ∈ place, IsName name) :
    (absolute place).ancestors = place.inits.reverse.map absolute := by
  induction place using List.reverseRecOn with
  | nil => exact ancestors_absolute_nil
  | append_singleton front name ih =>
    simp only [List.forall_mem_append, List.forall_mem_singleton] at areNames
    rw [ancestors_absolute_concat areNames.1 areNames.2, ih areNames.1]
    simp [List.inits_append]

end Path

namespace FileTree

open LineLint.Path

variable {tree : FileTree} {start place found directory : Place} {path : Path} {name : String}

/-- A path that the system accepts leads where there is a way along its steps. -/
theorem locate_eq_ok_iff {purpose : Purpose} : tree.locate purpose start path = .ok place ↔
    '\x00' ∉ path.text.toList ∧ path.text ≠ "" ∧ path.text.utf8ByteSize ≤ pathLimit ∧
      Way tree purpose Anywhere linkLimit (path.origin start) path.steps place := by
  rw [locate, ← follow_eq_ok_iff]
  by_cases zero : '\x00' ∈ path.text.toList
  · simp [zero]
  · by_cases empty : path.text = ""
    · simp [empty]
    · by_cases long : pathLimit < path.text.utf8ByteSize
      · simp [zero, empty, long]
      · simp [zero, empty, long, Nat.le_of_not_lt long]

/-- What a path leads to is no link. -/
theorem isReal_of_locate (leads : tree.locate .target start path = .ok place) :
    tree.IsReal place := by
  obtain ⟨-, nonempty, -, way⟩ := locate_eq_ok_iff.mp leads
  exact way.isReal (.inl (steps_ne_nil nonempty))

/-- A path counts as a file when the links it goes through end at one. -/
theorem isFileAt_iff : tree.isFileAt start path = true ↔
    ∃ place octets, tree.locate .target start path = .ok place ∧
      tree.at? place = some (.file octets) := by
  constructor
  · intro file
    rw [isFileAt, get?] at file
    cases located : tree.locate .target start path with
    | error error => simp [located] at file
    | ok place =>
      rw [located] at file
      dsimp only at file
      split at file
      · rename_i octets content
        exact ⟨place, octets, rfl, content⟩
      · cases file
  · rintro ⟨place, octets, located, content⟩
    exact isFileAt_of_locate located content

theorem steps_name (isName : IsName name) : Path.steps ⟨name⟩ = [.into name] := by
  have last : name.toList.getLast? ≠ some '/' :=
    fun slash => isName.2.2.2 (List.mem_of_getLast? slash)
  rw [Path.steps, if_neg last, Text.split_of_not_mem isName.2.2.2]
  simp [Step.ofPiece?_name isName]

theorem origin_name (isName : IsName name) (directory : Place) :
    Path.origin ⟨name⟩ directory = directory := by
  rw [Path.origin, Path.isAbsolute, if_neg (by simpa using Path.head?_of_isName isName)]

/-- A name leads along one step. -/
theorem way_of_locate_name {purpose : Purpose} (isName : IsName name)
    (leads : tree.locate purpose start ⟨name⟩ = .ok found) :
    Way tree purpose Anywhere linkLimit start [.into name] found := by
  obtain ⟨-, -, -, way⟩ := locate_eq_ok_iff.mp leads
  rwa [steps_name isName, origin_name isName] at way

/-- The last step of a path goes into the name that stands at its end. -/
theorem getLast?_steps {front : List Char} (isName : IsName name)
    (text : path.text.toList = front ++ name.toList)
    (cut : front = [] ∨ front.getLast? = some '/') : path.steps.getLast? = some (.into name) := by
  obtain ⟨whole⟩ := path
  rcases cut with rfl | slash
  · obtain rfl : whole = name := String.toList_inj.mp text
    rw [steps_name isName, List.getLast?_singleton]
  · obtain ⟨front, rfl⟩ := List.getLast?_eq_some_iff.mp slash
    obtain rfl : whole = String.ofList front ++ "/" ++ name := by
      rw [← String.toList_inj, text]
      simp
    have way := way_append_slash (String.ofList front) isName
    rw [Path.way] at way
    rw [Path.steps, if_neg (getLast?_append_name _ isName), List.append_nil, way,
      List.getLast?_concat]

theorem getLast?_steps_join (directory : Path) {fileName : String} {front : List Char}
    (isName : IsName name) (text : fileName.toList = front ++ name.toList)
    (cut : front = [] ∨ front.getLast? = some '/') (relative : fileName.toList.head? ≠ some '/') :
    (directory.join fileName).steps.getLast? = some (.into name) := by
  have ends (start : List Char) (slash : start = [] ∨ start.getLast? = some '/') :
      start ++ front = [] ∨ (start ++ front).getLast? = some '/' := by
    rcases cut with rfl | last
    · simpa using slash
    · exact .inr (by simp [List.getLast?_append, last])
  rw [join, if_neg (by simpa using relative)]
  split
  · rename_i slash
    exact getLast?_steps isName (by simp [text]) (ends _ slash)
  · exact getLast?_steps isName (by simp [text]) (ends (directory.text.toList ++ ['/']) (by simp))

theorem subset_intercalate {names : List String} (member : name ∈ names) :
    name.toList ⊆ ("/".intercalate names).toList := by
  induction names with
  | nil => cases member
  | cons first rest ih =>
    by_cases last : rest = []
    · simp_all
    · have cut := intercalate_append (List.cons_ne_nil first []) last
      rw [List.singleton_append, String.intercalate_singleton] at cut
      rw [cut, toList_append_slash]
      rcases List.mem_cons.mp member with rfl | later
      · exact List.subset_append_left _ _
      · exact fun c inside => List.mem_append_right _ (List.mem_cons_of_mem _ (ih later inside))

/-- What a name in a directory leads to, its absolute path leads to as well, if the system accepts this
path. -/
theorem locate_absolute_concat (real : tree.IsReal directory) (isName : IsName name) :
    tree.locate .target start (absolute (directory ++ [name])) = .ok found ↔
      Accepts (absolute (directory ++ [name])) (directory ++ [name]) ∧
        tree.locate .target directory ⟨name⟩ = .ok found := by
  have areNames : ∀ other ∈ directory ++ [name], IsName other := by
    simpa [or_imp, forall_and] using ⟨real.isName, isName⟩
  have steps : (absolute (directory ++ [name])).steps = directory.map .into ++ [.into name] := by
    simp [steps_absolute _ areNames]
  have origin : (absolute (directory ++ [name])).origin start = [] := by
    rw [Path.origin, if_pos (isAbsolute_absolute _)]
  have nonempty : (absolute (directory ++ [name])).text ≠ "" := by simp [absolute]
  have onward : tree.follow .target linkLimit [] (directory.map .into ++ [.into name]) = _ :=
    follow_into_append (by simpa using real) [.into name]
  rw [locate_eq_ok_iff, locate_eq_ok_iff, ← follow_eq_ok_iff, ← follow_eq_ok_iff, steps, origin,
    onward, steps_name isName, origin_name isName]
  constructor
  · rintro ⟨noZero, -, fits, follows⟩
    split at follows
    · rename_i short
      have nameFits := (follow_eq_ok_iff.mp follows).short
      refine ⟨⟨noZero, fits, ?_⟩, ?_, isName.1, ?_, by simpa using follows⟩
      · simpa [or_imp, forall_and] using ⟨short, nameFits⟩
      · intro zero
        have member : name ∈ directory ++ [name] := by simp
        have inside := subset_intercalate member zero
        refine noZero ?_
        rw [absolute, String.toList_append]
        exact List.mem_append_right _ inside
      · exact nameFits.trans (by decide)
    · cases follows
  · rintro ⟨⟨noZero, fits, namesFit⟩, -, -, -, follows⟩
    have short : ∀ other ∈ directory, other.utf8ByteSize ≤ nameLimit :=
      fun other member => namesFit other (List.mem_append_left _ member)
    exact ⟨noZero, nonempty, fits, by simpa [if_pos short] using follows⟩

end FileTree

namespace Workspace

open FileTree (absolute)

variable {w : Workspace} {path : Path} {place : Place}

/-- The canonical form of a path is the absolute path to what it leads to, if the system can give
one. -/
theorem canonical?_eq (leads : w.tree.locate .target w.current path = .ok place)
    (known : w.canonical? path ≠ none) : w.canonical? path = some (absolute place) := by
  obtain ⟨noZero, nonempty, -, follows⟩ := FileTree.locate_eq_ok_iff.mp leads
  rw [← FileTree.follow_eq_ok_iff] at follows
  rw [canonical?, if_neg (by simp [noZero, nonempty])] at known ⊢
  cases resolved : w.tree.resolve FileTree.linkLimit (path.origin w.current) path.steps with
  | error error => simp [resolved] at known
  | ok found =>
    have way := (FileTree.resolve_eq_ok_iff.mp resolved).anywhere
    rw [FileTree.follow_eq_ok_iff.mpr way] at follows
    rw [Except.ok.inj follows]

/-- The canonical form is known where the absolute paths on the way are short enough. -/
theorem canonical?_of_way (noZero : '\x00' ∉ path.text.toList) (nonempty : path.text ≠ "")
    (way : FileTree.Way w.tree .target FileTree.HasShortPath FileTree.linkLimit
      (path.origin w.current) path.steps place) : w.canonical? path = some (absolute place) := by
  rw [canonical?, if_neg (by simp [noZero, nonempty]), FileTree.resolve_eq_ok_iff.mpr way]

theorem canonical?_current (inside : w.tree.isDirectory w.current = true) :
    w.canonical? ⟨"."⟩ = some (absolute w.current) := by
  have steps : Path.steps ⟨"."⟩ = [.stay] := by decide
  refine canonical?_of_way (by decide) (by decide) ?_
  rw [steps]
  exact .stay inside .here

end Workspace

end LineLint
