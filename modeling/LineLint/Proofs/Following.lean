import LineLint.Proofs.Scan

/-! # Following a path below a directory

A path that leads to a directory, continued by names that lead to a file there, leads to this file,
unless a name or the whole path is longer than the system allows.
-/

namespace LineLint

namespace FileTree

variable {tree : FileTree}

/-- Steps are followed from where the steps in front of them lead, with the links that are left. -/
theorem exists_follow_append (tree : FileTree) (links : Nat) (place : Place) (steps : List Step) :
    ∃ reached : Except FileError (Nat × Place), ∀ more,
      tree.follow .target links place (steps ++ more) =
        reached.bind fun (left, found) => tree.follow .target left found more := by
  fun_induction follow tree .target links place steps with
  | case1 links place => exact ⟨.ok (links, place), fun _ => rfl⟩
  | case2 links place step rest outside =>
    refine ⟨.error .notDirectory, fun more => ?_⟩
    rw [List.cons_append, follow.eq_def]
    exact if_pos outside
  | case3 _ _ _ inside ih | case4 _ _ _ inside ih | case5 _ _ _ inside ih =>
    obtain ⟨reached, leads⟩ := ih
    refine ⟨reached, fun more => ?_⟩
    rw [List.cons_append, follow, if_neg inside]
    exact leads more
  | case6 _ _ _ _ _ writing => cases writing.1
  | case7 _ _ _ inside _ _ long =>
    exact ⟨.error .nameTooLong, fun more => by simp [follow, inside, long, Except.bind]⟩
  | case8 _ _ _ _ _ _ _ _ writing => cases writing.1
  | case9 _ _ _ inside _ _ short nothing =>
    exact ⟨.error .notFound, fun more => by simp [follow, inside, short, nothing, Except.bind]⟩
  | case10 _ _ _ _ _ _ _ _ _ itself => cases itself.1
  | case11 _ _ inside _ _ short _ link =>
    exact ⟨.error .tooManyLinks, fun more => by simp [follow, inside, short, link, Except.bind]⟩
  | case12 _ _ inside _ _ short _ link _ links target ih =>
    -- The steps of a link are put in front of the rest, which then has one link less to use.
    obtain ⟨reached, leads⟩ := ih
    refine ⟨reached, fun more => ?_⟩
    rw [← leads more, List.append_assoc]
    simp [follow, inside, short, link, target]
  | case13 _ _ _ inside _ _ short entry noLink there ih =>
    obtain ⟨reached, leads⟩ := ih
    refine ⟨reached, fun more => ?_⟩
    rw [← leads more]
    cases entry with
    | link text => exact absurd rfl (noLink text)
    | file octets => simp [follow, inside, short, there]
    | directory => simp [follow, inside, short, there]

/-- The names that lead to a file are followed to it if they are short enough. -/
theorem follow_names {place : Place} {names : List String} (file : tree.HasFile place names)
    (links : Nat) :
    tree.follow .target links place (names.map .into) =
      if ∀ name ∈ names, name.utf8ByteSize ≤ nameLimit then .ok (place ++ names)
      else .error .nameTooLong := by
  induction file with
  | @here place name octets content =>
    have inside : tree.isDirectory place = true := by
      simp [isDirectory, at?_of_at?_append content]
    by_cases short : name.utf8ByteSize ≤ nameLimit
    · simp [follow, inside, content, short, Nat.not_lt.mpr short]
    · simp [follow, inside, short, Nat.lt_of_not_le short]
  | @inside place name rest content below ih =>
    have inside : tree.isDirectory place = true := by
      simp [isDirectory, at?_of_at?_append content]
    rw [List.map_cons, follow, if_neg (by simp [inside])]
    by_cases short : name.utf8ByteSize ≤ nameLimit
    · simp [content, short, Nat.not_lt.mpr short, ih]
    · simp [short, Nat.lt_of_not_le short]

end FileTree

theorem Step.ofPiece?_name {name : String} (isName : IsName name) :
    ofPiece? name.toList = some (.into name) := by
  obtain ⟨nonempty, notDot, notDots, _⟩ := isName
  have notDot : name.toList ≠ ['.'] := fun same => notDot (String.toList_inj.mp same)
  have notDots : name.toList ≠ ['.', '.'] := fun same => notDots (String.toList_inj.mp same)
  simp [ofPiece?, nonempty, notDot, notDots]

namespace Path

/-- The steps of a path without the slash at its end. -/
def way (path : Path) : List Step := (Text.split '/' path.text.toList).filterMap Step.ofPiece?

/-- A path is its way to walk, and a slash at its end if there is one. -/
theorem steps_eq (path : Path) : ∃ ending, (ending = [] ∨ ending = [.slash]) ∧
    path.steps = path.way ++ ending := by
  rw [steps]
  split
  · exact ⟨_, .inr rfl, rfl⟩
  · exact ⟨_, .inl rfl, rfl⟩

theorem way_append_slash (front : String) {name : String} (isName : IsName name) :
    way ⟨front ++ "/" ++ name⟩ = way ⟨front⟩ ++ [.into name] := by
  have text : (front ++ "/" ++ name).toList = front.toList ++ '/' :: name.toList := by simp
  simp only [way, text, Text.split_append_cons, Text.split_of_not_mem isName.2.2.2,
    List.filterMap_append]
  simp [Step.ofPiece?_name isName]

theorem way_slash (front : String) : way ⟨front ++ "/"⟩ = way ⟨front⟩ := by
  have text : (front ++ "/").toList = front.toList ++ '/' :: [] := by simp
  simp only [way, text, Text.split_append_cons, List.filterMap_append]
  simp [Text.split, Step.ofPiece?]

section Join

variable {directory : Path} {name : String} (nonempty : directory.text ≠ "")
  (isName : IsName name)
include nonempty isName

/-- The path to a name in a directory has one slash in front of the name. -/
theorem text_join : ∃ front, (directory.text = front ∨ directory.text = front ++ "/") ∧
    (directory.join name).text = front ++ "/" ++ name := by
  have chars : directory.text.toList ≠ [] := by simpa using nonempty
  rw [join, if_neg (by simpa using head?_of_isName isName)]
  by_cases slash : directory.text.toList.getLast? = some '/'
  · obtain ⟨front, cut⟩ := List.getLast?_eq_some_iff.mp slash
    have same : directory.text = String.ofList front ++ "/" := by
      rw [← String.toList_inj, cut]
      simp
    rw [if_pos (.inr slash), same]
    exact ⟨String.ofList front, .inr rfl, rfl⟩
  · rw [if_neg (by simp [chars, slash])]
    exact ⟨directory.text, .inl rfl, rfl⟩

theorem text_join_ne_empty : (directory.join name).text ≠ "" := by
  obtain ⟨front, -, text⟩ := text_join nonempty isName
  rw [text]
  simp

theorem isAbsolute_join : (directory.join name).isAbsolute = directory.isAbsolute := by
  obtain ⟨front, same | same, text⟩ := text_join nonempty isName
  · obtain ⟨c, rest, chars⟩ := List.exists_cons_of_ne_nil (l := front.toList) (by simp_all)
    simp [isAbsolute, text, same, chars]
  · simp only [isAbsolute, text, same, String.toList_append, List.append_assoc]
    cases front.toList <;> simp

theorem way_join : (directory.join name).way = directory.way ++ [.into name] := by
  have joined : ∀ front, (directory.join name).text = front ++ "/" ++ name →
      (directory.join name).way = way ⟨front⟩ ++ [.into name] := by
    intro front text
    rw [← way_append_slash front isName, ← text]
  obtain ⟨front, same | same, text⟩ := text_join nonempty isName
  · rw [joined front text, ← same]
  · rw [joined front text, ← way_slash front, ← same]

/-- Joining a name adds one step, whether or not the directory is given with a slash. -/
theorem steps_join : (directory.join name).steps = directory.way ++ [.into name] := by
  have last : (directory.join name).text.toList.getLast? ≠ some '/' := by
    obtain ⟨front, -, text⟩ := text_join nonempty isName
    rw [text]
    exact getLast?_append_name _ isName
  rw [← way_join nonempty isName, steps, if_neg last, List.append_nil]
  rfl

end Join

section JoinAll

variable {directory : Path} {names : List String} (nonempty : directory.text ≠ "")
  (areNames : ∀ name ∈ names, IsName name)
include nonempty areNames

theorem text_joinAll_ne_empty : (directory.joinAll names).text ≠ "" := by
  induction names generalizing directory with
  | nil => exact nonempty
  | cons name rest ih =>
    obtain ⟨isName, areNames⟩ := List.forall_mem_cons.mp areNames
    exact ih (text_join_ne_empty nonempty isName) areNames

theorem isAbsolute_joinAll : (directory.joinAll names).isAbsolute = directory.isAbsolute := by
  induction names generalizing directory with
  | nil => rfl
  | cons name rest ih =>
    obtain ⟨isName, areNames⟩ := List.forall_mem_cons.mp areNames
    exact (ih (text_join_ne_empty nonempty isName) areNames).trans (isAbsolute_join nonempty isName)

/-- The steps to names in a directory are those of the directory, without the slash at its end, and
then those into the names. -/
theorem steps_joinAll (more : names ≠ []) :
    (directory.joinAll names).steps = directory.way ++ names.map .into := by
  induction names generalizing directory with
  | nil => exact absurd rfl more
  | cons name rest ih =>
    obtain ⟨isName, areNames⟩ := List.forall_mem_cons.mp areNames
    by_cases last : rest = []
    · rw [last]
      exact steps_join nonempty isName
    · change ((directory.join name).joinAll rest).steps = _
      rw [ih (text_join_ne_empty nonempty isName) areNames last, way_join nonempty isName]
      simp

end JoinAll

end Path

namespace FileTree

variable {tree : FileTree} {start place : Place} {root : Path} {names : List String}

/-- A path that continues another one by names is one that the system takes at all, whatever lies on the
way: the path and the names are not too long, and none of its characters is the one with the number
zero. -/
structure Accepts (path : Path) (names : List String) : Prop where
  noZero : '\x00' ∉ path.text.toList
  pathFits : path.text.utf8ByteSize ≤ pathLimit
  namesFit : ∀ name ∈ names, name.utf8ByteSize ≤ nameLimit

/-- What a path leads to is the end of its steps. -/
theorem follow_of_locate (leads : tree.locate .target start root = .ok place) :
    root.text ≠ "" ∧ tree.follow .target linkLimit (root.origin start) root.steps = .ok place := by
  rw [locate] at leads
  split at leads
  · cases leads
  · split at leads
    · cases leads
    · rename_i nonempty
      split at leads
      · cases leads
      · exact ⟨nonempty, leads⟩

/-- The slash at the end of a path does not matter for the names behind it. -/
theorem follow_way (leads : tree.locate .target start root = .ok place)
    (file : tree.HasFile place names) :
    tree.follow .target linkLimit (root.origin start) (root.way ++ names.map .into) =
      if ∀ name ∈ names, name.utf8ByteSize ≤ nameLimit then .ok (place ++ names)
      else .error .nameTooLong := by
  obtain ⟨-, followed⟩ := follow_of_locate leads
  obtain ⟨ending, slash, steps⟩ := root.steps_eq
  obtain ⟨reached, onward⟩ :=
    exists_follow_append tree linkLimit (root.origin start) root.way
  rw [steps, onward] at followed
  cases reached with
  | error error => cases followed
  | ok stop =>
    obtain ⟨left, found⟩ := stop
    -- The slash at the end asks for a directory and leads no further.
    have here : found = place := by
      change tree.follow .target left found ending = .ok place at followed
      rcases slash with rfl | rfl
      · rw [follow_nil] at followed
        exact Except.ok.inj followed
      · rw [follow, follow_nil] at followed
        split at followed
        · cases followed
        · exact Except.ok.inj followed
    rw [onward, here]
    exact follow_names file left

/-- A path that leads to a directory, continued by the names that lead to a file there, is only
asked for its characters and for lengths. -/
theorem locate_joinAll_eq (leads : tree.locate .target start root = .ok place)
    (file : tree.HasFile place names) :
    tree.locate .target start (root.joinAll names) =
      if '\x00' ∈ (root.joinAll names).text.toList then .error .zeroInName
      else if pathLimit < (root.joinAll names).text.utf8ByteSize then .error .nameTooLong
      else if ∀ name ∈ names, name.utf8ByteSize ≤ nameLimit then .ok (place ++ names)
      else .error .nameTooLong := by
  have followed := follow_way leads file
  obtain ⟨nonempty, -⟩ := follow_of_locate leads
  have text := Path.text_joinAll_ne_empty nonempty file.isName
  have origin : (root.joinAll names).origin start = root.origin start := by
    rw [Path.origin, Path.origin, Path.isAbsolute_joinAll nonempty file.isName]
  rw [← Path.steps_joinAll nonempty file.isName (hasFile_iff.mp file).1, ← origin] at followed
  rw [locate, if_neg text, followed]

/-- It leads to this file if the system takes the path. Otherwise it leads nowhere. -/
theorem locate_joinAll (leads : tree.locate .target start root = .ok place)
    (file : tree.HasFile place names) :
    (Accepts (root.joinAll names) names →
      tree.locate .target start (root.joinAll names) = .ok (place ++ names)) ∧
    (¬ Accepts (root.joinAll names) names →
      ∃ error, tree.locate .target start (root.joinAll names) = .error error) := by
  rw [locate_joinAll_eq leads file]
  constructor
  · rintro ⟨noZero, pathFits, namesFit⟩
    rw [if_neg noZero, if_neg (Nat.not_lt.mpr pathFits), if_pos namesFit]
  · intro refused
    split
    · exact ⟨_, rfl⟩
    · split
      · exact ⟨_, rfl⟩
      · rename_i noZero pathFits
        have long : ¬ ∀ name ∈ names, name.utf8ByteSize ≤ nameLimit :=
          fun namesFit => refused ⟨noZero, Nat.le_of_not_lt pathFits, namesFit⟩
        exact ⟨_, if_neg long⟩

section Located

variable {path : Path} {error : FileError} {octets : List UInt8}

theorem leadsTo_of_locate (located : tree.locate .target start path = .ok place) :
    tree.leadsTo start path = true := by
  rw [leadsTo, located]

theorem leadsTo_of_error (located : tree.locate .target start path = .error error) :
    tree.leadsTo start path = false := by
  rw [leadsTo, located]

theorem isFileAt_of_locate (located : tree.locate .target start path = .ok place)
    (content : tree.at? place = some (.file octets)) : tree.isFileAt start path = true := by
  rw [isFileAt, get?, located]
  simp [content]

theorem read_of_locate (located : tree.locate .target start path = .ok place)
    (content : tree.at? place = some (.file octets)) : tree.read start path = .ok octets := by
  simp [read, located, content, bind, Except.bind]

theorem read_of_error (located : tree.locate .target start path = .error error) :
    tree.read start path = .error error := by
  rw [read, located]
  rfl

end Located

end FileTree

end LineLint
