import LineLint.FileTree
import LineLint.Path
import Mathlib.Data.List.Infix

/-! # Paths below a directory

The path that names lead to from a directory has the components of the directory, however it is
written, and then the names. So its name below the directory is made of these names alone, and
different names lead to different paths.
-/

namespace LineLint

open Text

theorem Component.ofPiece?_name {name : String} (isName : IsName name) :
    ofPiece? name.toList = some (.name name) := by
  obtain ⟨nonempty, notDot, notDots, _⟩ := isName
  have notDot : name.toList ≠ ['.'] := fun same => notDot (String.toList_inj.mp same)
  have notDots : name.toList ≠ ['.', '.'] := fun same => notDots (String.toList_inj.mp same)
  simp [ofPiece?, nonempty, notDot, notDots]

namespace Path

theorem head?_of_isName {name : String} (isName : IsName name) : name.toList.head? ≠ some '/' :=
  fun slash => isName.2.2.2 (List.mem_of_head? slash)

theorem getLast?_append_name (front : String) {name : String} (isName : IsName name) :
    (front ++ name).toList.getLast? ≠ some '/' := by
  have chars : name.toList ≠ [] := by simpa using isName.1
  rw [String.toList_append, List.getLast?_append_of_ne_nil _ chars]
  exact fun slash => isName.2.2.2 (List.mem_of_getLast? slash)

theorem components_eq_append {a b : Path} {behind : List Component}
    (absolute : a.isAbsolute = b.isAbsolute)
    (first : (split '/' a.text.toList).head? = (split '/' b.text.toList).head?)
    (pieces : (split '/' a.text.toList).filterMap Component.ofPiece? =
      (split '/' b.text.toList).filterMap Component.ofPiece? ++ behind) :
    a.components = b.components ++ behind := by
  simp only [components, absolute, first, pieces]
  split
  · rfl
  · split <;> rfl

/-- What stands behind a slash adds its own components, whatever stands in front. -/
theorem components_append_slash (front back : List Char) :
    components ⟨String.ofList (front ++ '/' :: back)⟩ =
      components ⟨String.ofList (front ++ ['/'])⟩ ++
        (split '/' back).filterMap Component.ofPiece? := by
  apply components_eq_append
  · cases front <;> simp [isAbsolute]
  · obtain ⟨piece, pieces, cut⟩ := List.exists_cons_of_ne_nil (split_ne_nil '/' front)
    simp [split_append_cons, cut]
  · simp [split_append_cons, split, Component.ofPiece?]

theorem components_slash {front : List Char} (nonempty : front ≠ []) :
    components ⟨String.ofList (front ++ ['/'])⟩ = components ⟨String.ofList front⟩ := by
  rw [← List.append_nil (components ⟨String.ofList front⟩)]
  apply components_eq_append
  · obtain ⟨c, rest, rfl⟩ := List.exists_cons_of_ne_nil nonempty
    simp [isAbsolute]
  · obtain ⟨piece, pieces, cut⟩ := List.exists_cons_of_ne_nil (split_ne_nil '/' front)
    simp [split_append_cons, cut]
  · simp [split_append_cons, split, Component.ofPiece?]

theorem filterMap_ofPiece?_name {name : String} (isName : IsName name) :
    (split '/' name.toList).filterMap Component.ofPiece? = [.name name] := by
  rw [split_of_not_mem isName.2.2.2]
  simp [Component.ofPiece?_name isName]

theorem components_ofName {name : String} (isName : IsName name) :
    components ⟨name⟩ = [.name name] := by
  have ⟨_, notDot, _, noSlash⟩ := isName
  have relative : isAbsolute ⟨name⟩ = false := by
    simpa [isAbsolute] using head?_of_isName isName
  have notDot : name.toList ≠ ['.'] := fun same => notDot (String.toList_inj.mp same)
  rw [components, relative, split_of_not_mem noSlash]
  simp [notDot, Component.ofPiece?_name isName]

theorem components_join (directory : Path) {name : String} (isName : IsName name) :
    (directory.join name).components = directory.components ++ [.name name] := by
  obtain ⟨text⟩ := directory
  rw [join, if_neg (by simpa using head?_of_isName isName)]
  by_cases empty : text.toList = []
  · have text : text = "" := by simpa using empty
    rw [if_pos (.inl empty), text]
    change components ⟨"" ++ name⟩ = [] ++ [.name name]
    rw [String.empty_append, components_ofName isName, List.nil_append]
  · by_cases slash : text.toList.getLast? = some '/'
    · obtain ⟨front, chars⟩ := List.getLast?_eq_some_iff.mp slash
      have same : text = String.ofList (front ++ ['/']) := by
        rw [← chars, String.ofList_toList]
      have joined : text ++ name = String.ofList (front ++ '/' :: name.toList) := by
        rw [same]
        simp [← String.toList_inj]
      rw [if_pos (.inr slash), joined, components_append_slash, filterMap_ofPiece?_name isName,
        ← same]
    · have joined : text ++ "/" ++ name = String.ofList (text.toList ++ '/' :: name.toList) := by
        simp [← String.toList_inj]
      rw [if_neg (by simp [empty, slash]), joined, components_append_slash,
        components_slash empty, String.ofList_toList, filterMap_ofPiece?_name isName]

theorem components_joinAll (directory : Path) {names : List String}
    (areNames : ∀ name ∈ names, IsName name) :
    (directory.joinAll names).components = directory.components ++ names.map .name := by
  induction names generalizing directory with
  | nil => simp [joinAll]
  | cons name rest ih =>
    obtain ⟨isName, areNames⟩ := List.forall_mem_cons.mp areNames
    change ((directory.join name).joinAll rest).components = _
    rw [ih (directory.join name) areNames, components_join directory isName]
    simp

/-- Two files below one directory never share a path. -/
theorem joinAll_injective (directory : Path) {names others : List String}
    (areNames : ∀ name ∈ names, IsName name) (alsoNames : ∀ name ∈ others, IsName name)
    (same : directory.joinAll names = directory.joinAll others) : names = others := by
  have components := congrArg components same
  rw [components_joinAll directory areNames, components_joinAll directory alsoNames,
    List.append_cancel_left_eq] at components
  exact (List.map_injective_iff.mpr fun _ _ => Component.name.inj) components

/-- The name of a path below a directory is made of the names that lead there. -/
theorem idBelow_joinAll (directory : Path) {names : List String} (nonempty : names ≠ [])
    (areNames : ∀ name ∈ names, IsName name) :
    (directory.joinAll names).idBelow directory = "/".intercalate names := by
  have below : (directory.joinAll names).componentsBelow? directory = some (names.map .name) := by
    rw [componentsBelow?, components_joinAll directory areNames, if_pos (by simp)]
    simp
  have text : Component.text ∘ Component.name = id := rfl
  obtain ⟨first, rest, rfl⟩ := List.exists_cons_of_ne_nil nonempty
  rw [idBelow, below]
  change joined ((first :: rest).map Component.name) = _
  rw [joined, List.map_map, text, List.map_id]

end Path

end LineLint
