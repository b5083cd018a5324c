import LineLint.Proofs.RealPaths

/-! # Spellings of a path

A path can be written with more slashes, with components `.`, and relative to the working directory
or from the root. Its route is what these spellings have in common: the steps that lead elsewhere,
from the root of the tree on. Paths with the same route lead to the same place, if they lead anywhere
at all.
-/

namespace LineLint

/-- Whether a step leads elsewhere. -/
def Step.moves : Step → Bool
  | .stay | .slash => false
  | .up | .into _ => true

namespace Path

/-- The steps of a path that lead elsewhere, from the root of the tree on. -/
def route (current : Place) (path : Path) : List Step :=
  (if path.isAbsolute then [] else current.map .into) ++ path.steps.filter Step.moves

theorem filter_moves_steps (path : Path) : path.steps.filter Step.moves =
    ((Text.split '/' path.text.toList).filterMap Step.ofPiece?).filter Step.moves := by
  obtain ⟨ending, rfl | rfl, steps⟩ := path.steps_eq
  · rw [steps, List.append_nil]
    rfl
  · rw [steps, List.filter_append]
    exact List.append_nil _

theorem filter_moves_append_slash (front back : String) :
    (steps ⟨front ++ "/" ++ back⟩).filter Step.moves =
      (steps ⟨front⟩).filter Step.moves ++ (steps ⟨back⟩).filter Step.moves := by
  simp only [filter_moves_steps, toList_append_slash, Text.split_append_cons,
    List.filterMap_append, List.filter_append]

section Respelled

variable {current : Place} {front : String}

theorem isAbsolute_append (nonempty : front ≠ "") (back : String) :
    isAbsolute ⟨front ++ back⟩ = isAbsolute ⟨front⟩ := by
  have some : front.toList ≠ [] := by simpa using nonempty
  obtain ⟨c, rest, chars⟩ := List.exists_cons_of_ne_nil some
  simp [isAbsolute, chars]

/-- Going on behind a slash adds the steps of the rest, whatever slashes there are. -/
theorem route_append_slash (nonempty : front ≠ "") (back : String) :
    route current ⟨front ++ "/" ++ back⟩ =
      route current ⟨front⟩ ++ (steps ⟨back⟩).filter Step.moves := by
  rw [route, route, filter_moves_append_slash, String.append_assoc, isAbsolute_append nonempty,
    List.append_assoc]

/-- A slash at the end does not change a route. -/
theorem route_slash (nonempty : front ≠ "") :
    route current ⟨front ++ "/"⟩ = route current ⟨front⟩ := by
  have ending : route current ⟨front ++ "/" ++ ""⟩ = _ := route_append_slash nonempty ""
  rw [String.append_empty] at ending
  exact ending.trans (List.append_nil _)

/-- A `.` between two components, or at the end, does not change a route. -/
theorem route_point (nonempty : front ≠ "") (back : String) :
    route current ⟨front ++ "/./" ++ back⟩ = route current ⟨front ++ "/" ++ back⟩ := by
  have text : front ++ "/./" ++ back = front ++ "/" ++ ("." ++ "/" ++ back) := by
    simp [← String.toList_inj]
  rw [text, route_append_slash nonempty, route_append_slash nonempty, filter_moves_append_slash]
  rfl

/-- A `.` in front of a relative path does not change its route. -/
theorem route_of_point {path : Path} (relative : path.isAbsolute = false) :
    route current ⟨"." ++ "/" ++ path.text⟩ = route current path := by
  rw [route_append_slash (by decide), route, route, if_neg (by decide), relative]
  simp [filter_moves_steps, Text.split, Step.ofPiece?, Step.moves]

/-- A relative path and the absolute path that continues the working directory by it have the same
route. -/
theorem route_of_absolute {path : Path} (relative : path.isAbsolute = false)
    (nonempty : current ≠ []) (areNames : ∀ name ∈ current, IsName name) :
    route current ⟨(FileTree.absolute current).text ++ "/" ++ path.text⟩ = route current path := by
  have moves : (current.map Step.into).filter Step.moves = current.map Step.into := by
    simp [List.filter_eq_self, Step.moves]
  have above : route current (FileTree.absolute current) = current.map Step.into := by
    rw [route, if_pos (isAbsolute_absolute current), steps_absolute nonempty areNames, moves,
      List.nil_append]
  have start : (FileTree.absolute current).text ≠ "" := by simp [FileTree.absolute]
  rw [route_append_slash start]
  change route current (FileTree.absolute current) ++ _ = _
  rw [above, route, if_neg (by simp [relative])]

end Respelled

end Path

namespace FileTree

variable {tree : FileTree} {links : Nat} {start place found : Place} {steps : List Step}

variable {path other : Path}

variable {root : Path} {names : List String}

end FileTree

end LineLint
