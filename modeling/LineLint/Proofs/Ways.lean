import LineLint.FileTree.Lookup
import LineLint.Proofs.Scan

/-! # Ways through a tree

A way says what every step of a path does where following the path succeeds. The steps of absolute
paths are taken in the same way, but only to places whose absolute paths are not too long. What a
path leads to is settled once by the ways; how a tree differs from another one changes single steps
of a way.
-/

namespace LineLint

namespace FileTree

/-- The steps lead from a place to another one, with no more links than given. All names on the way
lead to places that fit. -/
inductive Way (tree : FileTree) (purpose : Purpose) (fits : Place → Prop) :
    Nat → Place → List Step → Place → Prop
  | here {links : Nat} {place : Place} : Way tree purpose fits links place [] place
  | stay {links : Nat} {place found : Place} {rest : List Step}
      (inside : tree.isDirectory place = true) (onward : Way tree purpose fits links place rest found) :
      Way tree purpose fits links place (.stay :: rest) found
  | slash {links : Nat} {place found : Place} {rest : List Step}
      (inside : tree.isDirectory place = true) (onward : Way tree purpose fits links place rest found) :
      Way tree purpose fits links place (.slash :: rest) found
  | up {links : Nat} {place found : Place} {rest : List Step}
      (inside : tree.isDirectory place = true)
      (onward : Way tree purpose fits links place.dropLast rest found) :
      Way tree purpose fits links place (.up :: rest) found
  /-- Into a file or a directory. -/
  | into {links : Nat} {place found : Place} {name : String} {rest : List Step} {entry : Entry}
      (inside : tree.isDirectory place = true) (short : name.utf8ByteSize ≤ nameLimit)
      (fit : fits (place ++ [name])) (there : tree.at? (place ++ [name]) = some entry)
      (noLink : ∀ target, entry ≠ .link target)
      (toFile : ¬ (purpose = .writing ∧ rest = [.slash]))
      (onward : Way tree purpose fits links (place ++ [name]) rest found) :
      Way tree purpose fits links place (.into name :: rest) found
  /-- Through a link. -/
  | through {links : Nat} {place found : Place} {name target : String} {rest : List Step}
      (inside : tree.isDirectory place = true) (short : name.utf8ByteSize ≤ nameLimit)
      (fit : fits (place ++ [name])) (link : tree.at? (place ++ [name]) = some (.link target))
      (more : ¬ (purpose = .itself ∧ rest = []))
      (toFile : ¬ (purpose = .writing ∧ rest = [.slash]))
      (onward : Way tree purpose fits links (Path.origin ⟨target⟩ place)
        (Path.steps ⟨target⟩ ++ rest) found) :
      Way tree purpose fits (links + 1) place (.into name :: rest) found
  /-- To a link that is asked for itself. -/
  | link {links : Nat} {place : Place} {name target : String}
      (inside : tree.isDirectory place = true) (short : name.utf8ByteSize ≤ nameLimit)
      (fit : fits (place ++ [name])) (link : tree.at? (place ++ [name]) = some (.link target))
      (itself : purpose = .itself) :
      Way tree purpose fits links place [.into name] (place ++ [name])
  /-- To where nothing lies and something is to be written. -/
  | fresh {links : Nat} {place : Place} {name : String}
      (inside : tree.isDirectory place = true) (short : name.utf8ByteSize ≤ nameLimit)
      (fit : fits (place ++ [name])) (nothing : tree.at? (place ++ [name]) = none)
      (writing : purpose = .writing) :
      Way tree purpose fits links place [.into name] (place ++ [name])

/-- Any place fits. -/
def Anywhere (_ : Place) : Prop := True

/-- The absolute path to a place is not too long. -/
def HasShortPath (place : Place) : Prop := (absolute place).text.utf8ByteSize ≤ pathLimit

variable {tree : FileTree} {purpose : Purpose} {fits : Place → Prop} {links : Nat}
  {place found : Place} {steps : List Step}

/-- Following steps succeeds along a way. -/
theorem follow_eq_ok_iff : tree.follow purpose links place steps = .ok found ↔
    Way tree purpose Anywhere links place steps found := by
  constructor
  · intro follows
    fun_induction follow tree purpose links place steps with
    | case1 =>
      cases follows
      exact .here
    | case2 | case6 | case7 | case9 | case11 => cases follows
    | case3 _ _ _ inside ih => exact .stay (by simpa using inside) (ih follows)
    | case4 _ _ _ inside ih => exact .slash (by simpa using inside) (ih follows)
    | case5 _ _ _ inside ih => exact .up (by simpa using inside) (ih follows)
    | case8 _ _ _ inside _ _ short nothing writing =>
      cases follows
      rw [writing.2]
      exact .fresh (by simpa using inside) (Nat.le_of_not_lt short) trivial nothing writing.1
    | case10 _ _ _ inside _ _ short _ link itself =>
      cases follows
      rw [itself.2]
      exact .link (by simpa using inside) (Nat.le_of_not_lt short) trivial link itself.1
    | case12 _ _ inside _ toFile short _ link more _ _ ih =>
      exact .through (by simpa using inside) (Nat.le_of_not_lt short) trivial link more toFile
        (ih follows)
    | case13 _ _ _ inside _ toFile short _ noLink there ih =>
      exact .into (by simpa using inside) (Nat.le_of_not_lt short) trivial there noLink toFile
        (ih follows)
  · intro way
    induction way with
    | here => exact follow_nil ..
    | stay inside _ ih | slash inside _ ih | up inside _ ih =>
      rw [follow, if_neg (by simp [inside])]
      exact ih
    | @into _ _ _ _ _ entry inside short _ there noLink toFile _ ih =>
      rw [follow, if_neg (by simp [inside]), if_neg toFile, if_neg (Nat.not_lt.mpr short), there]
      cases entry with
      | link target => exact absurd rfl (noLink target)
      | file | directory => exact ih
    | through inside short _ link more toFile _ ih =>
      rw [follow, if_neg (by simp [inside]), if_neg toFile, if_neg (Nat.not_lt.mpr short), link]
      exact (if_neg more).trans ih
    | link inside short _ link itself =>
      rw [follow, if_neg (by simp [inside]), if_neg (by simp), if_neg (Nat.not_lt.mpr short), link]
      exact if_pos ⟨itself, rfl⟩
    | fresh inside short _ nothing writing =>
      rw [follow, if_neg (by simp [inside]), if_neg (by simp), if_neg (Nat.not_lt.mpr short),
        nothing]
      exact if_pos ⟨writing, rfl⟩

/-- Asking for everything by its absolute path succeeds along a way of places with short paths. -/
theorem resolve_eq_ok_iff : tree.resolve links place steps = .ok found ↔
    Way tree .target HasShortPath links place steps found := by
  constructor
  · intro resolved
    fun_induction resolve tree links place steps with
    | case1 =>
      cases resolved
      exact .here
    | case2 | case6 | case7 | case8 => cases resolved
    | case3 _ _ _ inside ih => exact .stay (by simpa using inside) (ih resolved)
    | case4 _ _ _ inside ih => exact .slash (by simpa using inside) (ih resolved)
    | case5 _ _ _ inside ih => exact .up (by simpa using inside) (ih resolved)
    | case9 _ _ inside _ short _ link _ _ ih =>
      obtain ⟨short, fit⟩ := not_or.mp short
      exact .through (by simpa using inside) (Nat.le_of_not_lt short) (Nat.le_of_not_lt fit) link
        (by simp) (by simp) (ih resolved)
    | case10 _ _ _ inside _ short _ noLink there ih =>
      obtain ⟨short, fit⟩ := not_or.mp short
      exact .into (by simpa using inside) (Nat.le_of_not_lt short) (Nat.le_of_not_lt fit) there noLink
        (by simp) (ih resolved)
  · intro way
    induction way with
    | here => exact resolve_nil ..
    | stay inside _ ih | slash inside _ ih | up inside _ ih =>
      rw [resolve, if_neg (by simp [inside])]
      exact ih
    | @into _ _ _ _ _ entry inside short fit there noLink _ _ ih =>
      have fit : ¬ pathLimit < _ := Nat.not_lt.mpr fit
      rw [resolve, if_neg (by simp [inside]), if_neg (not_or.mpr ⟨Nat.not_lt.mpr short, fit⟩), there]
      cases entry with
      | link target => exact absurd rfl (noLink target)
      | file | directory => exact ih
    | through inside short fit link _ _ _ ih =>
      have fit : ¬ pathLimit < _ := Nat.not_lt.mpr fit
      rw [resolve, if_neg (by simp [inside]), if_neg (not_or.mpr ⟨Nat.not_lt.mpr short, fit⟩), link]
      exact ih
    | link _ _ _ _ itself => cases itself
    | fresh _ _ _ _ writing => cases writing

namespace Way

/-- Steps are taken in a directory. -/
theorem inside {step : Step} (way : Way tree purpose fits links place (step :: steps) found) :
    tree.isDirectory place = true := by
  cases way <;> assumption

theorem short {name : String} {rest : List Step}
    (way : Way tree purpose fits links place (.into name :: rest) found) :
    name.utf8ByteSize ≤ nameLimit := by
  cases way <;> assumption

/-- A way is one as well where more places fit. -/
theorem anywhere (way : Way tree purpose fits links place steps found) :
    Way tree purpose Anywhere links place steps found := by
  induction way with
  | here => exact .here
  | stay inside _ ih => exact .stay inside ih
  | slash inside _ ih => exact .slash inside ih
  | up inside _ ih => exact .up inside ih
  | into inside short _ there noLink toFile _ ih =>
    exact .into inside short trivial there noLink toFile ih
  | through inside short _ link more toFile _ ih =>
    exact .through inside short trivial link more toFile ih
  | link inside short _ link itself => exact .link inside short trivial link itself
  | fresh inside short _ nothing writing => exact .fresh inside short trivial nothing writing

end Way

end FileTree

end LineLint
