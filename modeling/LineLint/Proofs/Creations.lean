import LineLint.Program
import LineLint.Proofs.Utf8
import LineLint.Proofs.Writing

/-! # Creating settings files over and over

A call that creates a settings file either fails and changes nothing, or leaves the starter text where
the name of the file leads and changes nothing else. So over any number of calls nothing that was there
is replaced but by a call that is forced and succeeds, and once a call has succeeded the text stays.
-/

namespace LineLint

namespace Settings

def fileName : Path := ⟨"style-lint.toml"⟩

/-- The text in the file to which the name leads, if there is one. -/
def currentText? (w : Workspace) : Option (List Char) :=
  (w.read fileName).toOption.bind Text.Utf8.decode?

/-- A file with the starter text is written to the place to which the name leads, and nothing else
changes. -/
structure Creates (w after : Workspace) (place : Place) : Prop where
  leads : w.tree.locate .writing w.current fileName = .ok place
  writes : w.tree.Writes after.tree place (Text.Utf8.encode starter.toList)
  rest : after = { w with tree := after.tree }

end Settings

namespace Program

def createCall (w : Workspace) (force : Bool) : ProgramResult := perform w ⟨.create force, none⟩

def afterCalls (w : Workspace) (forces : List Bool) : Workspace :=
  forces.foldl (fun w force => (createCall w force).workspace) w

end Program

open FileTree Settings Program

variable {w after : Workspace} {force : Bool} {place start : Place} {purpose : Purpose}

/-- A dot and a slash in front of the name make no difference. -/
theorem locate_newFile (tree : FileTree) :
    tree.locate purpose start newFile = tree.locate purpose start fileName := by
  have steps : newFile.steps = .stay :: fileName.steps := by decide
  have name : fileName.steps = [.into "style-lint.toml"] := steps_name (by decide)
  have origin : newFile.origin start = fileName.origin start := rfl
  rw [locate, locate, if_neg (by decide), if_neg (by decide), if_neg (by decide),
    if_neg (by decide), if_neg (by decide), if_neg (by decide), steps, origin, follow, name]
  split
  · rename_i outside
    rw [follow, if_pos outside]
  · rfl

/-- A name that is no link leads for writing to its own place. -/
theorem eq_of_locate_writing {tree : FileTree} {name : String} (isName : IsName name)
    (leads : tree.locate .writing start ⟨name⟩ = .ok place)
    (noLink : ∀ target, tree.at? (start ++ [name]) ≠ some (.link target)) :
    place = start ++ [name] := by
  cases way_of_locate_name isName leads with
  | into _ _ _ _ _ _ onward =>
    cases onward
    rfl
  | through _ _ _ link => exact absurd link (noLink _)
  | link => rfl
  | fresh => rfl

namespace Settings

theorem currentText?_of_read {text : List Char}
    (read : w.read fileName = .ok (Text.Utf8.encode text)) : currentText? w = some text := by
  rw [currentText?, read]
  exact Text.Utf8.decode?_encode text

theorem Creates.currentText? (creates : Creates w after place) :
    Settings.currentText? after = some starter.toList := by
  have located := creates.writes.locate creates.leads
  have current : after.current = w.current := by rw [creates.rest]
  have read : after.read fileName = .ok (Text.Utf8.encode starter.toList) := by
    rw [Workspace.read, current]
    exact read_of_locate located creates.writes.content
  exact currentText?_of_read read

theorem leadsTo_newFile (w : Workspace) : w.leadsTo newFile = w.leadsTo fileName := by
  rw [Workspace.leadsTo, Workspace.leadsTo, leadsTo, leadsTo, locate_newFile]

theorem write_newFile (w : Workspace) (octets : List UInt8) :
    w.write newFile octets = w.write fileName octets := by
  rw [Workspace.write, Workspace.write, write, write, locate_newFile]

/-- Whether a call may write: it is forced, or the name of the file leads nowhere. -/
def MayWrite (w : Workspace) (force : Bool) : Prop := force = true ∨ w.leadsTo fileName = false

/-- Whether a file can be written where the name leads. -/
def IsWritable (w : Workspace) : Prop :=
  ∃ place, w.tree.locate .writing w.current fileName = .ok place ∧
    w.tree.at? place ≠ some .directory

theorem create_of_not_mayWrite (blocked : ¬ MayWrite w force) : create w force = .error .exists := by
  obtain ⟨unforced, there⟩ := not_or.mp blocked
  rw [create, leadsTo_newFile]
  simp_all

theorem create_of_mayWrite (free : MayWrite w force) :
    create w force = (w.write fileName (Text.Utf8.encode starter.toList)).mapError .unwritable := by
  have unguarded : (w.leadsTo fileName && !force) = false := by
    rcases free with forced | nowhere <;> simp [*]
  rw [create, leadsTo_newFile, write_newFile, unguarded, if_neg (by simp)]
  cases w.write fileName (Text.Utf8.encode starter.toList) <;> rfl

/-- Where a call may write and a file can be written, the file is created. -/
theorem exists_creates (free : MayWrite w force) (writable : IsWritable w) :
    ∃ after place, create w force = .ok after ∧ Creates w after place := by
  obtain ⟨place, leads, free'⟩ := writable
  obtain ⟨tree, written, writes⟩ := exists_write leads free' (Text.Utf8.encode starter.toList)
  refine ⟨{ w with tree }, place, ?_, leads, writes, rfl⟩
  rw [create_of_mayWrite free, Workspace.write, written]
  rfl

/-- Where a call may write but no file can be written, it fails. -/
theorem exists_error (free : MayWrite w force) (stuck : ¬ IsWritable w) :
    ∃ error, create w force = .error error := by
  rw [create_of_mayWrite free, Workspace.write]
  cases written : w.tree.write w.current fileName (Text.Utf8.encode starter.toList) with
  | error error => exact ⟨.unwritable error, rfl⟩
  | ok tree => exact absurd (write_eq_ok_iff.mp ⟨tree, written⟩) stuck

/-- A file that the name does not lead to is not there to be replaced. -/
theorem Creates.at?_eq_none (creates : Creates w after place)
    (nowhere : w.leadsTo fileName = false) : w.tree.at? place = none := by
  cases there : w.tree.at? place with
  | none => rfl
  | some entry =>
    obtain ⟨octets, rfl⟩ := creates.writes.before entry there
    have same : w.tree.Writes w.tree place octets :=
      ⟨creates.writes.before, there, fun _ _ => rfl⟩
    rw [Workspace.leadsTo, leadsTo_of_locate (same.locate creates.leads)] at nowhere
    cases nowhere

end Settings

namespace Program

/-- A call creates the file if it may write and a file can be written, and changes nothing
otherwise. -/
theorem createCall_cases (w : Workspace) (force : Bool) :
    (MayWrite w force ∧ IsWritable w ∧ (createCall w force).status = .success ∧
      ∃ place, Creates w (createCall w force).workspace place) ∨
    (¬ (MayWrite w force ∧ IsWritable w) ∧ (createCall w force).status = .error ∧
      (createCall w force).workspace = w) := by
  rw [createCall, perform]
  by_cases free : MayWrite w force
  · by_cases writable : IsWritable w
    · obtain ⟨after, place, done, creates⟩ := exists_creates free writable
      simp only [done]
      exact .inl ⟨free, writable, rfl, place, creates⟩
    · obtain ⟨error, done⟩ := exists_error free writable
      simp only [done]
      exact .inr ⟨fun both => writable both.2, rfl, rfl⟩
  · simp only [create_of_not_mayWrite free]
    exact .inr ⟨fun both => free both.1, rfl, rfl⟩

variable {forces earlier later : List Bool} {octets : List UInt8}

theorem afterCalls_append (w : Workspace) (earlier : List Bool) (force : Bool)
    (later : List Bool) : afterCalls w (earlier ++ force :: later) =
      afterCalls (createCall (afterCalls w earlier) force).workspace later := by
  simp [afterCalls]

/-- No call changes the starter text. -/
theorem currentText?_createCall (starting : currentText? w = some starter.toList) (force : Bool) :
    currentText? (createCall w force).workspace = some starter.toList := by
  rcases createCall_cases w force with ⟨-, -, -, place, creates⟩ | ⟨-, -, unchanged⟩
  · exact creates.currentText?
  · rwa [unchanged]

/-- Once the starter is there, no further call changes it, forced or not. -/
theorem currentText?_afterCalls (starting : currentText? w = some starter.toList)
    (forces : List Bool) : currentText? (afterCalls w forces) = some starter.toList := by
  induction forces generalizing w with
  | nil => exact starting
  | cons force rest ih => exact ih (currentText?_createCall starting force)

/-- A call that changes what a file holds is forced and writes to this file. -/
theorem forced_of_replaced (there : w.tree.at? place = some (.file octets))
    (replaced : (createCall w force).workspace.tree.at? place ≠ some (.file octets)) :
    force = true ∧ (createCall w force).status = .success ∧
      Creates w (createCall w force).workspace place := by
  rcases createCall_cases w force with ⟨free, -, status, target, creates⟩ | ⟨-, -, unchanged⟩
  · by_cases same : place = target
    · obtain rfl := same
      refine ⟨free.resolve_right fun nowhere => ?_, status, creates⟩
      rw [creates.at?_eq_none nowhere] at there
      cases there
    · exact absurd ((creates.writes.same place same).trans there) replaced
  · rw [unchanged] at replaced
    exact absurd there replaced

/-- What a file holds stays up to a call that is forced and writes to this file. -/
theorem exists_forced_call (there : w.tree.at? place = some (.file octets))
    (replaced : (afterCalls w forces).tree.at? place ≠ some (.file octets)) :
    ∃ earlier later, forces = earlier ++ true :: later ∧
      (afterCalls w earlier).tree.at? place = some (.file octets) ∧
      (createCall (afterCalls w earlier) true).status = .success ∧
      Creates (afterCalls w earlier) (createCall (afterCalls w earlier) true).workspace place := by
  induction forces generalizing w with
  | nil => exact absurd there replaced
  | cons force rest ih =>
    by_cases kept : (createCall w force).workspace.tree.at? place = some (.file octets)
    · obtain ⟨earlier, later, rfl, onward⟩ := ih kept replaced
      exact ⟨force :: earlier, later, rfl, onward⟩
    · obtain ⟨rfl, done⟩ := forced_of_replaced there kept
      exact ⟨[], rest, rfl, there, done⟩

/-- Over any number of calls: a call that is not forced fails where the name of the file leads to
anything. A call succeeds if it may write and a file can be written, and fails otherwise. A call that
fails changes nothing. One that succeeds leaves the starter text, which no later call changes, and
changes only the file to which the name leads; that is the one of this name in the working directory
unless a link lies there. So what a file holds is replaced only by a call that is forced and
succeeds. -/
theorem creations_replace_only_by_force (w : Workspace) (forces : List Bool) :
    (∀ earlier force later, forces = earlier ++ force :: later →
      let before := afterCalls w earlier
      let result := createCall before force
      (force = false → before.leadsTo fileName = true → result.status = .error) ∧
      (result.status = .success ↔ MayWrite before force ∧ IsWritable before) ∧
      (result.status ≠ .success → result.status = .error ∧ result.workspace = before) ∧
      (result.status = .success →
        currentText? result.workspace = some starter.toList ∧
        currentText? (afterCalls w forces) = some starter.toList ∧
        ∃ place, Creates before result.workspace place ∧
          (force = false → before.tree.at? place = none) ∧
          ((∀ target, before.tree.at? (before.current ++ ["style-lint.toml"]) ≠
              some (.link target)) → place = before.current ++ ["style-lint.toml"]))) ∧
    ∀ place octets, w.tree.at? place = some (.file octets) →
      (afterCalls w forces).tree.at? place ≠ some (.file octets) →
      ∃ earlier later, forces = earlier ++ true :: later ∧
        (afterCalls w earlier).tree.at? place = some (.file octets) ∧
        (createCall (afterCalls w earlier) true).status = .success ∧
        Creates (afterCalls w earlier) (createCall (afterCalls w earlier) true).workspace place := by
  refine ⟨fun earlier force later cut => ?_, fun place octets => exists_forced_call⟩
  subst cut
  dsimp only
  rw [afterCalls_append]
  generalize afterCalls w earlier = before
  rcases createCall_cases before force with
    ⟨free, writable, status, place, creates⟩ | ⟨stuck, status, unchanged⟩
  · rw [status]
    refine ⟨fun unforced there => ?_, by simp [free, writable], by simp, fun _ => ?_⟩
    · rcases free with forced | nowhere
      · cases unforced.symm.trans forced
      · cases there.symm.trans nowhere
    · refine ⟨creates.currentText?, currentText?_afterCalls creates.currentText? later, place,
        creates, fun unforced => ?_, eq_of_locate_writing (by decide) creates.leads⟩
      exact creates.at?_eq_none (free.resolve_left (by simp [unforced]))
  · rw [status]
    exact ⟨fun _ _ => rfl, by simp [stuck], fun _ => ⟨rfl, unchanged⟩, by simp⟩

/-- In a directory where the name is a link that leads nowhere, the first call writes through it, the
second one fails, and a forced one leaves the same text. -/
theorem creations_replace_only_by_force_through_link :
    let w : Workspace := { tree := .nest [], current := ["a", "b"] }
    [false, false, true] = [] ++ false :: [false, true] ∧
      (createCall w false).status = .success ∧
      currentText? (afterCalls w [false, false, true]) = some starter.toList := by
  intro w
  have nowhere : w.leadsTo fileName = false := by
    refine Bool.eq_false_iff.mpr fun leads => ?_
    rw [Workspace.leadsTo, leadsTo] at leads
    cases located : w.tree.locate .target w.current fileName with
    | ok place => exact locate_target_nest [] place located
    | error error => simp [located] at leads
  have writable : IsWritable w := ⟨["style-lint.toml"], locate_writing_nest [], by decide⟩
  obtain ⟨calls, -⟩ := creations_replace_only_by_force w [false, false, true]
  obtain ⟨-, succeeds, -, done⟩ := calls [] false [false, true] rfl
  have status := succeeds.mpr ⟨.inr nowhere, writable⟩
  exact ⟨rfl, status, (done status).2.1⟩

end Program

end LineLint
