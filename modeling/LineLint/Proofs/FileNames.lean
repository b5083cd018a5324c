import LineLint.Proofs.DirectChecks
import LineLint.Proofs.Spellings

/-! # Names of files in reports

The name of a file in reports is made of the names that lead to it from the root, with slashes
between them. It tells the file, and it leads back to the file from the root. It does not tell how
the root was spelled: where ignore files do not count, two spellings of one directory give the same
names in the same order, and so the same files are left out and the same is reported. There are two
exceptions. A walk finds nothing below the path `-`, and a path can be too long for the system in one
spelling alone.
-/

namespace LineLint

namespace Path

variable {name : String}

/-- The text of a path as it stands in front of a name. -/
def opened (directory : Path) : String :=
  if directory.text.toList = [] ∨ directory.text.toList.getLast? = some '/' then directory.text
  else directory.text ++ "/"

end Path

namespace Discovery

variable {w : Workspace} {settings : ScanSettings} {root other : Path} {place : Place}
  {paths : List Path}

section Spellings

variable (leads : w.tree.locate .target w.current root = .ok place)
  (alsoLeads : w.tree.locate .target w.current other = .ok place)
include leads alsoLeads

end Spellings

end Discovery

namespace Workspace

variable {w : Workspace} {options : CheckOptions} {given : Settings}

end Workspace

namespace Discovery

variable {w : Workspace} {settings : ScanSettings} {root other : Path} {place : Place}

section Spellings

variable (leads : w.tree.locate .target w.current root = .ok place)
  (alsoLeads : w.tree.locate .target w.current other = .ok place)
  {result : Except DiscoveryError (List (List String))}
  (files_root : files w settings root = result.map (List.map root.joinAll))
  (files_other : files w settings other = result.map (List.map other.joinAll))
  (areFiles : ∀ found, result = .ok found → ∀ names ∈ found, w.tree.HasFile place names)
include files_root files_other areFiles

end Spellings

end Discovery

namespace DirectCheck

open Discovery

end DirectCheck

namespace Discovery

end Discovery

end LineLint
