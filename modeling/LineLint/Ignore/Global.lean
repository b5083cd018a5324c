import LineLint.Text.Utf8
import LineLint.Workspace

/-! # The ignore file of the user

The configuration of git may name a file of patterns that hold everywhere; if it names none, that
file has a usual place. The configuration in the home directory is looked at first, and then the one
in the directory of configuration files. Neither is read section by section: what counts is the
first `excludesFile = ..` that begins a line, with a value that ends one. Spaces may stand around
every part, ends of lines are spaces too, and the value may stand in quotation marks.
-/

namespace LineLint.Ignore.Global

def isSpace (octet : UInt8) : Bool := octet == 0x20 || 0x09 ≤ octet && octet ≤ 0x0D

def afterSpaces (octets : List UInt8) : List UInt8 := octets.dropWhile isSpace

/-- What stands behind an octet, if that comes first behind spaces. -/
def after? (octet : UInt8) (octets : List UInt8) : Option (List UInt8) :=
  match afterSpaces octets with
  | [] => none
  | first :: rest => if first = octet then some rest else none

def toLower (octet : UInt8) : UInt8 :=
  if 0x41 ≤ octet ∧ octet ≤ 0x5A then octet + 0x20 else octet

/-- What stands behind the key, if that comes first, up to ASCII case. -/
def afterKey? (octets : List UInt8) : Option (List UInt8) :=
  let key := Text.Utf8.encode "excludesfile".toList
  if (octets.take key.length).map toLower = key then some (octets.drop key.length) else none

/-- Whether a line ends within the spaces at the front. -/
def endsLine (octets : List UInt8) : Bool :=
  (octets.takeWhile isSpace).contains 0x0A || octets.all isSpace

/-- Whether a value may end here: a line ends, perhaps behind a quotation mark. -/
def endsValue (octets : List UInt8) : Bool := endsLine octets || (after? 0x22 octets).any endsLine

/-- The shortest value at the front. It holds no space. -/
def value? : List UInt8 → Option (List UInt8)
  | [] => none
  | octet :: rest =>
    if isSpace octet then none
    else if endsValue rest then some [octet]
    else (value? rest).map (octet :: ·)

/-- The value that is assigned at the front of a line. A quotation mark in front belongs to the value
only where nothing follows that could be one without it. -/
def assigned? (octets : List UInt8) : Option (List UInt8) := do
  let rest ← afterKey? (afterSpaces octets)
  let rest ← after? 0x3D rest
  ((after? 0x22 rest).bind fun inside => value? (afterSpaces inside)).or (value? (afterSpaces rest))

/-- What follows each line feed. -/
def afterBreaks : List UInt8 → List (List UInt8)
  | [] => []
  | octet :: rest => if octet = 0x0A then rest :: afterBreaks rest else afterBreaks rest

/-- The name of an ignore file in a configuration. -/
def excludesFile? (octets : List UInt8) : Option (List UInt8) :=
  (octets :: afterBreaks octets).findSome? assigned?

/-- A name as a path: every `~` stands for the home directory. -/
def expand (home : Home) (name : List Char) : Path :=
  match home.directory with
  | none => ⟨String.ofList name⟩
  | some directory =>
    ⟨String.ofList (name.flatMap fun c => if c = '~' then directory.text.toList else [c])⟩

/-- The path of the ignore file that a configuration names, if it can be read. -/
def namedIn? (w : Workspace) (configuration : Path) : Option Path := do
  let octets ← (w.read configuration).toOption
  let name ← excludesFile? octets
  return expand w.home (← Text.Utf8.decode? name)

/-- The configurations of git, the one that wins first. -/
def configurations (home : Home) : List Path :=
  (home.directory.map (·.join ".gitconfig")).toList ++
    (home.configurationDirectory?.map (·.join "git/config")).toList

/-- The path of the ignore file that is named somewhere. -/
def named? (w : Workspace) : Option Path := (configurations w.home).findSome? (namedIn? w)

def path? (w : Workspace) : Option Path :=
  (named? w).or (w.home.configurationDirectory?.map (·.join "git/ignore"))

end LineLint.Ignore.Global
