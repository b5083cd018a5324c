import LineLint.Exclude
import LineLint.Text.Utf8

/-! # Globs of ignore files

A glob is matched against the whole of a relative path, octet by octet. `?` and `*` do not match a
slash. A doubled star matches directories: in front of a slash, between two slashes, or behind one
at the end. A class in brackets matches one octet, and a group in braces any of its branches;
a branch that is empty counts for nothing.
-/

namespace LineLint.Ignore

inductive Part where
  | literal (c : Char)
  /-- `?` -/
  | any
  /-- `*` -/
  | run
  /-- `**` in front of a slash -/
  | leading
  /-- `**` behind a slash at the end -/
  | trailing
  /-- `**` between slashes -/
  | inner
  /-- `[...]`, or `[!...]` if it is negated -/
  | oneOf (negated : Bool) (ranges : List CharRange)
  /-- A group with its branches. -/
  | alternatives (branches : List (List Part))
deriving Repr

/-- The parts of a glob, from left to right. -/
abbrev Glob := List Part

def slash : UInt8 := 0x2F

/-- Whether a range has an octet. The octets of its two characters are taken one by one, and the
range goes from the last octet of the first character to the first octet of the last one. -/
def hasOctet (range : CharRange) (octet : UInt8) : Bool :=
  let low := String.utf8EncodeChar range.first
  let high := String.utf8EncodeChar range.last
  if range.first = range.last then low.contains octet
  else
    low.dropLast.contains octet || high.tail.contains octet ||
      (low.getLast?.any (· ≤ octet) && high.head?.any (octet ≤ ·))

/-- What is left of a path behind each of its slashes. -/
def behindSlashes : List UInt8 → List (List UInt8)
  | [] => []
  | octet :: rest => if octet = slash then rest :: behindSlashes rest else behindSlashes rest

/-- What may be left of a path behind a run of octets other than the slash. -/
def behindRun : List UInt8 → List (List UInt8)
  | [] => [[]]
  | octet :: rest =>
    if octet = slash then [octet :: rest] else (octet :: rest) :: behindRun rest

/-- What is left of a path behind a text at its front, if it is there. -/
def behind (front path : List UInt8) : List (List UInt8) :=
  if front.isPrefixOf path then [path.drop front.length] else []

/-- What is left of a path behind one octet at its front that satisfies `p`. -/
def behindOctet (p : UInt8 → Bool) : List UInt8 → List (List UInt8)
  | [] => []
  | octet :: rest => if p octet then [rest] else []

mutual

/-- Whether a part stands for nothing, because it is a group without a branch that counts. -/
def Part.isVoid : Part → Bool
  | .alternatives branches => areVoid branches
  | _ => false

/-- Whether all parts stand for nothing. -/
def isVoid : List Part → Bool
  | [] => true
  | part :: rest => part.isVoid && isVoid rest

/-- Whether all branches stand for nothing. -/
def areVoid : List (List Part) → Bool
  | [] => true
  | branch :: rest => isVoid branch && areVoid rest

end

mutual

/-- What may be left of a path behind a part at its front. -/
def Part.rests (path : List UInt8) : Part → List (List UInt8)
  | .literal c => behind (String.utf8EncodeChar c) path
  | .any => behindOctet (· != slash) path
  | .run => behindRun path
  | .leading => path :: behindSlashes path
  | .trailing =>
    match path with
    | [] => []
    | octet :: rest => if octet = slash then Exclude.ends rest else []
  | .inner =>
    match path with
    | [] => []
    | octet :: rest => if octet = slash then rest :: behindSlashes rest else []
  | .oneOf negated ranges =>
    behindOctet (fun octet => ranges.any (hasOctet · octet) != negated) path
  | .alternatives branches => if areVoid branches then [path] else restsOfBranches path branches

/-- What may be left of any of some paths behind parts at their fronts. -/
def restsOfAll (paths : List (List UInt8)) : List Part → List (List UInt8)
  | [] => paths
  | part :: rest => restsOfAll (paths.flatMap fun path => part.rests path).eraseDups rest

/-- What may be left of a path behind any of the branches that count. -/
def restsOfBranches (path : List UInt8) : List (List Part) → List (List UInt8)
  | [] => []
  | branch :: rest =>
    (if isVoid branch then [] else restsOfAll [path] branch) ++ restsOfBranches path rest

end

/-- Whether a glob is a single doubled star, which matches everything. -/
def Glob.isEverything : Glob → Bool
  | [.leading] => true
  | _ => false

/-- The characters of a glob that is nothing but characters. -/
def Glob.literals? (glob : Glob) : Option (List Char) :=
  glob.mapM fun
    | .literal c => some c
    | _ => none

/-- Whether a glob ends in a dot and is not compared with whole components. A path that ends in a
dot has no name and no extension to compare such a glob with. -/
def Glob.needsName (glob : Glob) : Bool :=
  match glob.getLast? with
  | some (.literal '.') =>
    match glob with
    | .leading :: rest => !(Glob.literals? rest).any (·.contains '/')
    | _ => (Glob.literals? glob).isNone
  | _ => false

def Glob.isMatch (glob : Glob) (path : List UInt8) : Bool :=
  if glob.isEverything then true
  else if glob.needsName && path.getLast? == some '.'.toUInt8 then false
  else (restsOfAll [path] glob).contains []

end LineLint.Ignore
