/-!
# Paths

A path is a row of names, from the root when it begins with a slash. Empty names and single dots say nothing and are left
out, two dots are kept, and exactly two slashes at the beginning are another root than one. The path with no name at all
is written as a dot.
-/

namespace CalcImage

/-- A path: the slashes of its root and its names. -/
structure Path where
  slashes : Nat
  parts : List String
  deriving DecidableEq, Repr

namespace Path

/-- The name before the first slash, and the names after it. -/
def cut : List Char → List Char × List (List Char)
  | [] => ([], [])
  | c :: cs =>
    let (name, names) := cut cs
    if c = '/' then ([], name :: names) else (c :: name, names)

/-- Names that say something. -/
def isTelling (name : List Char) : Bool := name != [] && name != ['.']

/-- The path that a text spells. -/
def ofString (s : String) : Path :=
  let cs := s.toList
  let leading := (cs.takeWhile (· == '/')).length
  let (name, names) := cut cs
  ⟨if leading = 2 then 2 else min leading 1, ((name :: names).filter isTelling).map String.ofList⟩

/-- A path in text. -/
def text (p : Path) : String :=
  if p.slashes = 0 ∧ p.parts = [] then "."
  else String.ofList (List.replicate p.slashes '/') ++ "/".intercalate p.parts

/-- The path begins at the root. -/
def isAbsolute (p : Path) : Bool := p.slashes != 0

/-- The path without its last name. -/
def parent (p : Path) : Path := { p with parts := p.parts.dropLast }

/-- The path `p` as seen from `base`. -/
def resolve (base p : Path) : Path :=
  if p.isAbsolute then p else { base with parts := base.parts ++ p.parts }

/-- The path with a tilde as its first name replaced by the home directory. -/
def expandHome (p home : Path) : Path :=
  match p.slashes, p.parts with
  | 0, "~" :: parts => { home with parts := home.parts ++ parts }
  | _, _ => p

end Path

end CalcImage
