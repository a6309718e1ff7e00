/-!
# Paths

A path is a text whose parts stand between slashes. A path that begins with a slash starts from the
root, any other from the working directory. Empty parts count for nothing. `.` and `..` are parts as
others are: each is taken from a directory that is there, and leads to that directory itself or to
the one above it.

Where the parts lead is a *place*: the names on the way to it from the working directory, as in
`["a", "b"]`, from above it, as in `["..", "b"]`, or from the root, as in `["", "b"]`.
-/

namespace DurableKV.Path

/-! ## Parts -/

/-- The parts of a path between its slashes, empty ones included. -/
def splitSlashes : List Char → List (List Char)
  | [] => [[]]
  | c :: cs =>
    if c = '/' then [] :: splitSlashes cs
    else
      match splitSlashes cs with
      | [] => [[c]]
      | part :: parts => (c :: part) :: parts

/-- Does a path start from the root? -/
def isAbsolute (path : String) : Bool := path.toList.head? == some '/'

/-- Does a path end in a slash? It then stands for a directory. -/
def endsInSlash (path : String) : Bool := path.toList.getLast? == some '/'

/-- The parts of a path that count. A path from the root begins with an empty part of its own. -/
def parts (path : String) : List String :=
  let written := (splitSlashes path.toList).filter (· ≠ [])
  (if isAbsolute path then [""] else []) ++ written.map String.ofList

/-- A directory and a path in it as one path. A path from the root stays as it is. -/
def join (folder path : String) : String :=
  if isAbsolute path then path
  else if folder = "" ∨ endsInSlash folder then folder ++ path
  else folder ++ "/" ++ path

/-! ## Places -/

/-- The place above a place. Nothing is above the root. -/
def up (place : List String) : List String :=
  if place = [""] then place
  else if place.all (· == "..") then place ++ [".."]
  else place.dropLast

/-- One part further. -/
def step (place : List String) (part : String) : List String :=
  if part = "." then place else if part = ".." then up place else place ++ [part]

/-- Where parts lead if all on the way are directories. -/
def resolve (ps : List String) : List String := ps.foldl step []

/-- The key of a place: its names with slashes between them. -/
def key (place : List String) : String := String.intercalate "/" place

/-- A path that leads to a place. -/
def ofPlace (place : List String) : String :=
  if place = [] then "." else if place = [""] then "/" else key place

/-! ## The directories above a path -/

/-- Does a part name something? The empty part and `.` do not. -/
def isNamed (part : List Char) : Bool := part ≠ [] ∧ part ≠ ['.']

/-- The beginning of a path that is no part to be taken away: the first slash of a path from the
root, or a leading `.`. -/
def lead (path : String) : String :=
  if isAbsolute path then "/"
  else if path = "." ∨ ['.', '/'].isPrefixOf path.toList then "."
  else ""

/-- The paths up to each named part, longest first, and last what is left without any; the parts are
given from the last to the first. -/
def waysUp (lead : String) : List (List Char) → List String
  | [] => if lead = "." then [".", ""] else [lead]
  | part :: parts =>
    if isNamed part then
      (lead ++ String.ofList (List.intercalate ['/'] (part :: parts).reverse)) :: waysUp lead parts
    else waysUp lead parts

/-- The directories that a path stands in, nearest first, as the path itself writes them. The
working directory of a path that does not name it is the empty path. The empty path and the root
stand in nothing. -/
def above (path : String) : List String :=
  let lead := lead path
  let parts := (splitSlashes (path.toList.drop lead.length)).reverse
  match parts.dropWhile (! isNamed ·) with
  | [] => if lead = "." then [""] else []
  | _ :: parts => waysUp lead parts

/-- The directory that a path stands in. -/
def parent? (path : String) : Option String := (above path).head?

end DurableKV.Path
