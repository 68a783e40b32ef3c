/-!
# Files

The files that configurations are read from form a tree of directories under the current
one.  A path is followed segment by segment; it leads nowhere when it goes on below a file.
Outside the tree, only the directories above the current one are known.
-/

namespace Stencil

/-- The segments of a path. -/
def pathSegments : List Char → List (List Char)
  | [] => [[]]
  | c :: rest =>
    if c = '/' then [] :: pathSegments rest
    else
      match pathSegments rest with
      | first :: others => (c :: first) :: others
      | [] => [[c]]

/-- The segment of the directory itself. -/
def isHere (segment : List Char) : Bool :=
  segment.isEmpty || segment == ['.']

/-- The segment of the directory above. -/
def isAbove (segment : List Char) : Bool :=
  segment == ['.', '.']

/-- A place in the tree with a segment followed, whether or not anything is there: the
directory above the outermost one is written as itself. -/
def followSegment (place : List (List Char)) (segment : List Char) : List (List Char) :=
  if isHere segment then place
  else if isAbove segment then
    match place.getLast? with
    | some last => if isAbove last then place ++ [segment] else place.dropLast
    | none => [segment]
  else place ++ [segment]

/-- The segments of a path with the steps up and down taken off against each other. -/
def plainPath (path : String) : List (List Char) :=
  (pathSegments path.toList).foldl followSegment []

/-- The files of a tree, by the segments of their paths. -/
structure Files where
  contents : List (List (List Char) × String)

namespace Files

/-- A place that a path leads to. -/
inductive Place where
  /-- A place in the tree. -/
  | inside (segments : List (List Char))
  /-- A directory above the tree. -/
  | above

/-- What a path leads to. -/
inductive Item where
  | file (text : String)
  | directory

/-- The files of some paths; of a path given again, the last text counts. -/
def ofPairs (files : List (String × String)) : Files :=
  ⟨files.reverse.map fun (path, text) => (plainPath path, text)⟩

/-- The text of the file at a place. -/
def textAt? (files : Files) (place : List (List Char)) : Option String :=
  files.contents.lookup place

/-- Whether a place is a directory. -/
def isDirectory (files : Files) (place : List (List Char)) : Bool :=
  place.isEmpty || files.contents.any fun file =>
    place.length < file.1.length && place.isPrefixOf file.1

/-- The place that one more segment of a path leads to. -/
def follow? (files : Files) (segment : List Char) : Place → Option Place
  | .above => if isHere segment || isAbove segment then some .above else none
  | .inside place =>
    if !files.isDirectory place then none
    else if isHere segment then some (.inside place)
    else if !isAbove segment then some (.inside (place ++ [segment]))
    else if place.isEmpty then some .above
    else some (.inside place.dropLast)

/-- The place that a path leads to.  A path that begins with a slash starts at the outermost
directory, which is above the current one. -/
def place? (files : Files) (path : List Char) : Option Place :=
  let start : Place := if path.head? = some '/' then .above else .inside []
  (pathSegments path).foldlM (fun place segment => files.follow? segment place) start

/-- What is at a place. -/
def itemAt? (files : Files) : Place → Option Item
  | .above => some .directory
  | .inside place =>
    match files.textAt? place with
    | some text => some (.file text)
    | none => if files.isDirectory place then some .directory else none

/-- What a path leads to.  The empty path leads nowhere. -/
def item? (files : Files) (path : String) : Option Item :=
  if path.isEmpty then none else (files.place? path.toList).bind files.itemAt?

end Files

/-- The extension of a path: the last segment from its last point on, unless the point
begins the segment. -/
def extensionOf (path : String) : List Char :=
  let name := ((pathSegments path.toList).filter fun segment => !segment.isEmpty).getLast?.getD []
  let beforeLast := (name.reverse.dropWhile (· != '.')).drop 1
  if beforeLast.isEmpty || isAbove name then []
  else '.' :: (name.reverse.takeWhile (· != '.')).reverse

end Stencil
