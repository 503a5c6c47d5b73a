import TexFigure.Text.Basic
/-!
# Surroundings

A command reads its input and files, and may write one file. What it does is defined in any monad
that offers these three, so that it runs on the files of a machine as well as on a model of a
directory.
-/

namespace TexFigure.CommandLine

/-- Why a file cannot be read or written. -/
inductive FileFault
  | notFound
  | notDirectory
  | isDirectory
  | nameTooLong
  | other (description : Text)
  deriving DecidableEq, Repr

/-- What is said about a file that cannot be read or written. -/
def FileFault.message : FileFault → Text
  | notFound => "No such file or directory (os error 2)"
  | notDirectory => "Not a directory (os error 20)"
  | isDirectory => "Is a directory (os error 21)"
  | nameTooLong => "File name too long (os error 36)"
  | other description => description

/-- What a command takes from outside, and leaves there. -/
class Surroundings (m : Type → Type) where
  /-- The whole of the standard input. -/
  input : m Text
  /-- The content of a file. -/
  read : Text → m (Except FileFault Text)
  /-- Write a file. -/
  write : Text → Text → m (Except FileFault Unit)

/-! ## A model of a directory -/

/-- The names on the way to a file. -/
abbrev Path := List Text

/-- The names of a path; a dot stands for the same directory. -/
def Path.ofText (text : Text) : Path :=
  (Text.splitOn '/' text).filter fun name => !name.isEmpty && name != ['.']

/-- The largest number of bytes in a name. -/
def nameLimit : Nat := 255

/-- The largest number of bytes in a path. -/
def pathLimit : Nat := 4095

/-- A directory with files, in the order in which they were made. -/
structure Directory where
  files : List (Path × Text) := []

/-- Where a path leads. Of what is outside a directory only the directories above it are known. -/
inductive Place
  | inside (path : Path)
  | above
  deriving DecidableEq, Repr

/-- The directory that holds a place; the uppermost one holds itself. -/
def Place.parent : Place → Place
  | inside [] | above => above
  | inside path => inside path.dropLast

namespace Directory

/-- Whether a path is a directory. -/
def hasDirectory (directory : Directory) (path : Path) : Bool :=
  path.isEmpty || directory.files.any fun file => path.isPrefixOf file.1 && path != file.1

/-- The content of the file at a place, or why there is none. -/
def contentAt (directory : Directory) : Place → Except FileFault Text
  | .above => .error .isDirectory
  | .inside path =>
    match directory.files.lookup path with
    | some content => .ok content
    | none => .error (if directory.hasDirectory path then .isDirectory else .notFound)

/-- Whether a place is a directory. -/
def isDirectory (directory : Directory) : Place → Bool
  | .above => true
  | .inside path => directory.hasDirectory path

/-- Where a name leads to from a place. -/
def step (directory : Directory) (place : Place) (name : Text) : Except FileFault Place :=
  if !directory.isDirectory place then .error .notDirectory
  else if name.isEmpty ∨ name = ['.'] then .ok place
  else if name = ['.', '.'] then .ok place.parent
  else if nameLimit < Text.byteSize name then .error .nameTooLong
  else
    match place with
    | .above => .error .notFound
    | .inside path =>
      let inner := path ++ [name]
      if (directory.files.lookup inner).isSome || directory.hasDirectory inner then
        .ok (.inside inner)
      else .error .notFound

/-- The place where a path starts, and the names on it; what stands behind a slash at the end is
the empty name. -/
def route (name : Text) : Except FileFault (Place × List Text) :=
  if name.isEmpty then .error .notFound
  else if pathLimit < Text.byteSize name then .error .nameTooLong
  else .ok (if name.head? = some '/' then .above else .inside [], Text.splitOn '/' name)

/-- The content of a file. -/
def read (directory : Directory) (name : Text) : Except FileFault Text := do
  let (start, names) ← route name
  directory.contentAt (← names.foldlM directory.step start)

/-- The files after one of them got a new content. -/
def put (path : Path) (content : Text) : List (Path × Text) → List (Path × Text)
  | [] => [(path, content)]
  | (other, old) :: rest =>
    if other = path then (path, content) :: rest else (other, old) :: put path content rest

/-- Write a file of a name into the directory at a place. -/
def writeAt (directory : Directory) (place : Place) (name content : Text) :
    Except FileFault Directory :=
  if !directory.isDirectory place then .error .notDirectory
  else if name.isEmpty ∨ name = ['.'] ∨ name = ['.', '.'] then .error .isDirectory
  else if nameLimit < Text.byteSize name then .error .nameTooLong
  else
    match place with
    | .above => .error .notFound
    | .inside path =>
      let inner := path ++ [name]
      if directory.hasDirectory inner then .error .isDirectory
      else .ok { files := put inner content directory.files }

/-- Write a file into a directory that is there. A path with a slash at its end asks for a
directory. -/
def write (directory : Directory) (name content : Text) : Except FileFault Directory := do
  let (start, names) ← route name
  match names.reverse.dropWhile List.isEmpty with
  | [] => throw .isDirectory
  | last :: before =>
    let place ← before.reverse.foldlM directory.step start
    directory.writeAt place (if name.getLast? = some '/' then [] else last) content

end Directory

/-- A standard input and a directory. -/
structure Desk where
  input : Text := []
  directory : Directory := {}

instance : Surroundings (StateM Desk) where
  input desk := (desk.input, desk)
  read name desk := (desk.directory.read name, desk)
  write name content desk :=
    match desk.directory.write name content with
    | .ok directory => (.ok (), { desk with directory })
    | .error fault => (.error fault, desk)

end TexFigure.CommandLine
