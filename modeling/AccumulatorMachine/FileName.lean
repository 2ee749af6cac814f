import AccumulatorMachine.Text.Quoted

/-!
# `AccumulatorMachine.FileName`: the names of files

A name is a row of components between slashes. Before it is used it
is brought to its normal form: empty components and those that are a
single dot are dropped, so that slashes are neither doubled nor at
the end; two dots are kept, since what they lead to depends on the
files. Slashes in front are one if the name has one or more than two
of them, and two if it has two. What has no component left and no
slash in front is a single dot.

The system limits the bytes of a component and of a whole name.
-/

set_option autoImplicit false

namespace AccumulatorMachine

/-- Why a file cannot be opened. -/
inductive FileFault where
  | notFound
  | isDirectory
  | notDirectory
  | nameTooLong
deriving DecidableEq, Repr

/-- A file that cannot be opened: why, and under which name. -/
structure FileError where
  fault : FileFault
  name : String
deriving DecidableEq, Repr

/-- The wording of a fault. -/
def FileFault.message : FileFault → String
  | .notFound => "[Errno 2] No such file or directory"
  | .isDirectory => "[Errno 21] Is a directory"
  | .notDirectory => "[Errno 20] Not a directory"
  | .nameTooLong => "[Errno 36] File name too long"

/-- The wording of an error. -/
def FileError.message (e : FileError) : String :=
  e.fault.message ++ ": " ++ Text.quoted e.name.toList

namespace FileName

/-- The most bytes that a component may have. -/
def componentLimit : Nat := 255

/-- The most bytes that a name may have. -/
def nameLimit : Nat := 4095

/-- The parts of a text between slashes. -/
def split : List Char → List (List Char)
  | [] => [[]]
  | '/' :: rest => [] :: split rest
  | c :: rest =>
    match split rest with
    | [] => [[c]]
    | part :: parts => (c :: part) :: parts

/-- The components of a name: its parts, less those that are empty or
a single dot. -/
def components (name : String) : List String :=
  ((split name.toList).filter fun part => part ≠ [] && part ≠ ['.']).map String.ofList

/-- The slashes in front of the normal form. -/
def root (name : String) : String :=
  match (name.toList.takeWhile (· = '/')).length with
  | 0 => ""
  | 2 => "//"
  | _ => "/"

/-- The normal form of a name. -/
def normal (name : String) : String :=
  let text := root name ++ "/".intercalate (components name)
  if text = "" then "." else text

end FileName

end AccumulatorMachine
