import AccumulatorMachine.FileName

/-!
# `AccumulatorMachine.FileTree`: a directory held in memory

A `FileTree` holds the files and directories below a directory, each
under the components of its name. A name is followed component by
component: two dots lead to the parent directory, and only a
directory can be followed further. A component with too many bytes is
refused when it is looked up in a directory, a name with too many bytes
before any of it is followed. `read` gives the bytes of a file.

Above the directory nothing is known but that there are directories,
so a name that leads out finds nothing else.
-/

set_option autoImplicit false

namespace AccumulatorMachine

/-- What a name stands for. -/
inductive FileEntry where
  | file (bytes : List UInt8)
  | directory
deriving DecidableEq, Repr

/-- The files and directories below a directory, by the components of
their names. The directories on the way to an entry need not be
listed. -/
structure FileTree where
  entries : List (List String × FileEntry)
deriving DecidableEq, Repr

namespace FileTree

/-- The tree of entries given by names. -/
def ofNames (entries : List (String × FileEntry)) : FileTree :=
  ⟨entries.map fun entry => (FileName.components entry.1, entry.2)⟩

/-- What the components of a name stand for. -/
def find? (t : FileTree) (path : List String) : Option FileEntry :=
  match t.entries.lookup path with
  | some entry => some entry
  | none => if path = [] || t.entries.any fun entry => path.isPrefixOf entry.1 then
      some .directory else none

/-- Whether a component has too many bytes. -/
def isTooLong (component : String) : Bool := FileName.componentLimit < component.utf8ByteSize

/-- Follow a name from a place in the tree, or from outside it. -/
def follow (t : FileTree) (place : Option (List String)) :
    List String → Except FileFault (List UInt8)
  | [] =>
    match place.map t.find? with
    | none => .error .isDirectory
    | some none => .error .notFound
    | some (some .directory) => .error .isDirectory
    | some (some (.file bytes)) => .ok bytes
  | component :: rest =>
    match place with
    | none =>
      -- Outside the tree there is nothing but the way up.
      if component = ".." then t.follow none rest
      else .error (if isTooLong component then .nameTooLong else .notFound)
    | some path =>
      match t.find? path with
      | none => .error .notFound
      | some (.file _) => .error .notDirectory
      | some .directory =>
        -- Up from the root of the tree is outside of it.
        if component = ".." then
          t.follow (if path = [] then none else some path.dropLast) rest
        else if isTooLong component then .error .nameTooLong
        else t.follow (some (path ++ [component])) rest

/-- The bytes of a file. -/
def read (t : FileTree) (name : String) : Except FileFault (List UInt8) :=
  if FileName.nameLimit < name.utf8ByteSize then .error .nameTooLong
  else
    let start := if FileName.root name = "" then some [] else none
    t.follow start (FileName.components name)

end FileTree

end AccumulatorMachine
