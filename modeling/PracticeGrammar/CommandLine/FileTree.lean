/-! Files and directories as data, and what reading a path finds there. -/

namespace PracticeGrammar.CommandLine

/-- Why a path is not read. -/
inductive ReadFailure where
  | notFound
  | notDirectory
  | isDirectory
  | nameTooLong
  | notText
  /-- Any other reason, in the words of the system. -/
  | other (reason : String)
deriving DecidableEq

def ReadFailure.reason : ReadFailure → String
  | .notFound => "No such file or directory (os error 2)"
  | .notDirectory => "Not a directory (os error 20)"
  | .isDirectory => "Is a directory (os error 21)"
  | .nameTooLong => "File name too long (os error 36)"
  | .notText => "stream did not contain valid UTF-8"
  | .other reason => reason

inductive FileTree where
  | file (octets : ByteArray)
  | directory (entries : List (String × FileTree))

namespace FileTree

/-- Puts a node at a path, in the stead of one already there. Directories on the way are made as
needed; below a file there is no place. -/
def insert (node : FileTree) : List String → FileTree → FileTree
  | [], _ => node
  | name :: rest, .directory entries =>
    let inner := ((entries.find? (·.1 == name)).map (·.2)).getD (.directory [])
    .directory ((name, insert node rest inner) :: entries.filter (·.1 != name))
  | _ :: _, .file octets => .file octets

/-- One step of a path from a place, given as the nodes from there up to the working directory.
Above that lies a directory of which nothing is known, so nothing is found there. -/
def enter (places : List FileTree) (name : String) : Except ReadFailure (List FileTree) :=
  match places with
  | .file _ :: _ => .error .notDirectory
  | _ =>
    if name = "" ∨ name = "." then .ok places
    else if name = ".." then .ok places.tail
    else if 255 < name.utf8ByteSize then .error .nameTooLong
    else match places with
      | .directory entries :: _ =>
        match entries.find? (·.1 == name) with
        | some entry => .ok (entry.2 :: places)
        | none => .error .notFound
      | _ => .error .notFound

/-- The names that a path consists of. -/
def steps (path : String) : List String := (path.toList.splitOn '/').map String.ofList

/-- A directory that holds the given nodes at the given paths. -/
def ofList (nodes : List (String × FileTree)) : FileTree :=
  nodes.foldl (fun tree (path, node) => insert node (steps path) tree) (.directory [])

/-- The octets of the file at a path. Limits on length are those of common file systems. -/
def read (tree : FileTree) (path : String) : Except ReadFailure ByteArray :=
  if path = "" then .error .notFound
  else if 4095 < path.utf8ByteSize then .error .nameTooLong
  else
    let start := if path.toList.head? = some '/' then [] else [tree]
    match (steps path).foldlM enter start with
    | .error failure => .error failure
    | .ok (.file octets :: _) => .ok octets
    | .ok _ => .error .isDirectory

end FileTree
end PracticeGrammar.CommandLine
