/-!
Reading files. A `Files` tells for every path what reading it gives; a `Tree` is one that is known
as a whole, with paths taken from its root.
-/
namespace FactFormula

inductive ReadError where
  | notFound
  | notDirectory
  | isDirectory
  | nameTooLong
  | invalidName
  | invalidText
  | other (text : String)
  deriving DecidableEq

def ReadError.text : ReadError → String
  | .notFound => "No such file or directory (os error 2)"
  | .notDirectory => "Not a directory (os error 20)"
  | .isDirectory => "Is a directory (os error 21)"
  | .nameTooLong => "File name too long (os error 36)"
  | .invalidName => "file name contained an unexpected NUL byte"
  | .invalidText => "stream did not contain valid UTF-8"
  | .other text => text

abbrev Files := String → Except ReadError ByteArray

def decodeText (bytes : ByteArray) : Except ReadError String :=
  match String.fromUTF8? bytes with
  | some text => .ok text
  | none => .error .invalidText

def Files.readText (files : Files) (path : String) : Except ReadError String := do
  decodeText (← files path)

/-- The path of a file in a directory; without a directory, its name. -/
def joinPath (dir name : String) : String :=
  if dir = "" ∨ dir.toList.getLast? = some '/' then dir ++ name else dir ++ "/" ++ name

inductive Tree where
  | file (content : ByteArray)
  | directory (entries : List (String × Tree))

namespace Tree

def lookup (name : String) : List (String × Tree) → Option Tree
  | [] => none
  | (key, t) :: rest => if key = name then some t else lookup name rest

/-- Puts an entry in the place of the one that had its name, or last. -/
def replace (name : String) (t : Tree) : List (String × Tree) → List (String × Tree)
  | [] => [(name, t)]
  | (key, u) :: rest => if key = name then (name, t) :: rest else (key, u) :: replace name t rest

def entries : Tree → List (String × Tree)
  | file _ => []
  | directory es => es

/-- Puts `t` at a path, with the directories that lead there. A directory that is there stays. -/
def insert (root : Tree) (path : List String) (t : Tree) : Tree :=
  match path with
  | [] =>
    match t, root with
    | directory [], directory es => directory es
    | _, _ => t
  | name :: rest =>
    let below := (lookup name root.entries).getD (directory [])
    directory (replace name (below.insert rest t) root.entries)

/-- What stands between the slashes of a path. -/
def components (path : List Char) : List (List Char) :=
  match path with
  | [] => [[]]
  | c :: rest =>
    if c = '/' then [] :: components rest
    else
      match components rest with
      | [] => [[c]]
      | part :: parts => (c :: part) :: parts

def names (path : String) : List String := (components path.toList).map String.ofList

/-- Walks along a path, making the directories it leaves again, and puts `t` where it ends. `here`
is the way from the root to where it has come. -/
def place (root : Tree) (t : Tree) (here : List String) : List String → Tree
  | [] => root.insert here t
  | name :: rest =>
    if name = "" ∨ name = "." then place root t here rest
    else if name = ".." then place (root.insert here (directory [])) t here.dropLast rest
    else place root t (here ++ [name]) rest

/-- Puts `t` at a path from the root, which `read` takes to the same place. -/
def put (root : Tree) (path : String) (t : Tree) : Tree := root.place t [] (names path)

/-- Follows a path. `here` is the entry it has come to, with the directories above it; above the
root nothing is known but that it is a directory. -/
def follow (here : List Tree) : List String → Except ReadError ByteArray
  | [] =>
    match here with
    | file content :: _ => .ok content
    | _ => .error .isDirectory
  | name :: rest =>
    match here with
    | file _ :: _ => .error .notDirectory
    | _ =>
      if name = "" ∨ name = "." then follow here rest
      else if name = ".." then follow here.tail rest
      else if 255 < name.utf8ByteSize then .error .nameTooLong
      else
        match here with
        | directory es :: _ =>
          match lookup name es with
          | some t => follow (t :: here) rest
          | none => .error .notFound
        | _ => .error .notFound

def read (root : Tree) : Files := fun path =>
  if path.toList.contains '\x00' then .error .invalidName
  else if 4096 ≤ path.utf8ByteSize then .error .nameTooLong
  else
    match path.toList with
    | [] => .error .notFound
    | '/' :: _ => follow [] (names path)
    | _ => follow [root] (names path)

end Tree

end FactFormula
