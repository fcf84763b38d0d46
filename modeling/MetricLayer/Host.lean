import MetricLayer.Settings.Expansion

namespace MetricLayer

inductive Unreadable where
  | directory
  | notText
  | denied
deriving DecidableEq, Repr

def Unreadable.message : Unreadable → String
  | directory => "Is a directory (os error 21)"
  | notText => "stream did not contain valid UTF-8"
  | denied => "Permission denied (os error 13)"

abbrev PathEntry := Except Unreadable String

namespace Environment

/-- What an entry of the environment, the text `held=value`, has to say about a name: the rest of
the entry, if it starts with the name and an equals sign. -/
def entryValue? (name : String) (entry : String × String) : Option String :=
  let start := (name ++ "=").toList
  let text := (entry.1 ++ "=" ++ entry.2).toList
  if start.isPrefixOf text then some (String.ofList (text.drop start.length)) else none

/-- The environment that a list of entries makes. The first entry that fits counts, and there is no
variable without a name. -/
def ofEntries (entries : List (String × String)) : Environment := fun name =>
  if name = "" then none else entries.findSome? (entryValue? name)

end Environment

structure Host (m : Type → Type) where
  getVariable : String → m (Option String)
  entry? : String → m (Option PathEntry)

namespace Host

/-- The environment as far as these variables go. -/
def environment {m : Type → Type} [Monad m] (host : Host m) (names : List String) :
    m Environment := do
  let values ← names.mapM fun name => do
    let value ← host.getVariable name
    return (name, value)
  return fun name => (values.lookup name).join

def components (path : String) : List String := path.splitOn "/"

def fileName? (path : String) : Option String :=
  match ((components path).filter fun part => part ≠ "" ∧ part ≠ ".").getLast? with
  | some ".." => none
  | name => name

/-- What follows the last point of a file name, unless the name starts with that point. -/
def extension (path : String) : String :=
  match fileName? path with
  | none => ""
  | some name =>
      let reversed := name.toList.reverse
      let ending := reversed.takeWhile (· ≠ '.')
      match reversed.dropWhile (· ≠ '.') with
      | [] | [_] => ""
      | _ => String.ofList ending.reverse

def configDirectory? (environment : Environment) : Option String :=
  match (environment "XDG_CONFIG_HOME").filter (fun path => path.toList.head? = some '/') with
  | some path => some path
  | none => ((environment "HOME").filter (· ≠ "")).map (· ++ "/.config")

end Host

/-- A directory that is given as a whole: its files by their paths, each with its text if its bytes
are one, and directories without files. -/
structure FileTree where
  files : List (List String × Option String)
  directories : List (List String)

namespace FileTree

def isDirectory (tree : FileTree) (path : List String) : Bool :=
  path.isEmpty || tree.directories.contains path ||
    tree.files.any fun file => path.isPrefixOf file.1 && path.length < file.1.length

def entryAt? (tree : FileTree) (path : List String) : Option PathEntry :=
  match tree.files.lookup path with
  | some content => some (content.elim (.error .notText) .ok)
  | none => if tree.isDirectory path then some (.error .directory) else none

/-- Where a path leads: to a place in the tree, or above it. -/
inductive Place where
  | inside (path : List String)
  | above
deriving DecidableEq, Repr

/-- Follows the components of a path. Every step starts in a directory. Above the tree nothing is
known but that there are directories. -/
def walk? (tree : FileTree) : Place → List String → Option Place
  | place, [] => some place
  | .above, part :: rest =>
      if part = "" ∨ part = "." ∨ part = ".." then tree.walk? .above rest else none
  | .inside path, part :: rest =>
      if !tree.isDirectory path then none
      else if part = "" ∨ part = "." then tree.walk? (.inside path) rest
      else if part = ".." then
        tree.walk? (if path.isEmpty then .above else .inside path.dropLast) rest
      else
        let next := path ++ [part]
        if (tree.entryAt? next).isSome then tree.walk? (.inside next) rest else none

def entryOf? (tree : FileTree) : Place → Option PathEntry
  | .inside path => tree.entryAt? path
  | .above => some (.error .directory)

def entry? (tree : FileTree) (path : String) : Option PathEntry :=
  if path = "" then none
  else
    let start := if path.toList.head? = some '/' then .above else .inside []
    tree.walk? start (Host.components path) >>= tree.entryOf?

def host (tree : FileTree) (environment : Environment) : Host Id := ⟨environment, tree.entry?⟩

end FileTree

end MetricLayer
