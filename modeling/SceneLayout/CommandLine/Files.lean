import SceneLayout.Entries
import SceneLayout.Text.Quoted

/-!
# Files of a run

A run reads and writes files through `FileAccess`, in any monad. `Folder` is an
access in itself: a single folder of text files, in which paths are found as a file
system finds them.

## Implementation notes

A path is walked step by step. The folders around the one that is modelled are
there, but they hold no files: nothing can be read from them, and what is written
into them is not kept.
-/

namespace SceneLayout.CommandLine

/-- Why a file cannot be read or written. -/
inductive FileError where
  | notFound
  | notDirectory
  | isDirectory
  | nameTooLong
  /-- The path holds a null character, so that no system is asked for it. -/
  | nullCharacter
  /-- Another error of the system, with its number and text. -/
  | other (code : Nat) (text : String)

namespace FileError

/-- The number and the text that systems give the error, if they give it. -/
def cause? : FileError → Option (Nat × String)
  | notFound => some (2, "No such file or directory")
  | notDirectory => some (20, "Not a directory")
  | isDirectory => some (21, "Is a directory")
  | nameTooLong => some (36, "File name too long")
  | nullCharacter => none
  | other code text => some (code, text)

/-- The message of the error for a path. -/
def message? (error : FileError) (path : String) : Option String :=
  error.cause?.map fun (code, text) =>
    "[Errno " ++ toString code ++ "] " ++ text ++ ": " ++ quoted path

end FileError

/-- How a run reads and writes. -/
structure FileAccess (m : Type → Type) where
  standardInput : m String
  read : String → m (Except FileError String)
  write : String → String → m (Except FileError Unit)

/-- What a file is opened for. -/
inductive OpenMode where
  | reading
  | writing
deriving DecidableEq

/-- A path as it is walked: where it begins, the names of its steps, and whether a slash ends it. -/
structure Route where
  absolute : Bool
  steps : List String
  slashed : Bool

namespace Route

/-- The most bytes that a name may have. -/
def longestName : Nat := 255

/-- The most bytes that a path may have. -/
def longestPath : Nat := 4095

/-- The route of a path that is not empty. -/
def ofText (text : String) : Route where
  absolute := text.startsWith "/"
  steps := (text.splitOn "/").filter fun step => step != ""
  slashed := text.endsWith "/"

end Route

/-- Where the walk along a path stands. -/
inductive Spot where
  /-- In the folder that is modelled. -/
  | inside
  /-- At the root of the system. -/
  | root
  /-- In the folder of the devices. -/
  | devices
  /-- In another folder. -/
  | elsewhere
deriving DecidableEq

/-- What a path leads to, if it is no folder. -/
inductive Place where
  /-- A name in the folder that is modelled. -/
  | file (name : String)
  /-- The device that reads as empty and keeps nothing. -/
  | nothing
  /-- A name in another folder. -/
  | foreign

/-- What a name at a spot stands for, if it is no folder. -/
def Spot.place : Spot → String → Place
  | inside, name => .file name
  | devices, "null" => .nothing
  | _, _ => .foreign

/-- A folder of text files by name, and the text of the standard input. -/
structure Folder where
  standardInput : String
  files : Entries String

namespace Folder

/-- The folders that stand at the root of a system. -/
def rootFolders : List String :=
  ["bin", "boot", "dev", "etc", "home", "lib", "media", "mnt", "opt", "proc", "root", "run", "sbin",
    "srv", "sys", "tmp", "usr", "var"]

/-- The folder under a spot that a step leads to. -/
def enter (folder : Folder) (spot : Spot) (step : String) : Except FileError Spot :=
  if step = "." then .ok spot
  else if step = ".." then
    match spot with
    | .root => .ok .root
    | .devices => .ok .root
    | _ => .ok .elsewhere
  else if Route.longestName < step.utf8ByteSize then .error .nameTooLong
  else
    match spot with
    | .inside => .error (if Entries.contains folder.files step then .notDirectory else .notFound)
    | .root =>
        if step = "dev" then .ok .devices
        else if rootFolders.contains step then .ok .elsewhere
        else .error .notFound
    | .devices => .error (if step = "null" then .notDirectory else .notFound)
    | .elsewhere => .error .notFound

/-- What the last step of a path leads to. A slash behind it asks for a folder. -/
def finish (folder : Folder) (mode : OpenMode) (slashed : Bool) (spot : Spot) (step : String) :
    Except FileError Place :=
  if mode = .writing && slashed then .error .isDirectory
  else
    match folder.enter spot step with
    | .ok _ => .error .isDirectory
    | .error .nameTooLong => .error .nameTooLong
    | .error error => if slashed then .error error else .ok (spot.place step)

/-- Walks the steps of a path from a spot. -/
def walk (folder : Folder) (mode : OpenMode) (slashed : Bool) (spot : Spot) :
    List String → Except FileError Place
  | [] => .error .isDirectory
  | [step] => folder.finish mode slashed spot step
  | step :: rest =>
      match folder.enter spot step with
      | .ok spot => folder.walk mode slashed spot rest
      | .error error => .error error

/-- What a path leads to. -/
def locate (folder : Folder) (mode : OpenMode) (text : String) : Except FileError Place :=
  if text.contains '\x00' then .error .nullCharacter
  else if Route.longestPath < text.utf8ByteSize then .error .nameTooLong
  else if text.isEmpty then .error .notFound
  else
    let route := Route.ofText text
    folder.walk mode route.slashed (if route.absolute then .root else .inside) route.steps

/-- The text of the file that a path leads to. -/
def read (folder : Folder) (path : String) : Except FileError String :=
  match folder.locate .reading path with
  | .error error => .error error
  | .ok .nothing => .ok ""
  | .ok .foreign => .error .notFound
  | .ok (.file name) =>
      match Entries.find? folder.files name with
      | some text => .ok text
      | none => .error .notFound

/-- The folder with the text of the file that a path leads to. -/
def write (folder : Folder) (path text : String) : Except FileError Folder :=
  match folder.locate .writing path with
  | .error error => .error error
  | .ok (.file name) => .ok { folder with files := Entries.insert name text folder.files }
  | .ok _ => .ok folder

/-- Reading and writing in a folder that is passed along. -/
def access : FileAccess (StateM Folder) where
  standardInput := return (← get).standardInput
  read path := return (← get).read path
  write path text := do
    match (← get).write path text with
    | .ok folder => set folder; return .ok ()
    | .error error => return .error error

end Folder

end SceneLayout.CommandLine
