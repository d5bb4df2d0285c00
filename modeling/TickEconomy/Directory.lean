import TickEconomy.Run
import TickEconomy.Table

/-!
# Directories in memory

Runs can be carried out on a directory that is held in memory: it gives what its files hold
(`Directory.contents`) and takes the files that a run wrote (`Directory.afterRun`), for a next run
to read. A directory has files and folders, each known by its place, the list of names on the way
to it. A path is followed part by part through folders that exist, so two points lead back only out
of a folder that is there (`Directory.locate?`). Writing a file makes the folders on its way.
-/

set_option autoImplicit false
set_option relaxedAutoImplicit false

namespace TickEconomy

/-- The names on the way to a file or folder. -/
abbrev Place :=
  List String

/-- Files and folders held in memory. -/
structure Directory where
  /-- What the files hold. -/
  files : Table Place ByteArray := {}
  /-- The folders, the directory itself aside. -/
  folders : List Place := []

namespace Directory

/-- The place that a part of a path leads to from a folder, unless it leads out of the directory. -/
def stepInto? (place : Place) (part : String) : Option Place :=
  if part = "" ∨ part = "." then some place
  else if part = ".." then (if place.isEmpty then none else some place.dropLast)
  else some (place ++ [part])

/-- There is a folder at the place. -/
def isFolder (directory : Directory) (place : Place) : Bool :=
  place.isEmpty || directory.folders.contains place

/-- The folder that parts of a path lead to, if all folders on the way are there. -/
def follow? (directory : Directory) (place : Place) : List String → Option Place
  | [] => some place
  | part :: later =>
    match stepInto? place part with
    | none => none
    | some next => if directory.isFolder next then directory.follow? next later else none

/-- The place of the file that a path names, if all folders on the way are there. -/
def locate? (directory : Directory) (path : String) : Option Place :=
  if Path.isAbsolute path then none
  else
    match directory.follow? [] (Path.parts path).dropLast with
    | none => none
    | some place => stepInto? place (Path.lastPart path)

/-- What the file of a path holds. -/
def contents (directory : Directory) : FileContents := fun path ↦
  match directory.locate? path with
  | none => none
  | some place => directory.files.get? place

/-- There is a file at the place. -/
def isFile (directory : Directory) (place : Place) : Bool :=
  (directory.files.get? place).isSome

/-- The directory with a folder at the place, unless a file is there. -/
def makeFolder (directory : Directory) (place : Place) : Directory :=
  if directory.isFolder place || directory.isFile place then directory
  else { directory with folders := directory.folders ++ [place] }

/-- The directory with the folders that parts of a path lead through. -/
def makeFolders (directory : Directory) (place : Place) : List String → Directory
  | [] => directory
  | part :: later =>
    match stepInto? place part with
    | none => directory
    | some next => (directory.makeFolder next).makeFolders next later

/-- The directory with a file at the path and the folders on the way to it. A path that leads out of
the directory, through a file or to a folder leaves its files alone. -/
def write (directory : Directory) (path : String) (bytes : ByteArray) : Directory :=
  let prepared := directory.makeFolders [] (Path.parts path).dropLast
  match prepared.locate? path with
  | none => prepared
  | some place =>
    if prepared.isFolder place then prepared
    else { prepared with files := prepared.files.put place bytes }

/-- The directory after a run on it. -/
def afterRun (directory : Directory) (run : Run) : Directory :=
  run.files.foldl (fun reached file ↦ reached.write file.1 file.2.toUTF8) directory

/-- The path of a place. -/
def pathOf (place : Place) : String :=
  "/".intercalate place

end Directory

end TickEconomy
