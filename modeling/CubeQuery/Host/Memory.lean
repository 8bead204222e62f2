import CubeQuery.Host.Basic
import CubeQuery.Settings.Expansion

/-!
# Hosts in memory

File systems held in memory, and hosts on them. A path leads through directories name by name, as far
as its names are not too long.
-/

namespace CubeQuery

/-- The names in a path; several slashes in a row count as one. -/
def pathNames (path : String) : List String :=
  ((path.splitOn "/").filter fun name => !name.isEmpty)

structure StoredFile where
  names : List String
  text : String

structure Directory where
  files : List StoredFile
  /-- Directories that are there whether files lie below them or not. -/
  folders : List (List String)

inductive Entry where
  | file (text : String)
  | directory

namespace Directory

def empty : Directory := ⟨[], []⟩

def of (files : List (String × String)) (folders : List String) : Directory :=
  ⟨files.map fun (path, text) => ⟨pathNames path, text⟩, folders.map pathNames⟩

def hasFolder (d : Directory) (names : List String) : Bool :=
  (d.files.any fun f => names.length < f.names.length && names.isPrefixOf f.names) ||
    d.folders.any names.isPrefixOf

def entry? (d : Directory) (names : List String) : Option Entry :=
  match d.files.find? (·.names == names) with
  | some f => some (.file f.text)
  | none => if d.hasFolder names then some .directory else none

def maxNameBytes : Nat := 255

/-- Follows the parts of a path from the directory at a position; `above` is what the way out of the
top leads to. -/
def walk (d above : Directory) (position : List String) : List String → Except FileFault Entry
  | [] => .ok .directory
  | part :: rest =>
    if part = "" ∨ part = "." then d.walk above position rest
    else if part = ".." then
      if position.isEmpty then above.walk above [] rest
      else d.walk above position.dropLast rest
    else if maxNameBytes < part.utf8ByteSize then .error .nameTooLong
    else
      match d.entry? (position ++ [part]) with
      | none => .error .missing
      | some .directory => d.walk above (position ++ [part]) rest
      | some (.file text) => if rest.isEmpty then .ok (.file text) else .error .notDirectory

end Directory

/-- A file system as a working directory and the directory at the top; of what lies between them
nothing is seen. -/
structure FileSystem where
  working : Directory
  top : Directory

namespace FileSystem

def endsEarly (text : String) : Bool := text.toList.contains '\x00'

def pathBytesBound : Nat := 4096

def find (fs : FileSystem) (path : String) : Except FileFault Entry :=
  if endsEarly path then .error .endedName
  else if pathBytesBound ≤ path.utf8ByteSize then .error .nameTooLong
  else
    match path.splitOn "/" with
    | [""] => .error .missing
    | "" :: parts => fs.top.walk fs.top [] parts
    | parts => fs.working.walk .empty [] parts

def present (fs : FileSystem) (path : String) : Bool := (fs.find path).isOk

def read (fs : FileSystem) (path : String) : Except FileFault String := do
  match ← fs.find path with
  | .file text => return text
  | .directory => throw .isDirectory

/-- Why a stored file cannot be started as a program; none of them may be run. -/
def startFault (fs : FileSystem) (path : String) : FileFault :=
  match fs.find path with
  | .ok _ => .denied
  | .error fault => fault

/-- The path of a program in a directory; no directory stands for the working one. -/
def programPath (directory program : String) : String :=
  if directory.isEmpty then program else directory ++ "/" ++ program

/-- Why a program is in none of several directories, after a search that ended in `last`. Where it was
found it may not be run, and that counts most; only a fault of the name itself ends the search. -/
def searchFault (fs : FileSystem) (program : String) (denied : Bool) (last : FileFault) :
    List String → FileFault
  | [] => if denied then .denied else last
  | directory :: rest =>
    match fs.startFault (programPath directory program) with
    | .denied => fs.searchFault program true .denied rest
    | .missing => fs.searchFault program denied .missing rest
    | .notDirectory => fs.searchFault program denied .notDirectory rest
    | fault => fault

def defaultSearchPath : String := "/bin:/usr/bin"

/-- The directories that are searched for the given ones. A directory as long as no path may be is
passed over; if others follow it, the working directory takes its place. -/
def searchedDirectories : List String → List String
  | [] => []
  | [directory] => if pathBytesBound ≤ directory.utf8ByteSize then [] else [directory]
  | directory :: rest =>
    (if pathBytesBound ≤ directory.utf8ByteSize then "" else directory) :: searchedDirectories rest

/-- The name that is searched for. A name with more characters is too long wherever it is looked up, so
the rest of it is left out. -/
def searchedName (program : String) : String :=
  .ofList (program.toList.take (Directory.maxNameBytes + 1))

/-- Why a program cannot be started: one without a slash is searched for in the directories of the
search path. -/
def programFault (fs : FileSystem) (searchPath : Option String) (program : String) : FileFault :=
  if program.isEmpty then .missing
  else if program.toList.contains '/' then fs.startFault program
  else
    fs.searchFault (searchedName program) false .missing
      (searchedDirectories ((searchPath.getD defaultSearchPath).splitOn ":"))

end FileSystem

structure Program (σ : Type) where
  path : String
  process : Bridge.Endpoint σ

structure MemoryHost (σ : Type) where
  environment : List (String × String)
  files : FileSystem
  /-- The directory of the user. -/
  home : String
  programs : List (Program σ)
  processes : σ

namespace MemoryHost

variable {σ : Type}

def environmentLines (h : MemoryHost σ) : List String :=
  h.environment.map fun (name, value) => name ++ "=" ++ value

def lookup (h : MemoryHost σ) (name : String) : Option String :=
  Settings.Environment.ofLines h.environmentLines name

def start (h : MemoryHost σ) (program : String) (args : List String) :
    Except FileFault (Bridge.Endpoint σ) :=
  if (program :: args).any FileSystem.endsEarly then .error .endedArgument
  else
    match h.programs.find? (·.path == program) with
    | some p => .ok p.process
    | none => .error (h.files.programFault (h.lookup "PATH") program)

def host (h : MemoryHost σ) : Host Id σ where
  lookup name := h.lookup name
  home := some h.home
  present path := h.files.present path
  read path := h.files.read path
  start program args := h.start program args
  processes := h.processes

end MemoryHost

end CubeQuery
