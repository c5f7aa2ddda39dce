import Wiretap.IoError

/-! File systems as plain values: which directories there are, which files and with what contents, and
the directory that relative paths start from. Places are lists of names from the root. All names of a
path but the last are walked through directories; what the last one names is then looked up, or created
there. A path that ends in a slash names a directory, so that no file is created at it. -/

namespace Wiretap

abbrev Place := List String

structure FileSystem where
  workingDirectory : Place
  directories : List Place
  files : List (Place × ByteArray)

/-- Text cut at each separator. -/
def splitAt (separator : Char) : List Char → List (List Char)
  | [] => [[]]
  | c :: cs =>
    match splitAt separator cs with
    | [] => [[c]]
    | part :: parts => if c = separator then [] :: part :: parts else (c :: part) :: parts

theorem splitAt_ne_nil (separator : Char) (cs : List Char) : splitAt separator cs ≠ [] := by
  cases cs with
  | nil => simp [splitAt]
  | cons c cs =>
    simp only [splitAt]
    split
    · simp
    · split <;> simp

/-- A name inside a directory, with one slash between the two. -/
def joinPath (directory name : String) : String :=
  if directory = "" ∨ directory.toList.getLast? = some '/' then directory ++ name
  else directory ++ "/" ++ name

/-- What stands at a place. -/
inductive Entry
  | directory
  | file (contents : ByteArray)

/-- A path cut into the directories it goes through and the name it ends with. It has no such name if
it ends in `.` or `..`, or is the root: then it stands for the directory that it went to. -/
structure Route where
  directories : List String
  name : Option String
  endsInSlash : Bool
deriving DecidableEq, Repr

def Route.ofPath (path : String) : Route :=
  let names := ((splitAt '/' path.toList).map String.ofList).reverse
  match names.dropWhile (· = "") with
  | [] => ⟨[], none, true⟩
  | last :: before =>
    if last = "." ∨ last = ".." then ⟨(last :: before).reverse, none, names.head? = some ""⟩
    else ⟨before.reverse, some last, names.head? = some ""⟩

namespace FileSystem

def hasDirectory (fs : FileSystem) (p : Place) : Bool := p = [] || fs.directories.contains p

def file? (fs : FileSystem) (p : Place) : Option ByteArray :=
  (fs.files.find? (·.1 = p)).map Prod.snd

def entry? (fs : FileSystem) (p : Place) : Option Entry :=
  if fs.hasDirectory p then some .directory else (fs.file? p).map .file

/-- The place of a name in a directory. -/
def placeIn (here : Place) (name : String) : Except SystemError Place :=
  if name.utf8ByteSize > 255 then .error .nameTooLong else .ok (here ++ [name])

/-- Goes from a directory to another; every name on the way has to be that of a directory. -/
def walk (fs : FileSystem) (here : Place) : List String → Except SystemError Place
  | [] => .ok here
  | name :: names =>
    if name = "" ∨ name = "." then fs.walk here names
    else if name = ".." then fs.walk here.dropLast names
    else
      match placeIn here name with
      | .error e => .error e
      | .ok next =>
        match fs.entry? next with
        | some .directory => fs.walk next names
        | some (.file _) => .error .notDirectory
        | none => .error .noEntry

/-- The directory that a path goes through last, with its route. -/
def follow (fs : FileSystem) (path : String) : Except IoError (Place × Route) :=
  if path.contains '\x00' then
    .error (.told .invalidInput "file name contained an unexpected NUL byte")
  else if path = "" then .error (.system .noEntry)
  else if path.utf8ByteSize ≥ 4096 then .error (.system .nameTooLong)
  else
    let route := Route.ofPath path
    let start := if path.startsWith "/" then [] else fs.workingDirectory
    ((fs.walk start route.directories).map (·, route)).mapError .system

/-- What a route leads to that has come to its last directory. -/
def entryAt (fs : FileSystem) (here : Place) (route : Route) : Except SystemError Entry :=
  match route.name with
  | none => .ok .directory
  | some name => do
    match fs.entry? (← placeIn here name) with
    | some .directory => .ok .directory
    | some (.file contents) =>
      if route.endsInSlash then .error .notDirectory else .ok (.file contents)
    | none => .error .noEntry

def lookUp (fs : FileSystem) (path : String) : Except IoError Entry := do
  let (here, route) ← fs.follow path
  (fs.entryAt here route).mapError .system

def isDirectory (fs : FileSystem) (path : String) : Bool :=
  match fs.lookUp path with
  | .ok .directory => true
  | _ => false

def read (fs : FileSystem) (path : String) : Except IoError ByteArray := do
  match ← fs.lookUp path with
  | .file contents => .ok contents
  | .directory => .error (.system .isDirectory)

/-- Puts a file at a place, or replaces the one there. -/
def put (fs : FileSystem) (p : Place) (contents : ByteArray) : FileSystem :=
  { fs with files := (p, contents) :: fs.files.filter (·.1 ≠ p) }

/-- The place for a file at the end of a route that has come to its last directory. A slash there asks
for a directory, whatever the name before it: that name is not looked at, be it a file's, absent or too
long. -/
def placeForFile (fs : FileSystem) (here : Place) (route : Route) : Except SystemError Place :=
  match route.name, route.endsInSlash with
  | some name, false => do
    let p ← placeIn here name
    if fs.hasDirectory p then .error .isDirectory else .ok p
  | _, _ => .error .isDirectory

/-- Creates an empty file, or empties the one there. -/
def create (fs : FileSystem) (path : String) : Except IoError (Place × FileSystem) := do
  let (here, route) ← fs.follow path
  let p ← (fs.placeForFile here route).mapError .system
  .ok (p, fs.put p .empty)

theorem file?_put (fs : FileSystem) (p : Place) (contents : ByteArray) :
    (fs.put p contents).file? p = some contents := by
  simp [put, file?]

end FileSystem

end Wiretap
