import RecordQuery.Storage.Error
import RecordQuery.Storage.Path
import RecordQuery.Text.Utf8

/-! A disk of files, directories and links. A place is the list of names from the root; a path
leads to a place by steps through directories, starting at the root or at the current directory,
and a link on the way is followed as if its text stood there in the path. The operations here only
decide what an operation would act on, or why it fails; what happens to the disk is told by
`Change`. -/
namespace RecordQuery

abbrev Place := List String

def Place.follow (place : Place) (name : String) : Place :=
  if name = "." then place else if name = ".." then place.dropLast else place ++ [name]

inductive Node where
  | file (content : Bytes)
  | directory
  | link (text : String)
  deriving DecidableEq, Repr

structure Disk where
  nodes : List (Place × Node)
  current : Place
  deriving DecidableEq, Repr

namespace Disk

def find? (place : Place) : List (Place × Node) → Option Node
  | [] => none
  | entry :: rest => if entry.1 = place then some entry.2 else find? place rest

def node? (disk : Disk) (place : Place) : Option Node :=
  if place = [] then some .directory else find? place disk.nodes

def remove (disk : Disk) (place : Place) : Disk :=
  { disk with nodes := disk.nodes.filter fun entry => entry.1 ≠ place }

def put (disk : Disk) (place : Place) (node : Node) : Disk :=
  { disk.remove place with nodes := (place, node) :: (disk.remove place).nodes }

def maxName : Nat := 255

def pathLimit : Nat := 4096

def maxLinks : Nat := 40

inductive Target where
  | directory
  | entry (parent : Place) (name : String) (slash : Bool)

inductive Course where
  | directory
  | last (parent : Place) (name : String)
  | link (parent : Place) (text : String) (rest : List String)

/-- A link with more of the path after it is always followed. -/
def followed? (disk : Disk) (follows : Bool) (place : Place) (rest : List String) :
    Option String :=
  match disk.node? place with
  | some (.link text) => if follows || !rest.isEmpty then some text else none
  | _ => none

def advance (disk : Disk) (follows : Bool) (place : Place) : List String → Except IoError Course
  | [] => .ok .directory
  | name :: rest =>
    match disk.node? place with
    | none => .error .notFound
    | some (.file _) => .error .notDirectory
    | some (.link _) => .error .notDirectory
    | some .directory =>
      if name = "." ∨ name = ".." then disk.advance follows (place.follow name) rest
      else if maxName < name.utf8ByteSize then .error .nameTooLong
      else
        match disk.followed? follows (place ++ [name]) rest with
        | some text => .ok (.link place text rest)
        | none =>
          if rest = [] then .ok (.last place name)
          else disk.advance follows (place ++ [name]) rest

def steps (path : String) : List String :=
  (Path.names path.toList).map String.ofList

def start (place : Place) (path : String) : Place :=
  if Path.isAbsolute path.toList then [] else place

def resolve (disk : Disk) (follows : Bool) :
    Nat → Place → List String → Bool → Except IoError Target
  | 0, _, _, _ => .error .tooManyLinks
  | links + 1, place, names, slash =>
    (disk.advance follows place names).bind fun course =>
      match course with
      | .directory => .ok .directory
      | .last parent name => .ok (.entry parent name slash)
      | .link parent text rest =>
        if text = "" then .error .notFound
        else
          disk.resolve follows links (start parent text) (steps text ++ rest)
            (slash || (rest.isEmpty && Path.endsInSlash text.toList))

def route (disk : Disk) (follows : Bool) (path : String) : Except IoError Target :=
  if '\x00' ∈ path.toList then .error .nulInPath
  else if path.toList = [] then .error .notFound
  else if pathLimit ≤ path.utf8ByteSize then .error .nameTooLong
  else
    disk.resolve follows (maxLinks + 1) (start disk.current path) (steps path)
      (Path.endsInSlash path.toList)

/-- What a path names; a link at its end is the link itself. -/
def locate (disk : Disk) (path : String) : Except IoError Target :=
  disk.route false path

def reach (disk : Disk) (path : String) : Except IoError Target :=
  disk.route true path

def read (disk : Disk) (path : String) : Except IoError Bytes :=
  (disk.reach path).bind fun target =>
    match target with
    | .directory => .error .isDirectory
    | .entry parent name slash =>
      match disk.node? (parent ++ [name]) with
      | none => .error .notFound
      | some .directory => .error .isDirectory
      | some (.link _) => .error .tooManyLinks
      | some (.file content) => if slash then .error .notDirectory else .ok content

def creation (disk : Disk) (path : String) : Except IoError Place :=
  (disk.reach path).bind fun target =>
    match target with
    | .directory => .error .isDirectory
    | .entry parent name slash =>
      if slash then .error .isDirectory
      else if disk.node? (parent ++ [name]) = some .directory then .error .isDirectory
      else .ok (parent ++ [name])

def source (disk : Disk) (path : String) : Except IoError Place :=
  (disk.locate path).bind fun target =>
    match target with
    | .directory => .error .busy
    | .entry parent name slash =>
      if (disk.node? (parent ++ [name])).isNone then .error .notFound
      else if slash then .error .notDirectory
      else .ok (parent ++ [name])

def destination (disk : Disk) (path : String) : Except IoError Place :=
  (disk.locate path).bind fun target =>
    match target with
    | .directory => .error .busy
    | .entry parent name slash =>
      if slash then .error .notDirectory
      else if disk.node? (parent ++ [name]) = some .directory then .error .isDirectory
      else .ok (parent ++ [name])

def removal? (disk : Disk) (path : String) : Option Place :=
  match disk.locate path with
  | .ok (.entry parent name false) =>
    match disk.node? (parent ++ [name]) with
    | none => none
    | some .directory => none
    | some _ => some (parent ++ [name])
  | _ => none

theorem findFilterOther (nodes : List (Place × Node)) {place other : Place}
    (different : other ≠ place) :
    find? other (nodes.filter fun entry => entry.1 ≠ place) = find? other nodes := by
  induction nodes with
  | nil => rfl
  | cons entry rest ih =>
    by_cases same : entry.1 = place
    · have apart : entry.1 ≠ other := fun here => different (here ▸ same)
      rw [List.filter_cons_of_neg (by simp [same]), ih]
      simp [find?, apart]
    · rw [List.filter_cons_of_pos (by simp [same])]
      simp only [find?, ih]

theorem nodePutSame (disk : Disk) {place : Place} (below : place ≠ []) (node : Node) :
    (disk.put place node).node? place = some node := by
  simp [node?, put, find?, below]

theorem nodePutOther (disk : Disk) {place other : Place} (different : other ≠ place)
    (node : Node) : (disk.put place node).node? other = disk.node? other := by
  unfold node?
  split
  · rfl
  · simp only [put, remove, find?, different.symm, if_false]
    exact findFilterOther disk.nodes different

theorem nodeRemoveOther (disk : Disk) {place other : Place} (different : other ≠ place) :
    (disk.remove place).node? other = disk.node? other := by
  unfold node?
  split
  · rfl
  · exact findFilterOther disk.nodes different

end Disk

inductive Change where
  | created (place : Place)
  | appended (place : Place) (bytes : Bytes)
  | moved (source destination : Place)
  | removed (place : Place)
  deriving DecidableEq, Repr

namespace Disk

def apply (disk : Disk) : Change → Disk
  | .created place => disk.put place (.file [])
  | .appended place bytes =>
    match disk.node? place with
    | some (.file content) => disk.put place (.file (content ++ bytes))
    | _ => disk
  | .moved source destination =>
    match disk.node? source with
    | some node => (disk.remove source).put destination node
    | none => disk
  | .removed place => disk.remove place

def move (disk : Disk) (path other : String) : Except IoError Change :=
  (disk.source path).bind fun place => (disk.destination other).map (.moved place)

def applyAll (disk : Disk) (changes : List Change) : Disk :=
  changes.foldl apply disk

theorem applyAllAppend (disk : Disk) (first second : List Change) :
    disk.applyAll (first ++ second) = (disk.applyAll first).applyAll second := by
  simp [applyAll]

end Disk
end RecordQuery
