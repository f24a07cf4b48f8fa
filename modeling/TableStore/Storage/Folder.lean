import TableStore.Storage.Files

/-!
# Folders in memory

A folder is a tree of files under names; a place in it is the names from the top down. It serves
where a database is kept without a disk, and has the limits of one: a name has at most 255 bytes, a
path fewer than 4096, and the null character stands in neither. One of its folders is home, and a
path that does not begin at the top begins there.

* `Folder.entry?`, `set`   what stands at a place, and something else there;
* `Folder.home`, `start`   the folder that paths begin in, and where a given path begins;
* `Folder.walk?`           where a path leads, through folders that are there;
* `Folder.find`            what stands at a path;
* `Folder.put`             writes a file, making the folders above it.
-/

namespace TableStore

/-- a file, or a folder with what it holds under each name -/
inductive Entry where
  | file (bytes : ByteArray)
  | folder (entries : List (String × Entry))

namespace Entry

/-- what stands at a place below an entry -/
def at? : Entry → List String → Option Entry
  | e, [] => some e
  | file _, _ :: _ => none
  | folder es, name :: names => (es.lookup name).bind fun e => e.at? names

/-- another entry at a place; below a file there is none to change -/
def set (new : Entry) : Entry → List String → Entry
  | _, [] => new
  | file bytes, _ :: _ => file bytes
  | folder es, name :: names =>
    let old := (es.lookup name).getD (folder [])
    folder ((name, set new old names) :: es.filter (·.1 ≠ name))

end Entry

/-- what stands under each name at the top -/
structure Folder where
  entries : List (String × Entry)

namespace Folder

def entry? (f : Folder) (place : List String) : Option Entry := (Entry.folder f.entries).at? place

def isFolder (f : Folder) (place : List String) : Bool :=
  match f.entry? place with
  | some (.folder _) => true
  | _ => false

/-- another entry at a place below the top -/
def set (f : Folder) (place : List String) (e : Entry) : Folder :=
  match Entry.set e (.folder f.entries) place with
  | .folder es => ⟨es⟩
  | .file _ => f

/-- the place that a path begins at unless it says otherwise: a folder among the temporary ones,
under a name that no path can spell, so that a path that leaves it does not come back -/
def home : List String := ["tmp", "/"]

theorem home_notMem_pathNames (path : String) : "/" ∉ pathNames path :=
  fun h => slash_notMem_of_mem_pathNames h (by decide)

/-- nothing but home and the folders above it -/
def empty : Folder := (Folder.mk []).set home (.folder [])

/-- where a path begins: at the top if its first character is a slash, else at home -/
def start (path : String) : List String :=
  if path.toList.head? = some '/' then [] else home

/-- a name short enough to be given -/
def isName (name : String) : Bool := name.utf8ByteSize ≤ 255

/-- a path short enough to be followed, without the null character -/
def isPath (path : String) : Bool :=
  path.utf8ByteSize < 4096 && path.toList.all (· ≠ '\x00')

/-- the place that names lead to from `place`, every name on the way being that of a folder; above
the top there is only the top -/
def walk? (f : Folder) (place : List String) : List String → Option (List String)
  | [] => some place
  | name :: rest =>
    if !f.isFolder place || !isName name then none
    else if isIdle name then f.walk? place rest
    else if name = ".." then f.walk? place.dropLast rest
    else f.walk? (place ++ [name]) rest

def find (f : Folder) (path : String) : FileState :=
  match if isPath path then (f.walk? (start path) (pathNames path)).bind f.entry? else none with
  | none => .absent
  | some (.folder _) => .unreadable "io"
  | some (.file bytes) =>
    match String.fromUTF8? bytes with
    | some s => .text s
    | none => .unreadable "io"

/-- the folders that names lead through from `place`, made where they are missing; and the place
they lead to, unless a file stands in the way or a name is too long -/
def makeFolders (f : Folder) (place : List String) : List String → Folder × Option (List String)
  | [] => (f, some place)
  | name :: rest =>
    if isIdle name then f.makeFolders place rest
    else if name = ".." then f.makeFolders place.dropLast rest
    else if !isName name then (f, none)
    else
      match f.entry? (place ++ [name]) with
      | none => (f.set (place ++ [name]) (.folder [])).makeFolders (place ++ [name]) rest
      | some (.folder _) => f.makeFolders (place ++ [name]) rest
      | some (.file _) => (f, none)

/-- a folder at a path, with the folders above it -/
def addFolder (f : Folder) (path : String) : Folder :=
  (f.makeFolders (start path) (pathNames path)).1

/-- a file can be written under that name at a place -/
def takes (f : Folder) (place : List String) (name : String) : Bool :=
  isName name && !isIdle name && name ≠ ".." && !f.isFolder (place ++ [name])

/-- writes a file with the folders above it; `none` where that is refused -/
def putBytes (f : Folder) (path : String) (bytes : ByteArray) : Folder × Option Unit :=
  let above := foldersAbove path
  let name := (pathNames path).getLast?.getD ""
  if !isPath ("/".intercalate above) then (f, none)
  else
    match f.makeFolders (start path) above with
    | (f, none) => (f, none)
    | (f, some place) =>
      if isPath path && f.takes place name then (f.set (place ++ [name]) (.file bytes), some ())
      else (f, none)

def put (f : Folder) (path text : String) : Option String × Folder :=
  match f.putBytes path text.toUTF8 with
  | (f, none) => (some "io", f)
  | (f, some ()) => (none, f)

example : empty.isFolder home ∧ empty.walk? home ["..", "..", ".."] = some [] := by decide +kernel
example : (empty.addFolder "../a").isFolder ["tmp", "a"] := by decide +kernel
example : (empty.addFolder "/a").isFolder ["a"] := by decide +kernel

instance : Files (StateM Folder) where
  find path := fun f => (f.find path, f)
  put path text := fun f => f.put path text

end Folder

end TableStore
