import TableStore.Document.Load

/-!
# Files that hold documents

* `FileState`      what stands at a path;
* `Files m`        looking at a path and writing to one, in a monad `m`;
* `foldersAbove`   the folders that have to be there before a path can be written;
* `FileError`      why a database cannot be read from a file or written to one.
-/

namespace TableStore

inductive FileState where
  | absent
  | unreadable (cause : String)
  | text (s : String)
  deriving DecidableEq

class Files (m : Type → Type) where
  find : (path : String) → m FileState
  /-- writes a text to a path, making the folders above it; the answer is the cause of a failure -/
  put : (path text : String) → m (Option String)

/-- a character before the names that follow it -/
def addToNames (c : Char) : List (List Char) → List (List Char)
  | [] => [[c]]
  | name :: names => if c = '/' then [] :: name :: names else (c :: name) :: names

/-- the names between the slashes of a path -/
def pathNames (path : String) : List String :=
  (path.toList.foldr addToNames [[]]).map String.ofList

theorem foldr_addToNames (cs : List Char) :
    ∃ name names, cs.foldr addToNames [[]] = name :: names ∧ ∀ n ∈ name :: names, '/' ∉ n := by
  induction cs with
  | nil => exact ⟨[], [], rfl, by simp⟩
  | cons c cs ih =>
    obtain ⟨name, names, e, h⟩ := ih
    rw [List.foldr_cons, e, addToNames]
    split
    · exact ⟨[], name :: names, rfl, by simpa using h⟩
    · next hc => exact ⟨c :: name, names, rfl, by grind⟩

/-- no name on a path holds a slash -/
theorem slash_notMem_of_mem_pathNames {path name : String} (h : name ∈ pathNames path) :
    '/' ∉ name.toList := by
  obtain ⟨n, hn, rfl⟩ := List.mem_map.1 h
  obtain ⟨first, rest, e, hs⟩ := foldr_addToNames path.toList
  rw [e] at hn
  simpa using hs n hn

/-- the name leads nowhere: it is empty or a dot -/
def isIdle (name : String) : Bool := name = "" || name = "."

/-- the names of the folders above a path; idle names at an end do not count -/
def foldersAbove (path : String) : List String :=
  ((((pathNames path).reverse.dropWhile isIdle).drop 1).dropWhile isIdle).reverse

example : pathNames "/a//b" = ["", "a", "", "b"] := by decide +kernel
example : foldersAbove "a/b/c" = ["a", "b"] ∧ foldersAbove "a//b/./" = ["a"] := by decide +kernel
example : foldersAbove "c.json" = [] ∧ foldersAbove "" = [] := by decide +kernel

/-- why a file gives no database, or takes none -/
inductive FileError where
  | missing (path : String)
  | unreadable (path cause : String)
  | unwritable (path cause : String)
  | corrupt (path : String) (reason : Corruption)
  deriving DecidableEq

def FileError.message : FileError → String
  | missing path => s!"failed to read '{path}': no such database file"
  | unreadable path cause => s!"failed to read '{path}': {cause}"
  | unwritable path cause => s!"failed to write '{path}': {cause}"
  | corrupt path reason => s!"corrupt document '{path}': {reason.message}"

/-- the database of the document at a path -/
def Database.ofDocument (path text : String) : Except FileError Database :=
  match Database.ofText text with
  | .ok db => .ok db
  | .error reason => .error (.corrupt path reason)

end TableStore
