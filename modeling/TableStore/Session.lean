import TableStore.Database.Run
import TableStore.Storage.Files

/-!
# Sessions

A session is a database together with the file it is kept in. Nothing is written to the file until
the session is saved.

* `Session.ofState`   the session for what stands at the path of a configuration;
* `Session.load`      the same, looking at the path;
* `Session.save`      writes the database to its file.
-/

namespace TableStore

/-- where a database is kept, and how to start without it -/
structure Config where
  name : String := "main"
  path : String := "quill.json"
  createIfMissing : Bool := true
  deriving DecidableEq

structure Session where
  config : Config
  database : Database
  deriving DecidableEq

namespace Session

/-- the session for what stands at the path of a configuration; a document keeps its own name -/
def ofState (config : Config) : FileState → Except FileError Session
  | .text s => (Database.ofDocument config.path s).map fun db => ⟨config, db⟩
  | .unreadable cause => .error (.unreadable config.path cause)
  | .absent =>
    if config.createIfMissing then .ok ⟨config, .empty config.name⟩
    else .error (.missing config.path)

def load {m : Type → Type} [Monad m] [Files m] (config : Config) : m (Except FileError Session) :=
  return ofState config (← Files.find config.path)

def execute (s : Session) (text : String) : Outcome Session Answer :=
  (s.database.execute text).within fun db => { s with database := db }

/-- writes the database to its file -/
def save {m : Type → Type} [Monad m] [Files m] (s : Session) : m (Except FileError Unit) := do
  match ← Files.put s.config.path s.database.text with
  | none => return .ok ()
  | some cause => return .error (.unwritable s.config.path cause)

end Session

end TableStore
