import TableStore.Session

/-!
# The command line

The options come first, the statements after them; from the first statement on nothing is an option,
and `--` ends the options early. An option counts before the environment, and the environment
before the default.

* `CommandLine.parse?`   what the arguments ask for, unless they are not well formed;
* `CommandLine.run`      runs the statements on the document, up to the first that fails, and saves
  it when none does.
-/

namespace TableStore.CommandLine

/-- what a run is asked to do -/
structure Options where
  config : Config
  save : Bool
  statements : List String
  deriving DecidableEq

/-- the values that the environment gives -/
structure Environment where
  path : Option String
  name : Option String

structure Given where
  path : Option String := none
  name : Option String := none
  noCreate : Bool := false
  noSave : Bool := false

/-! ## arguments -/

/-- can be the value of an option, or a statement before which no other stands -/
def isPlain (arg : String) : Bool := arg = "-" || arg.toList.head? ≠ some '-'

/-- the path option, once, and not empty -/
def Given.withPath? (g : Given) (path : String) : Option Given :=
  if g.path.isSome ∨ path = "" then none else some { g with path := some path }

/-- the name option, once -/
def Given.withName? (g : Given) (name : String) : Option Given :=
  if g.name.isSome then none else some { g with name := some name }

def valueAfter? (option arg : String) : Option String :=
  (option.toList.isPrefixOf? arg.toList).map String.ofList

/-- an argument that holds a whole option -/
def Given.withArgument? (g : Given) (arg : String) : Option Given :=
  if arg = "--no-create" then if g.noCreate then none else some { g with noCreate := true }
  else if arg = "--no-save" then if g.noSave then none else some { g with noSave := true }
  else
    match valueAfter? "--path=" arg, valueAfter? "--name=" arg with
    | some path, _ => g.withPath? path
    | none, some name => g.withName? name
    | none, none => none

/-- the options at the front, and the statements -/
def Given.read? (g : Given) : List String → Option (Given × List String)
  | [] => some (g, [])
  | ["--path"] => none
  | ["--name"] => none
  | "--" :: statements => some (g, statements)
  | "--path" :: value :: args =>
    if isPlain value then (g.withPath? value).bind fun g => g.read? args else none
  | "--name" :: value :: args =>
    if isPlain value then (g.withName? value).bind fun g => g.read? args else none
  | arg :: args =>
    if isPlain arg then some (g, arg :: args)
    else (g.withArgument? arg).bind fun g => g.read? args

def parse? (env : Environment) (args : List String) : Option Options :=
  match ({} : Given).read? args with
  | none => none
  | some (g, statements) =>
    let defaults : Config := {}
    let path := (g.path.or env.path).getD defaults.path
    let name := (g.name.or env.name).getD defaults.name
    if statements = [] ∨ path = "" then none
    else some ⟨⟨name, path, !g.noCreate⟩, !g.noSave, statements⟩

example : parse? ⟨some "env.json", none⟩ ["--name", "shop", "--no-save", "A", "--path", "B"]
    = some ⟨⟨"shop", "env.json", true⟩, false, ["A", "--path", "B"]⟩ := by decide +kernel
example : parse? ⟨none, none⟩ ["--path=x=", "--no-create", "--", "-A"]
    = some ⟨⟨"main", "x=", false⟩, true, ["-A"]⟩ := by decide +kernel
example : parse? ⟨none, none⟩ ["--no-save"] = none ∧ parse? ⟨none, none⟩ ["-A"] = none := by
  decide +kernel

/-! ## a run -/

/-- what a run prints, and its exit code -/
structure Report where
  output : String
  errors : String
  code : Nat
  deriving DecidableEq

/-- runs statements up to the first that fails; `done` is what has been printed -/
def execute (done : String) (s : Session) : List String → String × Outcome Session Unit
  | [] => (done, .ok () s)
  | text :: texts =>
    let o := s.execute text
    match o.answer with
    | .error fault => (done, .fail fault o.state)
    | .ok a => execute (done ++ a.display ++ "\n") o.state texts

def failed (output message : String) : Report := ⟨output, s!"ERROR: {message}\n", 1⟩

def run {m : Type → Type} [Monad m] [Files m] (o : Options) : m Report := do
  match ← Session.load o.config with
  | .error fault => return failed "" fault.message
  | .ok s =>
    let (output, done) := execute "" s o.statements
    match done.answer with
    | .error fault => return failed output fault.message
    | .ok () =>
      if o.save then
        match ← done.state.save with
        | .error fault => return failed output fault.message
        | .ok () => return ⟨output, "", 0⟩
      else return ⟨output, "", 0⟩

end TableStore.CommandLine
