import Mathlib.Logic.Function.Basic
import TableStore.Proofs.Session.Split

/-!
# What a file keeps

Sessions for one path come and go, several of them at a time. What they do to their databases stays
with them until they are saved.

* `Act`                   what is done: sessions are opened, changed and saved;
* `Desk`, `Desk.step`     a disk with the sessions that are open, and one thing done;
* `Desk.lastSaved`        the database that was saved last;
* `Session.Resumes`       what opening a session yields, given the database that is kept;
* `Desk.Keeps.step`       what is done writes what is saved, and nothing else;
* `Desk.Keeps.after`      so does all that is done one after the other;
* `Desk.durable`          the file is the text of the database that was saved last, and opening a
                          session yields that database.
-/

namespace TableStore

/-! ## sessions on a disk -/

/-- a document from which a database loads, or nothing -/
inductive FileState.Holds : FileState → Option Database → Prop where
  | absent : Holds .absent none
  | text {text : String} {db : Database} (h : Database.ofText text = .ok db) :
    Holds (.text text) (some db)

namespace Session

/-- what opening a session yields: the contents of the database that is kept, or an empty one where
there may be none -/
inductive Resumes (config : Config) : Option Database → Except FileError Session → Prop where
  | kept {db loaded : Database} (h : db.Agrees loaded) :
    Resumes config (some db) (.ok ⟨config, loaded⟩)
  | empty (h : config.createIfMissing = true) :
    Resumes config none (.ok ⟨config, .empty config.name⟩)
  | missing (h : config.createIfMissing = false) :
    Resumes config none (.error (.missing config.path))

section
variable {σ : Type} [Files (StateM σ)]

/-- opening a session on a disk, and the disk afterwards -/
def loadOn (disk : σ) (config : Config) : Except FileError Session × σ :=
  ((load config : StateM σ (Except FileError Session)).run disk).run

/-- saving a session on a disk, and the disk afterwards -/
def saveOn (disk : σ) (s : Session) : Except FileError Unit × σ :=
  ((s.save : StateM σ (Except FileError Unit)).run disk).run

variable {path : String} {writable : σ → Prop} {disk : σ}

theorem loadOn_eq {config : Config} (h : Files.Reliable config.path writable) (disk : σ) :
    loadOn disk config = (ofState config (Files.fileAt config.path disk), disk) := by
  unfold loadOn load
  simp only [StateT.run_bind, Id.run_bind, h.find disk, StateT.run_pure, Id.run_pure]

theorem saveOn_eq {s : Session} (h : Files.Reliable s.config.path writable) (hw : writable disk) :
    ∃ disk', saveOn disk s = (.ok (), disk') ∧ writable disk' ∧
      Files.fileAt s.config.path disk' = .text s.database.text := by
  obtain ⟨disk', hput, hw', hfile⟩ := h.put disk s.database.text hw
  refine ⟨disk', ?_, hw', hfile⟩
  unfold saveOn save
  simp only [StateT.run_bind, Id.run_bind, hput, StateT.run_pure, Id.run_pure]

end

/-- what opens is a session of the configuration with a sound database -/
theorem of_ofState {config : Config} {state : FileState} {s : Session}
    (h : ofState config state = .ok s) : s.config = config ∧ s.database.Sound := by
  cases state with
  | text text =>
    obtain ⟨db, hload, rfl⟩ := ofState_text_eq_ok_iff.1 h
    exact ⟨rfl, Database.sound_of_ofText hload⟩
  | unreadable cause => cases h
  | absent =>
    unfold ofState at h
    dsimp only at h
    split at h
    · cases h
      exact ⟨rfl, Database.sound_empty _⟩
    · cases h

end Session

/-- databases with the same contents agree -/
theorem Database.Twins.agrees {db db' : Database} (h : Twins db db') : db.Agrees db' where
  name := h.same.name.symm
  tableNames := h.tableNames_eq.symm
  tables := by
    intro name t ht
    rcases h.table?_cases name with ⟨hnone, -⟩ | ⟨t', u, c, ht', hu, hc, hc'⟩
    · rw [ht] at hnone
      cases hnone
    · obtain rfl : t' = t := Option.some.inj (ht'.symm.trans ht)
      exact ⟨u, hu, hc.agrees hc'⟩

theorem Database.Agrees.refl (db : Database) : db.Agrees db :=
  ⟨rfl, rfl, fun _ t ht => ⟨t, ht, rfl, rfl, rfl, fun _ _ => rfl⟩⟩

/-- a session takes up the database that a text loads as -/
theorem Session.resumes_of_text {config : Config} {text : String} {db loaded : Database}
    (hload : Database.ofText text = .ok loaded) (h : db.Agrees loaded) :
    Resumes config (some db) (ofState config (.text text)) := by
  rw [ofState_text_eq_ok_iff.2 ⟨loaded, hload, rfl⟩]
  exact .kept h

theorem FileState.Holds.resumes {state : FileState} {kept : Option Database}
    (h : state.Holds kept) (config : Config) :
    Session.Resumes config kept (Session.ofState config state) := by
  cases h with
  | text hload => exact Session.resumes_of_text hload (.refl _)
  | absent =>
    show Session.Resumes config none (if config.createIfMissing then _ else _)
    split
    · rename_i hcreate
      exact .empty hcreate
    · rename_i hcreate
      exact .missing (Bool.eq_false_iff.2 hcreate)

/-- a session takes up what was saved -/
theorem Database.Sound.resumes {db : Database} (h : db.Sound) (hsize : db.Addressable)
    (config : Config) : Session.Resumes config (some db) (Session.ofState config (.text db.text)) := by
  obtain ⟨loaded, hload, htwins⟩ := h.reload_twins hsize
  exact Session.resumes_of_text hload htwins.agrees

/-! ## what is done -/

/-- what can be done to the sessions for a path, which have numbers -/
inductive Act where
  | load (n : Nat) (name : String) (createIfMissing : Bool)
  | execute (n : Nat) (text : String)
  | apply (n : Nat) (op : Operation)
  | exchange (n : Nat) (db : Database) (reachable : db.Reachable)
  | save (n : Nat)

/-- the step does not save -/
def Act.Unsaved : Act → Prop
  | .save _ => False
  | _ => True

/-- a disk, and the sessions that are open -/
structure Desk (σ : Type) where
  disk : σ
  sessions : Nat → Option Session

namespace Desk

section
variable {σ : Type}

/-- no session is open -/
def closed (disk : σ) : Desk σ := ⟨disk, fun _ => none⟩

/-- another session under a number, or none -/
def put (d : Desk σ) (n : Nat) (o : Option Session) : Desk σ :=
  { d with sessions := Function.update d.sessions n o }

/-- a session changes, if it is open -/
def change (d : Desk σ) (n : Nat) (f : Session → Session) : Desk σ :=
  d.put n ((d.sessions n).map f)

/-- the database that the step saves -/
def saved? (d : Desk σ) : Act → Option Database
  | .save n => (d.sessions n).map (·.database)
  | _ => none

/-- the disk can be written, and the sessions are for the path, with sound databases -/
structure Keeps (path : String) (writable : σ → Prop) (d : Desk σ) : Prop where
  writable : writable d.disk
  sessions : ∀ n s, d.sessions n = some s → s.config.path = path ∧ s.database.Sound

variable {path : String} {writable : σ → Prop} {d : Desk σ}

theorem saved?_eq_none {a : Act} (h : a.Unsaved) : d.saved? a = none := by
  cases a with
  | save n => exact h.elim
  | load n name createIfMissing => rfl
  | execute n text => rfl
  | apply n op => rfl
  | exchange n db reachable => rfl

theorem Keeps.put (hd : d.Keeps path writable) (n : Nat) {o : Option Session}
    (ho : ∀ s, o = some s → s.config.path = path ∧ s.database.Sound) :
    (d.put n o).Keeps path writable := by
  refine ⟨hd.writable, fun k s hs => ?_⟩
  have hs' : Function.update d.sessions n o k = some s := hs
  by_cases hk : k = n
  · subst hk
    rw [Function.update_self] at hs'
    exact ho s hs'
  · rw [Function.update_of_ne hk] at hs'
    exact hd.sessions k s hs'

theorem Keeps.change (hd : d.Keeps path writable) (n : Nat) {f : Session → Session}
    (hf : ∀ s, s.database.Sound → (f s).config = s.config ∧ (f s).database.Sound) :
    (d.change n f).Keeps path writable := by
  refine hd.put n fun s hs => ?_
  obtain ⟨s', hs', rfl⟩ := Option.map_eq_some_iff.1 hs
  obtain ⟨hpath, hsound⟩ := hd.sessions n s' hs'
  obtain ⟨hconfig, hsound'⟩ := hf s' hsound
  exact ⟨hconfig ▸ hpath, hsound'⟩

theorem Keeps.sound_of_saved? (hd : d.Keeps path writable) {a : Act} {db : Database}
    (h : d.saved? a = some db) : db.Sound := by
  cases a with
  | save n =>
    obtain ⟨s, hs, rfl⟩ := Option.map_eq_some_iff.1 h
    exact (hd.sessions n s hs).2
  | load n name createIfMissing => cases h
  | execute n text => cases h
  | apply n op => cases h
  | exchange n db' reachable => cases h

variable [Files (StateM σ)]

/-! ## one step -/

/-- opens a session; where none opens, the one before it stays -/
def load (d : Desk σ) (n : Nat) (config : Config) : Desk σ :=
  match Session.loadOn d.disk config with
  | (.ok s, disk) => { d with disk }.put n (some s)
  | (.error _, disk) => { d with disk }

/-- saves a session, if it is open -/
def save (d : Desk σ) (n : Nat) : Desk σ :=
  match d.sessions n with
  | none => d
  | some s => { d with disk := (s.saveOn d.disk).2 }

/-- one thing done with the sessions for a path -/
def step (path : String) (d : Desk σ) : Act → Desk σ
  | .load n name createIfMissing => d.load n ⟨name, path, createIfMissing⟩
  | .execute n text => d.change n fun s => (s.execute text).state
  | .apply n op => d.change n fun s => { s with database := (s.database.apply op).state }
  | .exchange n db _ => d.change n fun s => { s with database := db }
  | .save n => d.save n

def after (path : String) (d : Desk σ) (acts : List Act) : Desk σ := acts.foldl (step path) d

/-- the database that was saved last, as it was then -/
def lastSaved (path : String) (d : Desk σ) : List Act → Option Database
  | [] => none
  | a :: acts => ((d.step path a).lastSaved path acts).or (d.saved? a)

/-- what stands at the path after a database was saved, or none -/
def fileAfter (saved : Option Database) (before : FileState) : FileState :=
  (saved.map fun db => FileState.text db.text).getD before

theorem Keeps.load {config : Config} (h : Files.Reliable config.path writable)
    (hd : d.Keeps config.path writable) (n : Nat) :
    (d.load n config).Keeps config.path writable ∧ (d.load n config).disk = d.disk := by
  unfold Desk.load
  rw [Session.loadOn_eq h]
  cases hstate : Session.ofState config (Files.fileAt config.path d.disk) with
  | error e => exact ⟨hd, rfl⟩
  | ok s =>
    obtain ⟨hconfig, hsound⟩ := Session.of_ofState hstate
    refine ⟨hd.put n fun s' hs' => ?_, rfl⟩
    obtain rfl : s = s' := Option.some.inj hs'
    exact ⟨congrArg Config.path hconfig, hsound⟩

theorem Keeps.save (h : Files.Reliable path writable) (hd : d.Keeps path writable) (n : Nat) :
    (d.save n).Keeps path writable ∧
      Files.fileAt path (d.save n).disk
        = fileAfter (d.saved? (.save n)) (Files.fileAt path d.disk) := by
  have hsaved : d.saved? (.save n) = (d.sessions n).map (·.database) := rfl
  unfold Desk.save
  rw [hsaved]
  cases hs : d.sessions n with
  | none => exact ⟨hd, rfl⟩
  | some s =>
    obtain ⟨rfl, -⟩ := hd.sessions n s hs
    obtain ⟨disk', hsave, hw, hfile⟩ := Session.saveOn_eq h hd.writable
    dsimp only
    rw [hsave]
    exact ⟨⟨hw, hd.sessions⟩, hfile⟩

/-- what is done writes what is saved, and nothing else -/
theorem Keeps.step (h : Files.Reliable path writable) (hd : d.Keeps path writable) (a : Act) :
    (d.step path a).Keeps path writable ∧
      Files.fileAt path (d.step path a).disk
        = fileAfter (d.saved? a) (Files.fileAt path d.disk) := by
  cases a with
  | load n name createIfMissing =>
    obtain ⟨hkeeps, hdisk⟩ :=
      Keeps.load (show Files.Reliable (Config.path ⟨name, path, createIfMissing⟩) writable from h) hd n
    exact ⟨hkeeps, congrArg (Files.fileAt path) hdisk⟩
  | execute n text =>
    exact ⟨hd.change n fun s hs => ⟨rfl, (hs.execute_atomic text).state hs⟩, rfl⟩
  | apply n op => exact ⟨hd.change n fun s hs => ⟨rfl, (hs.apply_atomic op).state hs⟩, rfl⟩
  | exchange n db reachable => exact ⟨hd.change n fun s _ => ⟨rfl, reachable.sound⟩, rfl⟩
  | save n => exact hd.save h n

/-! ## any steps -/

theorem fileAfter_or (later earlier : Option Database) (before : FileState) :
    fileAfter (later.or earlier) before = fileAfter later (fileAfter earlier before) := by
  cases later <;> rfl

/-- all that is done writes what is saved last -/
theorem Keeps.after (h : Files.Reliable path writable) (hd : d.Keeps path writable)
    (acts : List Act) :
    (d.after path acts).Keeps path writable ∧
      Files.fileAt path (d.after path acts).disk
        = fileAfter (d.lastSaved path acts) (Files.fileAt path d.disk) ∧
      ∀ db, d.lastSaved path acts = some db → db.Sound := by
  induction acts generalizing d with
  | nil => exact ⟨hd, rfl, fun db hdb => by cases hdb⟩
  | cons a acts ih =>
    obtain ⟨hkeeps, hfile⟩ := hd.step h a
    obtain ⟨hlast, hfile', hsound⟩ := ih hkeeps
    -- what the later steps save comes before what this one does
    refine ⟨hlast, ?_, fun db hdb => ?_⟩
    · rw [lastSaved, fileAfter_or, ← hfile]
      exact hfile'
    · rcases Option.or_eq_some_iff.1 hdb with hlater | ⟨-, hearlier⟩
      · exact hsound db hlater
      · exact hd.sound_of_saved? hearlier

/-- steps that do not save leave the file as it is -/
theorem Keeps.after_unsaved (h : Files.Reliable path writable) (hd : d.Keeps path writable)
    {acts : List Act} (hunsaved : ∀ a ∈ acts, a.Unsaved) :
    Files.fileAt path (d.after path acts).disk = Files.fileAt path d.disk := by
  induction acts generalizing d with
  | nil => rfl
  | cons a acts ih =>
    rw [List.forall_mem_cons] at hunsaved
    obtain ⟨hkeeps, hfile⟩ := hd.step h a
    rw [saved?_eq_none hunsaved.1] at hfile
    exact (ih hkeeps hunsaved.2).trans hfile

/-- the file is the text of the database that was saved last, or what it was; a session that is
opened takes up that database; and steps that do not save leave no trace in either -/
theorem durable {initial : Option Database} {disk : σ} (h : Files.Reliable path writable)
    (hw : writable disk) (hstart : (Files.fileAt path disk).Holds initial) (acts : List Act) :
    let desk := (closed disk).after path acts
    let saved := (closed disk).lastSaved path acts
    Files.fileAt path desk.disk = fileAfter saved (Files.fileAt path disk) ∧
      ((∀ db ∈ saved, db.Addressable) → ∀ config : Config, config.path = path →
        ∃ r, Session.loadOn desk.disk config = (r, desk.disk) ∧
          Session.Resumes config (saved.or initial) r) ∧
      ∀ more, (∀ a ∈ more, a.Unsaved) →
        let later := desk.after path more
        Files.fileAt path later.disk = Files.fileAt path desk.disk ∧
          ∀ config : Config, config.path = path →
            (Session.loadOn later.disk config).1 = (Session.loadOn desk.disk config).1 := by
  have hclosed : (closed disk).Keeps path writable := ⟨hw, fun n s hs => by cases hs⟩
  obtain ⟨hkeeps, hfile, hsound⟩ := hclosed.after h acts
  dsimp only
  refine ⟨hfile, fun hsize config hpath => ?_, fun more hmore => ?_⟩
  · subst hpath
    refine ⟨_, Session.loadOn_eq h _, ?_⟩
    rw [hfile]
    cases hsaved : (closed disk).lastSaved config.path acts with
    | none => exact hstart.resumes config
    | some db => exact (hsound db hsaved).resumes (hsize db hsaved) config
  · have hlater := hkeeps.after_unsaved h hmore
    refine ⟨hlater, fun config hpath => ?_⟩
    subst hpath
    rw [Session.loadOn_eq h, Session.loadOn_eq h, hlater]

end

/-- a user comes and is saved -/
def kept : List Act :=
  [.load 0 "main" true, .execute 0 "CREATE TABLE users (id INT PRIMARY KEY, mail TEXT)",
    .execute 0 "INSERT INTO users VALUES (1, 'a@x')", .save 0]

/-- another one comes and is not, and a key is taken again -/
def lost : List Act :=
  [.execute 0 "INSERT INTO users VALUES (2, NULL)", .execute 0 "INSERT INTO users VALUES ('1', NULL)"]

/-- tables by name, each with the number of its rows -/
def counts (db : Database) : List (String × Nat) := db.tables.map fun e => (e.1, e.2.rowCount)

theorem durable_users :
    let desk := (closed Folder.empty).after "quill.json" kept
    let later := desk.after "quill.json" lost
    ((later.sessions 0).map fun s => counts s.database) = some [("users", 2)] ∧
      ∃ db loaded, counts db = [("users", 1)] ∧
        Files.fileAt "quill.json" later.disk = .text db.text ∧
        (Session.loadOn later.disk ⟨"other", "quill.json", false⟩).1
          = .ok ⟨⟨"other", "quill.json", false⟩, loaded⟩ ∧ db.Agrees loaded := by
  have hwritable : Folder.empty.Writable "quill.json" := ⟨by decide +kernel, by decide +kernel⟩
  have habsent : (Files.fileAt "quill.json" Folder.empty).Holds none := by
    rw [Folder.fileAt_eq, show Folder.empty.find "quill.json" = .absent by decide +kernel]
    exact .absent
  have hsaved : ((closed Folder.empty).lastSaved "quill.json" kept).map counts
      = some [("users", 1)] := by decide +kernel
  obtain ⟨db, hdb, hcounts⟩ := Option.map_eq_some_iff.1 hsaved
  have hsize : db.Addressable := by
    intro e he
    have hmem : (e.1, e.2.rowCount) ∈ counts db := List.mem_map_of_mem he
    rw [hcounts, List.mem_singleton] at hmem
    rw [(Prod.mk.inj hmem).2]
    decide
  obtain ⟨hfile, hopens, hlater⟩ := durable (Folder.reliable "quill.json") hwritable habsent kept
  rw [hdb] at hfile hopens
  have hlost : ∀ a ∈ lost, a.Unsaved :=
    List.forall_mem_cons.2 ⟨trivial, List.forall_mem_singleton.2 trivial⟩
  obtain ⟨hsame, hloads⟩ := hlater lost hlost
  obtain ⟨r, hr, hresumes⟩ := hopens (fun _ h => Option.some.inj h ▸ hsize)
    ⟨"other", "quill.json", false⟩ rfl
  dsimp only
  refine ⟨by decide +kernel, ?_⟩
  cases hresumes with
  | kept hagrees =>
    refine ⟨db, _, hcounts, hsame.trans hfile, ?_, hagrees⟩
    rw [hloads _ rfl, hr]

end Desk

end TableStore
