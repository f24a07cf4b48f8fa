import TableStore.CommandLine
import TableStore.Proofs.Document.Faithful
import TableStore.Proofs.Storage.Reliable

/-!
# One run for two

* `Database.Answers`      statements that are answered one after the other;
* `Database.answers_or_fails`   statements are, or else those before the first one that fails;
* `Twins.of_answers`      databases with the same contents give the same answers;
* `CommandLine.runOn_of_error`, `runOn_saving`   what a run reports, and what it leaves on a
                          reliable disk;
* `CommandLine.opens_after`   the next run starts with the same contents;
* `CommandLine.runOn_split`   so statements may be divided between two runs.
-/

namespace TableStore

/-- the texts write statements that are answered one after the other, and lead to a database -/
inductive Database.Answers : Database → List String → List Answer → Database → Prop where
  | nil (db : Database) : Answers db [] [] db
  | cons {db db' : Database} {text : String} {texts : List String} {a : Answer}
    {answers : List Answer} (head : (db.execute text).answer = .ok a)
    (tail : Answers (db.execute text).state texts answers db') :
    Answers db (text :: texts) (a :: answers) db'

/-- every answer on lines of its own -/
def printed : List Answer → String
  | [] => ""
  | a :: answers => a.display ++ "\n" ++ printed answers

theorem printed_append (as bs : List Answer) : printed (as ++ bs) = printed as ++ printed bs := by
  induction as with
  | nil => rw [List.nil_append, printed, String.empty_append]
  | cons a as ih => rw [List.cons_append, printed, printed, ih,
      String.append_assoc, String.append_assoc, String.append_assoc]

/-- a session can start there, and with which database: where nothing is, or with a document -/
inductive FileState.Opens (name : String) : FileState → Database → Prop where
  | absent : Opens name .absent (.empty name)
  | text {text : String} {db : Database} (h : Database.ofText text = .ok db) :
    Opens name (.text text) db

namespace Database

variable {db db' : Database} {texts : List String} {answers : List Answer}

/-! ## answers -/

theorem Answers.append {db'' : Database} {texts' : List String} {answers' : List Answer}
    (h : db.Answers texts answers db') (h' : db'.Answers texts' answers' db'') :
    db.Answers (texts ++ texts') (answers ++ answers') db'' := by
  induction h with
  | nil => exact h'
  | cons head _ ih => exact .cons head (ih h')

/-- all statements are answered, or all that stand before the first one that fails -/
theorem answers_or_fails (db : Database) (texts : List String) :
    (∃ answers db', db.Answers texts answers db') ∨
      ∃ before text after answers db' e, texts = before ++ text :: after ∧
        db.Answers before answers db' ∧ (db'.execute text).answer = .error e := by
  induction texts generalizing db with
  | nil => exact .inl ⟨[], db, .nil db⟩
  | cons text texts ih =>
    cases ha : (db.execute text).answer with
    | error e => exact .inr ⟨[], text, texts, [], db, e, rfl, .nil db, ha⟩
    | ok a =>
      rcases ih (db.execute text).state with
        ⟨answers, db', h⟩ | ⟨before, t, after, answers, db', e, rfl, h, he⟩
      · exact .inl ⟨a :: answers, db', .cons ha h⟩
      · exact .inr ⟨text :: before, t, after, a :: answers, db', e, rfl, .cons ha h, he⟩

theorem Sound.execute_atomic (h : db.Sound) (text : String) :
    (db.execute text).Atomic db Sound := by
  unfold execute
  cases Sql.Statement.ofText text with
  | error e => exact Outcome.atomic_fail _ _ _
  | ok s => exact h.run_atomic s

theorem Sound.of_answers (h : db.Sound) (ha : db.Answers texts answers db') : db'.Sound := by
  induction ha with
  | nil => exact h
  | cons _ _ ih => exact ih ((h.execute_atomic _).state h)

/-! ## databases with the same contents -/

/-- databases with the same contents answer the same, and have the same contents afterwards -/
theorem Twins.of_answers {e : Database} (h : Twins db e) (ha : db.Answers texts answers db') :
    ∃ e', e.Answers texts answers e' ∧ Twins db' e' := by
  induction ha generalizing e with
  | nil => exact ⟨e, .nil e, h⟩
  | @cons db _ text _ _ _ head _ ih =>
    have halike := h.execute_alike text
    have hleft := (h.left.execute_atomic text).state h.left
    have hright := (h.right.execute_atomic text).state h.right
    obtain ⟨e', htail, htwins⟩ := ih ⟨hleft, hright, halike.state⟩
    exact ⟨e', .cons (halike.answer.eq.symm.trans head) htail, htwins⟩

theorem Twins.execute_error {e : Database} (h : Twins db e) {text : String} {fault : Error}
    (he : (db.execute text).answer = .error fault) : (e.execute text).answer = .error fault :=
  (h.execute_alike text).answer.eq.symm.trans he

theorem sound_of_opens {name : String} {state : FileState} (h : state.Opens name db) :
    db.Sound := by
  cases h with
  | absent => exact sound_empty name
  | text h => exact sound_of_ofText h

end Database

/-- with a document, a session starts if and only if it loads -/
theorem Session.ofState_text_eq_ok_iff {config : Config} {text : String} {s : Session} :
    ofState config (.text text) = .ok s ↔ ∃ db, Database.ofText text = .ok db ∧ ⟨config, db⟩ = s := by
  show (Database.ofDocument config.path text).map (fun db => ⟨config, db⟩) = .ok s ↔ _
  unfold Database.ofDocument
  cases Database.ofText text with
  | error reason => simp [Except.map]
  | ok db => simp [Except.map]

/-! ## runs -/

namespace CommandLine

open Database

/-- the statements before `texts` have been answered, and their answers printed -/
theorem execute_of_answers {db db' : Database} {texts : List String} {answers : List Answer}
    (h : db.Answers texts answers db') (config : Config) (done : String) (after : List String) :
    execute done ⟨config, db⟩ (texts ++ after)
      = execute (done ++ printed answers) ⟨config, db'⟩ after := by
  induction h generalizing done with
  | nil => rw [List.nil_append, printed, String.append_empty]
  | @cons db _ text _ a _ head _ ih =>
    have hhead : (Session.execute ⟨config, db⟩ text).answer = .ok a := head
    rw [List.cons_append, execute, hhead, printed, ← String.append_assoc, ← String.append_assoc]
    exact ih (done ++ a.display ++ "\n")

theorem execute_of_error {db : Database} {text : String} {e : Error}
    (h : (db.execute text).answer = .error e) (config : Config) (done : String)
    (after : List String) :
    ∃ s, execute done ⟨config, db⟩ (text :: after) = (done, .fail e s) := by
  have hanswer : (Session.execute ⟨config, db⟩ text).answer = .error e := h
  rw [execute, hanswer]
  exact ⟨_, rfl⟩

section
variable {σ : Type} [Files (StateM σ)]

/-- what a run on a disk reports, and the disk afterwards -/
def runOn (disk : σ) (o : Options) : Report × σ := ((run o : StateM σ Report).run disk).run

variable {writable : σ → Prop} {disk : σ} {o : Options} {db : Database}

/-- a run that fails reports what was answered before, and leaves the disk as it was -/
theorem runOn_of_error (h : Files.Reliable o.config.path writable)
    (hstart : Session.ofState o.config (Files.fileAt o.config.path disk) = .ok ⟨o.config, db⟩)
    {texts after : List String} {text : String} {answers : List Answer} {db' : Database} {e : Error}
    (hstatements : o.statements = texts ++ text :: after) (ha : db.Answers texts answers db')
    (he : (db'.execute text).answer = .error e) :
    runOn disk o = (failed (printed answers) e.message, disk) := by
  obtain ⟨s, hs⟩ := execute_of_error he o.config ("" ++ printed answers) after
  have hexecute : execute "" ⟨o.config, db⟩ o.statements = (printed answers, .fail e s) := by
    rw [hstatements, execute_of_answers ha, hs, String.empty_append]
  unfold runOn run Session.load
  simp only [StateT.run_bind, Id.run_bind, h.find disk, StateT.run_pure, Id.run_pure, hstart,
    hexecute]
  rfl

/-! ## runs that save -/

/-- a run that starts without a document if there is none, and saves -/
def saving (name path : String) (statements : List String) : Options :=
  ⟨⟨name, path, true⟩, true, statements⟩

variable {name path : String} {texts : List String} {answers : List Answer} {db' : Database}

theorem ofState_of_opens {state : FileState} (h : state.Opens name db) :
    Session.ofState ⟨name, path, true⟩ state = .ok ⟨⟨name, path, true⟩, db⟩ := by
  cases h with
  | absent => rfl
  | text h => exact Session.ofState_text_eq_ok_iff.2 ⟨db, h, rfl⟩

/-- a run that answers all statements reports them, and leaves the text of the database -/
theorem runOn_saving (h : Files.Reliable path writable) (hw : writable disk)
    (hopens : (Files.fileAt path disk).Opens name db) (ha : db.Answers texts answers db') :
    ∃ disk', runOn disk (saving name path texts) = (⟨printed answers, "", 0⟩, disk') ∧
      writable disk' ∧ Files.fileAt path disk' = .text db'.text := by
  have hexecute : execute "" ⟨⟨name, path, true⟩, db⟩ texts
      = (printed answers, .ok () ⟨⟨name, path, true⟩, db'⟩) := by
    rw [← List.append_nil texts, execute_of_answers ha, String.empty_append, execute]
  obtain ⟨disk', hput, hw', hfile⟩ := h.put disk db'.text hw
  refine ⟨disk', ?_, hw', hfile⟩
  unfold runOn run saving Session.load
  simp only [StateT.run_bind, Id.run_bind, h.find disk, StateT.run_pure, Id.run_pure,
    ofState_of_opens hopens, hexecute, Outcome.ok, if_pos, Session.save, hput]

/-- after such a run the next one starts with the same contents -/
theorem opens_after (h : Files.Reliable path writable) (hw : writable disk)
    (hopens : (Files.fileAt path disk).Opens name db) (ha : db.Answers texts answers db')
    (hsize : db'.Addressable) :
    ∃ disk' loaded, runOn disk (saving name path texts) = (⟨printed answers, "", 0⟩, disk') ∧
      writable disk' ∧ (Files.fileAt path disk').Opens name loaded ∧ Twins db' loaded := by
  have hsound : db'.Sound := (sound_of_opens hopens).of_answers ha
  obtain ⟨disk', hrun, hw', hfile⟩ := runOn_saving h hw hopens ha
  obtain ⟨loaded, hload, htwins⟩ := hsound.reload_twins hsize
  refine ⟨disk', loaded, hrun, hw', ?_, htwins⟩
  rw [hfile]
  exact .text hload

/-! ## two runs -/

/-- two runs show what one shows: the output and the errors one after the other, and the exit code
of the second, as the first succeeds -/
structure Report.Splits (whole first second : Report) : Prop where
  output : whole.output = first.output ++ second.output
  errors : whole.errors = first.errors ++ second.errors
  success : first.code = 0
  code : whole.code = second.code

/-- statements may be divided between two runs, if the first one succeeds; and a run in which a
statement fails shows the answers before it, and leaves the disk as it was -/
theorem runOn_split (h : Files.Reliable path writable) (disk : σ) :
    (writable disk → ∀ name db, (Files.fileAt path disk).Opens name db →
      ∀ A B answers db', db.Answers A answers db' → db'.Addressable →
        let first := runOn disk (saving name path A)
        let second := runOn first.2 (saving name path B)
        let whole := runOn disk (saving name path (A ++ B))
        whole.1.Splits first.1 second.1 ∧
          ((∃ bs db'', db'.Answers B bs db'') →
            Files.fileAt path second.2 = Files.fileAt path whole.2)) ∧
    ∀ o db, o.config.path = path →
      Session.ofState o.config (Files.fileAt path disk) = .ok ⟨o.config, db⟩ →
      ∀ texts text after answers db' e, o.statements = texts ++ text :: after →
        db.Answers texts answers db' → (db'.execute text).answer = .error e →
        runOn disk o = (failed (printed answers) e.message, disk) := by
  constructor
  · intro hw name db hopens A B answers db' ha hsize
    obtain ⟨disk', loaded, hfirst, hw', hopens', htwins⟩ := opens_after h hw hopens ha hsize
    dsimp only
    rw [hfirst]
    dsimp only
    by_cases hanswers : ∃ bs db'', db'.Answers B bs db''
    · obtain ⟨bs, db'', hb⟩ := hanswers
      obtain ⟨loaded', hb', htwins'⟩ := htwins.of_answers hb
      obtain ⟨last, hsecond, -, hfile⟩ := runOn_saving h hw' hopens' hb'
      obtain ⟨last', hwhole, -, hfile'⟩ := runOn_saving h hw hopens (ha.append hb)
      rw [hsecond, hwhole]
      refine ⟨⟨printed_append _ _, rfl, rfl, rfl⟩, fun _ => ?_⟩
      rw [hfile, hfile', htwins'.text_eq]
    · obtain ⟨before, text, after, bs, db'', e, rfl, hb, he⟩ :=
        (db'.answers_or_fails B).resolve_left hanswers
      obtain ⟨loaded', hb', htwins'⟩ := htwins.of_answers hb
      have hsecond := runOn_of_error (o := saving name path (before ++ text :: after)) h
        (ofState_of_opens hopens') rfl hb' (htwins'.execute_error he)
      have hwhole := runOn_of_error (o := saving name path (A ++ (before ++ text :: after))) h
        (ofState_of_opens hopens) (List.append_assoc ..).symm (ha.append hb) he
      rw [hsecond, hwhole]
      exact ⟨⟨printed_append _ _, rfl, rfl, rfl⟩, fun hsome => absurd hsome hanswers⟩
  · intro o db hpath hstart texts text after answers db' e hstatements ha he
    subst hpath
    exact runOn_of_error h hstart hstatements ha he

end

/-- a user comes -/
def opening : List String :=
  ["CREATE TABLE users (id INT PRIMARY KEY, mail TEXT)", "INSERT INTO users VALUES (1, 'a@x')"]

/-- and goes -/
def closing : List String := ["SELECT mail FROM users", "DELETE FROM users WHERE id = 1"]

/-- the key of the user, taken again -/
def refused : String := "INSERT INTO users VALUES ('1', NULL)"

theorem runOn_split_users :
    let first := runOn Folder.empty (saving "main" "quill.json" opening)
    let second := runOn first.2 (saving "main" "quill.json" closing)
    let whole := runOn Folder.empty (saving "main" "quill.json" (opening ++ closing))
    (whole.1.Splits first.1 second.1 ∧
        Files.fileAt "quill.json" second.2 = Files.fileAt "quill.json" whole.2) ∧
      runOn Folder.empty (saving "main" "quill.json" (opening ++ [refused]))
        = (failed "table users created\n1 row inserted\n"
            "constraint violation on column 'id': duplicate primary key value 1",
          Folder.empty) := by
  have hopening : ∃ db', (empty "main").Answers opening
      [.created "users", .inserted ⟨["id", "mail"], [.int 1, .text "a@x"]⟩] db' ∧
        db'.Addressable ∧ (∃ bs db'', db'.Answers closing bs db'') ∧
        (db'.execute refused).answer = .error (.constraint "id" (.duplicate true (.int 1))) := by
    refine ⟨_, .cons (by decide +kernel) (.cons (by decide +kernel) (.nil _)), ?_, ?_, ?_⟩
    · unfold Addressable
      decide +kernel
    · exact ⟨[.rows ⟨["mail"], [[.text "a@x"]]⟩, .affected 1], _,
        .cons (by decide +kernel) (.cons (by decide +kernel) (.nil _))⟩
    · decide +kernel
  obtain ⟨db', hanswers, hsize, hclosing, hrefused⟩ := hopening
  have hwritable : Folder.empty.Writable "quill.json" := ⟨by decide +kernel, by decide +kernel⟩
  have hopens : (Files.fileAt "quill.json" Folder.empty).Opens "main" (empty "main") := by
    rw [Folder.fileAt_eq, show Folder.empty.find "quill.json" = .absent by decide +kernel]
    exact .absent
  obtain ⟨hsplit, hfailure⟩ := runOn_split (Folder.reliable "quill.json") Folder.empty
  obtain ⟨hshown, hfile⟩ := hsplit hwritable _ _ hopens opening closing _ db' hanswers hsize
  refine ⟨⟨hshown, hfile hclosing⟩, ?_⟩
  rw [hfailure _ _ rfl (ofState_of_opens hopens) opening refused [] _ _ _ rfl hanswers hrefused]
  have hreport : failed (printed [.created "users", .inserted ⟨["id", "mail"],
      [.int 1, .text "a@x"]⟩]) (Error.constraint "id" (.duplicate true (.int 1))).message
      = failed "table users created\n1 row inserted\n"
          "constraint violation on column 'id': duplicate primary key value 1" := by decide +kernel
  rw [hreport]

end CommandLine

end TableStore
