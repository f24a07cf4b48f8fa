import Mathlib.Data.List.TakeWhile
import TableStore.Proofs.Keyed
import TableStore.Storage.Folder

/-!
# Disks that give back what was written

* `Files.Reliable`        looking at a path changes nothing, and what was written there is what is
                          seen there, as long as the path can be written;
* `Folder.Leads`          names that lead from a place to a place through folders that are there;
* `Folder.of_makeFolders`   the folders that are made are there to be walked through;
* `Folder.putBytes_of_writable`, `find_of_leads`   writing makes them, looking walks through them;
* `Folder.put_of_writable`   what is written to a folder is seen there, and can be written again;
* `Folder.reliable`       so folders in memory are reliable.
-/

namespace TableStore

namespace Files

variable {σ : Type} [Files (StateM σ)]

/-- what stands at a path of a disk -/
def fileAt (path : String) (disk : σ) : FileState :=
  ((find path : StateM σ FileState).run disk).run.1

/-- looking at the path changes nothing; where it can be written, writing succeeds, what was written
stands there, and it can be written again -/
structure Reliable (path : String) (writable : σ → Prop) : Prop where
  find : ∀ disk, ((Files.find path : StateM σ FileState).run disk).run = (fileAt path disk, disk)
  put : ∀ disk text, writable disk → ∃ disk',
    ((Files.put path text : StateM σ (Option String)).run disk).run = (none, disk') ∧
      writable disk' ∧ fileAt path disk' = .text text

end Files

/-! ## trees -/

namespace Entry

/-- a folder stands at the place -/
def HasFolder (e : Entry) (place : List String) : Prop := ∃ es, e.at? place = some (folder es)

theorem at?_folder_cons (es : List (String × Entry)) (name : String) (place : List String) :
    (folder es).at? (name :: place) = (es.lookup name).bind fun e => e.at? place := rfl

/-- below a name that was changed stands what was put there, and below any other what stood there -/
theorem at?_set_cons (new : Entry) (es : List (String × Entry)) (name k : String)
    (place other : List String) :
    (set new (folder es) (name :: place)).at? (k :: other)
      = if k = name then (set new ((es.lookup name).getD (folder [])) place).at? other
        else (folder es).at? (k :: other) := by
  show (List.lookup k ((name, _) :: es.filter (·.1 ≠ name))).bind _ = _
  rw [Keyed.lookup_cons, Keyed.lookup_filter_ne]
  dsimp only
  split
  · rfl
  · rfl

/-- what is put into a folder stands there -/
theorem at?_set {e : Entry} {place : List String} (h : e.HasFolder place) (new : Entry)
    (name : String) : (set new e (place ++ [name])).at? (place ++ [name]) = some new := by
  obtain ⟨es', h⟩ := h
  induction place generalizing e with
  | nil =>
    cases h
    rw [List.nil_append, at?_set_cons, if_pos rfl]
    rfl
  | cons k place ih =>
    cases e with
    | file bytes => cases h
    | folder es =>
      obtain ⟨e, he, h⟩ := Option.bind_eq_some_iff.1 h
      rw [List.cons_append, at?_set_cons, if_pos rfl, he]
      exact ih h

/-- where no folder makes room for what is put there, all folders stay -/
theorem HasFolder.set {e : Entry} {other : List String} (h : e.HasFolder other) (new : Entry)
    {place : List String} (hplace : ¬ e.HasFolder place) : (set new e place).HasFolder other := by
  induction place generalizing e other with
  | nil =>
    cases e with
    | folder es => exact absurd ⟨es, rfl⟩ hplace
    | file bytes =>
      obtain ⟨es, h⟩ := h
      cases other <;> cases h
  | cons name place ih =>
    cases e with
    | file bytes => exact h
    | folder es =>
      cases other with
      | nil => exact ⟨_, rfl⟩
      | cons k other =>
        unfold HasFolder
        rw [at?_set_cons]
        split
        · rename_i hk
          obtain ⟨es', h⟩ := h
          obtain ⟨e, he, h⟩ := Option.bind_eq_some_iff.1 h
          rw [← hk, he]
          refine ih ⟨es', h⟩ fun ⟨es'', h'⟩ => hplace ⟨es'', ?_⟩
          rw [at?_folder_cons, ← hk, he]
          exact h'
        · exact h

theorem HasFolder.dropLast {e : Entry} {place : List String} (h : e.HasFolder place) :
    e.HasFolder place.dropLast := by
  induction place generalizing e with
  | nil => exact h
  | cons name place ih =>
    cases e with
    | file bytes =>
      obtain ⟨es, h⟩ := h
      cases h
    | folder es =>
      cases place with
      | nil => exact ⟨es, rfl⟩
      | cons k place =>
        obtain ⟨es', h⟩ := h
        obtain ⟨e, he, h⟩ := Option.bind_eq_some_iff.1 h
        obtain ⟨es'', h'⟩ := ih ⟨es', h⟩
        refine ⟨es'', ?_⟩
        rw [List.dropLast_cons_cons, at?_folder_cons, he]
        exact h'

end Entry

namespace Folder

/-- every folder of one is a folder of the other -/
def Within (f g : Folder) : Prop := ∀ place, f.isFolder place = true → g.isFolder place = true

/-- the names lead from a place to a place, through folders that are there -/
inductive Leads (f : Folder) : List String → List String → List String → Prop where
  | stop {place : List String} (h : f.isFolder place = true) : Leads f place [] place
  | stay {place place' names : List String} {name : String} (h : f.isFolder place = true)
    (idle : isIdle name = true) (rest : Leads f place names place') :
    Leads f place (name :: names) place'
  | up {place place' names : List String} (h : f.isFolder place = true)
    (rest : Leads f place.dropLast names place') : Leads f place (".." :: names) place'
  | down {place place' names : List String} {name : String} (h : f.isFolder place = true)
    (proper : isName name = true) (stays : isIdle name = false) (leaves : name ≠ "..")
    (rest : Leads f (place ++ [name]) names place') : Leads f place (name :: names) place'

variable {f g : Folder} {place place' names : List String}

theorem isFolder_iff : f.isFolder place = true ↔ (Entry.folder f.entries).HasFolder place := by
  unfold isFolder Entry.HasFolder
  constructor
  · intro h
    split at h
    · rename_i es hes
      exact ⟨es, hes⟩
    · cases h
  · rintro ⟨es, hes⟩
    rw [show f.entry? place = some (.folder es) from hes]

theorem entry?_set_eq (f : Folder) (name : String) (e : Entry) (other : List String) :
    Folder.entry? (f.set (place ++ [name]) e) other
      = (Entry.set e (.folder f.entries) (place ++ [name])).at? other := by
  cases place <;> rfl

/-- what is put into a folder stands there -/
theorem entry?_set (h : f.isFolder place = true) (name : String) (e : Entry) :
    Folder.entry? (f.set (place ++ [name]) e) (place ++ [name]) = some e := by
  rw [entry?_set_eq]
  exact Entry.at?_set (isFolder_iff.1 h) e name

theorem Within.refl (f : Folder) : f.Within f := fun _ h => h

theorem Within.trans {k : Folder} (h : f.Within g) (h' : g.Within k) : f.Within k :=
  fun place hplace => h' place (h place hplace)

/-- where no folder makes room for what is put there, all folders stay -/
theorem within_set {name : String} (h : f.isFolder (place ++ [name]) = false) (e : Entry) :
    f.Within (f.set (place ++ [name]) e) := by
  intro other hother
  have hnone : ¬ (Entry.folder f.entries).HasFolder (place ++ [name]) := fun hsome => by
    rw [isFolder_iff.2 hsome] at h
    cases h
  obtain ⟨es, hes⟩ := (isFolder_iff.1 hother).set e hnone
  rw [← entry?_set_eq] at hes
  exact isFolder_iff.2 ⟨es, hes⟩

/-! ## walking -/

theorem Leads.start (h : f.Leads place names place') : f.isFolder place = true := by
  cases h <;> assumption

theorem Leads.finish (h : f.Leads place names place') : f.isFolder place' = true := by
  induction h with
  | stop h => exact h
  | stay _ _ _ ih => exact ih
  | up _ _ ih => exact ih
  | down _ _ _ _ _ ih => exact ih

theorem Leads.mono (h : f.Leads place names place') (hfg : f.Within g) :
    g.Leads place names place' := by
  induction h with
  | stop h => exact .stop (hfg _ h)
  | stay h idle _ ih => exact .stay (hfg _ h) idle ih
  | up h _ ih => exact .up (hfg _ h) ih
  | down h proper stays leaves _ ih => exact .down (hfg _ h) proper stays leaves ih

theorem isName_of_isIdle {name : String} (h : isIdle name = true) : isName name = true := by
  unfold isIdle at h
  rcases Bool.or_eq_true_iff.1 h with h | h <;> rw [of_decide_eq_true h] <;> decide

/-- a walk along the names arrives -/
theorem Leads.walk? (h : f.Leads place names place') (rest : List String) :
    f.walk? place (names ++ rest) = f.walk? place' rest := by
  induction h with
  | stop => rfl
  | stay h idle _ ih =>
    rw [List.cons_append, Folder.walk?, h, isName_of_isIdle idle, if_neg (by decide), if_pos idle,
      ih]
  | up h _ ih =>
    rw [List.cons_append, Folder.walk?, h, if_neg (by decide), if_neg (by decide), if_pos rfl, ih]
  | down h proper stays leaves _ ih =>
    rw [List.cons_append, Folder.walk?, h, proper, if_neg (by decide), stays, if_neg (by decide),
      if_neg leaves, ih]

/-- there is nothing left to make on the way -/
theorem Leads.makeFolders (h : f.Leads place names place') :
    f.makeFolders place names = (f, some place') := by
  induction h with
  | stop => rfl
  | stay _ idle _ ih => rw [Folder.makeFolders, if_pos idle, ih]
  | up _ _ ih => rw [Folder.makeFolders, if_neg (by decide), if_pos rfl, ih]
  | @down place place' names name _ proper stays leaves rest ih =>
    obtain ⟨es, hes⟩ := isFolder_iff.1 rest.start
    rw [Folder.makeFolders, stays, if_neg (by decide), if_neg leaves, proper, if_neg (by decide),
      show f.entry? (place ++ [name]) = some (.folder es) from hes]
    exact ih

/-- the folders on the way are there once they are made, and so are all that were there before -/
theorem of_makeFolders (h : f.isFolder place = true)
    (hmake : f.makeFolders place names = (g, some place')) :
    f.Within g ∧ g.Leads place names place' := by
  induction names generalizing f place with
  | nil =>
    cases hmake
    exact ⟨.refl _, .stop h⟩
  | cons name names ih =>
    rw [makeFolders] at hmake
    split at hmake
    · rename_i idle
      obtain ⟨hwithin, hleads⟩ := ih h hmake
      exact ⟨hwithin, .stay (hwithin _ h) idle hleads⟩
    rename_i stays
    split at hmake
    · rename_i hup
      obtain ⟨hwithin, hleads⟩ := ih (isFolder_iff.2 (isFolder_iff.1 h).dropLast) hmake
      exact ⟨hwithin, hup ▸ .up (hwithin _ h) hleads⟩
    rename_i leaves
    split at hmake
    · cases hmake
    rename_i proper
    rw [Bool.not_eq_true, Bool.not_eq_false'] at proper
    rw [Bool.not_eq_true] at stays
    split at hmake
    · rename_i hnone
      have hnew : f.isFolder (place ++ [name]) = false := by
        unfold isFolder
        rw [hnone]
      have hmade : (f.set (place ++ [name]) (.folder [])).isFolder (place ++ [name]) = true :=
        isFolder_iff.2 ⟨[], entry?_set h name (.folder [])⟩
      obtain ⟨hwithin, hleads⟩ := ih hmade hmake
      have hall := (within_set hnew (.folder [])).trans hwithin
      exact ⟨hall, .down (hall _ h) proper stays leaves hleads⟩
    · rename_i es hes
      obtain ⟨hwithin, hleads⟩ := ih (isFolder_iff.2 ⟨es, hes⟩) hmake
      exact ⟨hwithin, .down (hwithin _ h) proper stays leaves hleads⟩
    · cases hmake

/-! ## paths -/

/-- idle names stand between the folders above a path and its last name, if that one is not idle -/
theorem pathNames_eq {path name : String} (hname : (pathNames path).getLast?.getD "" = name)
    (hbusy : isIdle name = false) : ∃ idle, (∀ n ∈ idle, isIdle n = true) ∧
      pathNames path = foldersAbove path ++ idle ++ [name] := by
  unfold foldersAbove
  generalize pathNames path = names at hname
  rcases List.eq_nil_or_concat names with rfl | ⟨above, last, rfl⟩
  · subst hname
    cases hbusy
  · rw [List.concat_eq_append, List.getLast?_concat, Option.getD_some] at hname
    subst hname
    refine ⟨(above.reverse.takeWhile isIdle).reverse, fun n hn => ?_, ?_⟩
    · exact List.mem_takeWhile_imp (List.mem_reverse.1 hn)
    · rw [List.concat_eq_append, List.reverse_append, List.reverse_singleton, List.singleton_append,
        List.dropWhile_cons_of_neg (by rw [hbusy]; decide), List.drop_one, List.tail_cons,
        ← List.reverse_append, List.takeWhile_append_dropWhile, List.reverse_reverse]

theorem leads_idle {idle : List String} (h : f.isFolder place = true)
    (hidle : ∀ n ∈ idle, isIdle n = true) : f.Leads place idle place := by
  induction idle with
  | nil => exact .stop h
  | cons n idle ih =>
    rw [List.forall_mem_cons] at hidle
    exact .stay h hidle.1 (ih hidle.2)

theorem Leads.append {place'' names' : List String} (h : f.Leads place names place')
    (h' : f.Leads place' names' place'') : f.Leads place (names ++ names') place'' := by
  induction h with
  | stop _ => exact h'
  | stay h idle _ ih => exact .stay h idle (ih h')
  | up h _ ih => exact .up h (ih h')
  | down h proper stays leaves _ ih => exact .down h proper stays leaves (ih h')

/-! ## writing -/

/-- the path can be written -/
def Writable (path : String) (f : Folder) : Prop :=
  f.isFolder (start path) = true ∧ (f.putBytes path .empty).2 = some ()

/-- the name at the end of a path, under which a file can stand at the place -/
structure Target (path : String) (f : Folder) (place : List String) (name : String) : Prop where
  shortAbove : isPath ("/".intercalate (foldersAbove path)) = true
  short : isPath path = true
  last : (pathNames path).getLast?.getD "" = name
  proper : isName name = true
  busy : isIdle name = false
  leaves : name ≠ ".."
  free : f.isFolder (place ++ [name]) = false

theorem takes_iff {name : String} : f.takes place name = true ↔
    isName name = true ∧ isIdle name = false ∧ name ≠ ".." ∧
      f.isFolder (place ++ [name]) = false := by
  unfold takes
  simp only [Bool.and_eq_true, Bool.not_eq_true', decide_eq_true_eq, and_assoc]

theorem putBytes_of_leads {path name : String} (h : f.Leads (start path) (foldersAbove path) place)
    (ht : Target path f place name) (bytes : ByteArray) :
    f.putBytes path bytes = (f.set (place ++ [name]) (.file bytes), some ()) := by
  have htakes : f.takes place name = true := takes_iff.2 ⟨ht.proper, ht.busy, ht.leaves, ht.free⟩
  unfold putBytes
  dsimp only
  rw [ht.shortAbove, ht.last, if_neg (by decide), h.makeFolders]
  dsimp only
  rw [ht.short, htakes, if_pos (by decide)]

/-- to write a path is to make the folders above it, where they are missing, and to write below the
last of them, where no folder is -/
theorem putBytes_of_writable {path : String} (h : f.Writable path) :
    ∃ g place name, f.Within g ∧ g.Leads (start path) (foldersAbove path) place ∧
      Target path g place name ∧ ∀ bytes, f.putBytes path bytes = g.putBytes path bytes := by
  obtain ⟨hstart, hput⟩ := h
  unfold putBytes at hput
  dsimp only at hput
  split at hput
  · cases hput
  rename_i habove
  split at hput
  · cases hput
  rename_i g place hmake
  split at hput
  case isFalse => cases hput
  rename_i htakes
  obtain ⟨hshort, htakes⟩ := Bool.and_eq_true_iff.1 htakes
  obtain ⟨hproper, hbusy, hleaves, hfree⟩ := takes_iff.1 htakes
  obtain ⟨hwithin, hleads⟩ := of_makeFolders hstart hmake
  rw [Bool.not_eq_true, Bool.not_eq_false'] at habove
  refine ⟨g, place, _, hwithin, hleads,
    ⟨habove, hshort, rfl, hproper, hbusy, hleaves, hfree⟩, fun bytes => ?_⟩
  unfold putBytes
  dsimp only
  rw [hmake, hleads.makeFolders, habove, if_neg (by decide), if_neg (by decide)]

/-- a path leads past the folders above it to what stands under its last name -/
theorem find_of_leads {path name : String} (h : f.Leads (start path) (foldersAbove path) place)
    (ht : Target path g place name) {text : String}
    (hentry : f.entry? (place ++ [name]) = some (.file text.toUTF8)) :
    f.find path = .text text := by
  obtain ⟨idle, hidle, hnames⟩ := pathNames_eq ht.last ht.busy
  have hwalk : f.walk? (start path) (pathNames path) = some (place ++ [name]) := by
    rw [hnames, (h.append (leads_idle h.finish hidle)).walk?, walk?, h.finish, ht.proper,
      if_neg (by decide), ht.busy, if_neg (by decide), if_neg ht.leaves, walk?]
  have htext : String.fromUTF8? text.toUTF8 = some text := dif_pos text.isValidUTF8
  unfold find
  rw [if_pos ht.short, hwalk, Option.bind_some, hentry]
  dsimp only
  rw [htext]

/-- what is written to a folder is seen there, and can be written again -/
theorem put_of_writable {path : String} (h : f.Writable path) (text : String) :
    ∃ g, f.put path text = (none, g) ∧ g.Writable path ∧ g.find path = .text text := by
  obtain ⟨g, place, name, hwithin, hleads, ht, hput⟩ := putBytes_of_writable h
  let k := g.set (place ++ [name]) (.file text.toUTF8)
  have hstays : g.Within k := within_set ht.free _
  have hleads' := hleads.mono hstays
  have hentry : k.entry? (place ++ [name]) = some (.file text.toUTF8) :=
    entry?_set hleads.finish name _
  have hfree : k.isFolder (place ++ [name]) = false := by
    unfold isFolder
    rw [hentry]
  have hwritable : k.Writable path := by
    refine ⟨hstays _ (hwithin _ h.1), ?_⟩
    rw [putBytes_of_leads hleads' { ht with free := hfree }]
  refine ⟨k, ?_, hwritable, find_of_leads hleads' ht hentry⟩
  unfold put
  rw [hput, putBytes_of_leads hleads ht]

theorem fileAt_eq (path : String) (f : Folder) : Files.fileAt path f = f.find path := rfl

theorem run_put (path text : String) (f : Folder) :
    ((Files.put path text : StateM Folder (Option String)).run f).run = f.put path text := by
  simp only [Files.put, StateT.run, Id.run]

/-- folders in memory are reliable -/
theorem reliable (path : String) : Files.Reliable path (Writable path) where
  find _ := rfl
  put f text h := by
    obtain ⟨g, hput, hwritable, hfind⟩ := put_of_writable h text
    rw [← fileAt_eq] at hfind
    rw [run_put]
    exact ⟨g, hput, hwritable, hfind⟩

end Folder

end TableStore
