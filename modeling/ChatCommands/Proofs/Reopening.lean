import ChatCommands.Proofs.FileWays
import ChatCommands.Proofs.StoreContent

/-!
# Opening a database again

A connection to a file stays one whatever is written through it, and so does the way from the path
to the file (`ConnectedAt`). So a file can be opened again at any time (`run_openDatabase`), and the
new connection finds the rows that are there, unless the database refuses; then nothing has changed.
-/

namespace ChatCommands

/-! ## Opening -/

namespace Hosted

open FileTree (LeadsTo)

theorem run_createDatabase {names : List String} {h : Host}
    (hserved : h.refusal? (.file names) .create = none) :
    (createDatabase names).run.run h =
      (.ok (), { h with files := h.files.put names (.database Table.empty) }) := by
  simp only [createDatabase, run_run_bind, run_run_get, hserved]
  rfl

theorem run_createDatabase_of_refused {names : List String} {h : Host} {refusal : Refusal}
    (hrefused : h.refusal? (.file names) .create = some refusal) :
    (createDatabase names).run.run h =
      (.error (.store (.refused refusal)), { h with files := h.files.put names (.file []) }) := by
  simp only [createDatabase, run_run_bind, run_run_get, hrefused]
  rfl

theorem createDatabase_eq_ok {names : List String} {h later : Host} {result : Unit}
    (hrun : (createDatabase names).run.run h = (.ok result, later)) :
    later = { h with files := h.files.put names (.database Table.empty) } := by
  cases hrefusal : h.refusal? (.file names) .create with
  | some refusal =>
    rw [run_createDatabase_of_refused hrefusal] at hrun
    cases hrun
  | none =>
    rw [run_createDatabase hrefusal] at hrun
    cases hrun
    rfl

theorem ask_eq_ok {database : Database} {statement : Statement} {h later : Host} {result : Unit}
    (hrun : (ask database statement).run.run h = (.ok result, later)) : later = h := by
  cases hdenied : h.denialOf statement (.connection database true) with
  | some failure =>
    rw [run_ask_of_denied hdenied] at hrun
    cases hrun
  | none =>
    rw [run_ask hdenied] at hrun
    cases hrun
    rfl

/-- After `ensureDatabase` the path leads to the names that it gave. -/
theorem leadsTo_of_ensureDatabase {l : Location} {names : List String} {h later : Host}
    (hrun : (ensureDatabase l).run.run h = (.ok names, later)) :
    LeadsTo later.files l names := by
  simp only [ensureDatabase, run_run_bind, run_run_get] at hrun
  cases hrelative : l.isAbsolute with
  | true => simp only [hrelative, if_true] at hrun; cases hrun
  | false =>
    rw [hrelative, if_neg Bool.false_ne_true] at hrun
    cases hmade : h.files.ensureDirectory l.parent.names.reverse with
    | error failure => simp only [hmade] at hrun; cases hrun
    | ok files =>
      have hdirectory := FileTree.isDirectory_of_ensureDirectory hmade
      rw [List.reverse_reverse] at hdirectory
      simp only [hmade] at hrun
      cases hlocate : files.locate l with
      | missing => simp only [hlocate] at hrun; cases hrun
      | blocked => simp only [hlocate] at hrun; cases hrun
      | above => simp only [hlocate] at hrun; cases hrun
      | vacant spot =>
        -- a new file does not take the directory away
        simp only [hlocate] at hrun
        obtain ⟨rfl, _, hcreate⟩ := @exists_run_of_bind_pure _ _ _ _
          (createDatabase spot) _ _ { h with files } _ hrun
        rw [createDatabase_eq_ok hcreate]
        obtain ⟨hnone, hput⟩ := FileTree.locate_put_of_vacant hrelative hlocate
          (.database Table.empty)
        exact ⟨hrelative,
          FileTree.isDirectory_keeps (FileTree.keeps_put_of_none hnone _) hdirectory, _, hput⟩
      | node spot node =>
        rcases node with _ | (_ | ⟨byte, content⟩) | table
        · simp only [hlocate] at hrun; cases hrun
        · -- an empty file becomes a database in its place
          simp only [hlocate] at hrun
          obtain ⟨rfl, _, hcreate⟩ := @exists_run_of_bind_pure _ _ _ _
            (createDatabase spot) _ _ { h with files } _ hrun
          rw [createDatabase_eq_ok hcreate]
          have hkeeps := FileTree.keeps_put_of_some (FileTree.get?_of_locate rfl hlocate) rfl
            (rfl : (Node.database Table.empty).isDirectory = false)
          exact ⟨hrelative, FileTree.isDirectory_keeps hkeeps hdirectory, _,
            FileTree.locate_put_of_node hrelative rfl hlocate rfl⟩
        · simp only [hlocate] at hrun; cases hrun
        · simp only [hlocate] at hrun
          obtain ⟨rfl, _, hask⟩ := @exists_run_of_bind_pure _ _ _ _
            (ask (.file spot) .create) _ _ { h with files } _ hrun
          rw [ask_eq_ok hask]
          exact ⟨hrelative, hdirectory, table, hlocate⟩

/-- If the path leads to a database, `ensureDatabase` only asks it to `create`, which may be
refused. -/
theorem run_ensureDatabase {l : Location} {names : List String} {h : Host}
    (hleads : LeadsTo h.files l names) :
    (ensureDatabase l).run.run h =
      (ask (.file names) .create >>= fun _ => pure names : Hosted (List String)).run.run h := by
  obtain ⟨table, hlocate⟩ := hleads.locate_eq
  have hmade : h.files.ensureDirectory l.parent.names.reverse = .ok h.files :=
    FileTree.ensureDirectory_of_isDirectory (by rw [List.reverse_reverse]; exact hleads.isDirectory)
  simp only [ensureDatabase, run_run_bind, run_run_get, hleads.isRelative, hmade, hlocate,
    Bool.false_eq_true, if_false]
  rfl

end Hosted

namespace Host

theorem content?_of_file {id : StoreId} {names : List String} {h : Host} (hne : names ≠ [])
    (hstore : h.stores[id]? = some (.connection (.file names) true)) :
    h.content? id = some (.table (h.tableOf (.file names))) := by
  rw [content?, hstore, Option.bind_some]
  cases names with
  | nil => exact absurd rfl hne
  | cons name names => rfl

/-- A connection to a file is denied what the host refuses for the names of the file. -/
theorem denied?_of_file {id : StoreId} {names : List String} {h : Host}
    (hstore : h.stores[id]? = some (.connection (.file names) true)) (statement : Statement) :
    h.denied? id statement = (h.refusal? (.file names) statement).map .refused := by
  rw [denied?, hstore]
  rfl

theorem run_setHash_of_file {id : StoreId} {names : List String} {h : Host}
    (hstore : h.stores[id]? = some (.connection (.file names) true)) {key : String} {hash : Hash}
    (hserved : h.denied? id (.write key hash) = none) :
    (Hosted.setHash id key hash).run.run h = (.ok (), h.withHash names key hash) := by
  rw [denied?, hstore] at hserved
  simp only [Hosted.setHash, run_run_bind, run_run_get, hstore, Hosted.run_ask hserved]
  rfl

/-- The store `id` is a connection, open or closed, to the database in the file at `path`. -/
structure ConnectedAt (path : String) (id : StoreId) (names : List String) (isOpen : Bool)
    (h : Host) : Prop where
  not_hasNull : (Location.ofText path).hasNull = false
  not_own : (Location.ofText path).text ≠ Hosted.ownDatabase
  -- the store is a connection to the file under the names
  store_eq : h.stores[id]? = some (.connection (.file names) isOpen)
  leadsTo : h.files.LeadsTo (Location.ofText path) names

variable {path : String} {id : StoreId} {names : List String} {isOpen : Bool} {h : Host}

theorem ConnectedAt.content? (hat : ConnectedAt path id names true h) :
    h.content? id = some (.table (h.tableOf (.file names))) :=
  content?_of_file hat.leadsTo.ne_nil hat.store_eq

theorem ConnectedAt.content?_eq_none (hat : ConnectedAt path id names false h) :
    h.content? id = none := by
  rw [Host.content?, hat.store_eq, Option.bind_some]
  cases names <;> rfl

theorem ConnectedAt.noted (hat : ConnectedAt path id names isOpen h) (event : Event) :
    ConnectedAt path id names isOpen (h.noted event) :=
  ⟨hat.not_hasNull, hat.not_own, hat.store_eq, hat.leadsTo⟩

theorem ConnectedAt.withRefusals (hat : ConnectedAt path id names isOpen h) (refusals : Refusals) :
    ConnectedAt path id names isOpen { h with refusals } :=
  ⟨hat.not_hasNull, hat.not_own, hat.store_eq, hat.leadsTo⟩

theorem ConnectedAt.setHash (hat : ConnectedAt path id names true h) {key : String} {hash : Hash}
    {after : Host} (hset : (Hosted.setHash id key hash).run.run h = (.ok (), after)) :
    ConnectedAt path id names true after := by
  cases hserved : h.denied? id (.write key hash) with
  | some failure =>
    rw [Hosted.run_setHash_of_denied hserved] at hset
    cases hset
  | none =>
    rw [run_setHash_of_file hat.store_eq hserved] at hset
    cases hset
    exact ⟨hat.not_hasNull, hat.not_own, hat.store_eq, hat.leadsTo.put _⟩

end Host

namespace Hosted

open Host (ConnectedAt)

variable {path : String} {id : StoreId} {names : List String} {isOpen : Bool} {h later : Host}

/-- `openDatabase` yields a store that is `ConnectedAt` the path and open. -/
theorem exists_connectedAt (hfile : (Location.ofText path).text ≠ ownDatabase)
    (hrun : (openDatabase path).run.run h = (.ok id, later)) :
    ∃ names, ConnectedAt path id names true later := by
  simp only [openDatabase] at hrun
  cases hnull : (Location.ofText path).hasNull with
  | true => rw [hnull, if_pos rfl] at hrun; cases hrun
  | false =>
    rw [hnull, if_neg Bool.false_ne_true, if_neg hfile, run_run_bind] at hrun
    cases hensure : (ensureDatabase (Location.ofText path)).run.run h with
    | mk result made =>
      rw [hensure] at hrun
      cases result with
      | error failure => cases hrun
      | ok names =>
        have hleads := leadsTo_of_ensureDatabase hensure
        cases hrun
        refine ⟨names, hnull, hfile, ?_, hleads⟩
        exact List.getElem?_concat_length

/-- If the path leads to a database, `openDatabase` yields another connection to it, or is refused
and changes nothing. -/
theorem run_openDatabase (hnull : (Location.ofText path).hasNull = false)
    (hfile : (Location.ofText path).text ≠ ownDatabase)
    (hleads : h.files.LeadsTo (Location.ofText path) names) :
    (∃ refusal, h.refusal? (.file names) .create = some refusal ∧
      (openDatabase path).run.run h = (.error (.store (.refused refusal)), h)) ∨
    h.refusal? (.file names) .create = none ∧ ∃ other later,
      (openDatabase path).run.run h = (.ok other, later) ∧ ConnectedAt path other names true later ∧
        later.files = h.files ∧ later.refusals = h.refusals := by
  have hrun : (openDatabase path).run.run h =
      (ask (.file names) .create >>= fun _ => addStore (.connection (.file names) true) :
        Hosted StoreId).run.run h := by
    simp only [openDatabase, hnull, Bool.false_eq_true, if_false, if_neg hfile, run_run_bind,
      run_ensureDatabase hleads]
    cases (ask (.file names) .create).run.run h with
    | mk result after => cases result <;> rfl
  rw [hrun, run_run_bind]
  cases hserved : h.refusal? (.file names) .create with
  | some refusal =>
    have hdenied : h.denialOf .create (.connection (.file names) true) =
        some (.refused refusal) := by simp [Host.denialOf, hserved]
    exact .inl ⟨refusal, rfl, by rw [run_ask_of_denied hdenied]⟩
  | none =>
    have hdenied : h.denialOf .create (.connection (.file names) true) = none := by
      simp [Host.denialOf, hserved]
    refine .inr ⟨rfl, ?_⟩
    rw [run_ask hdenied]
    exact ⟨_, _, rfl, ⟨hnull, hfile, List.getElem?_concat_length, hleads⟩, rfl, rfl⟩

/-- `close` keeps `ConnectedAt`, but for the connection being open. -/
theorem run_close_of_connectedAt (hat : ConnectedAt path id names isOpen h) :
    ∃ closed, (close id).run.run h = (.ok (), closed) ∧ ConnectedAt path id names false closed ∧
      closed.files = h.files ∧ closed.refusals = h.refusals := by
  obtain ⟨hlt, -⟩ := List.getElem?_eq_some_iff.1 hat.store_eq
  refine ⟨(h.withStore id (.connection (.file names) false)).noted (.closed id), ?_,
    ⟨hat.not_hasNull, hat.not_own, List.getElem?_set_self hlt, hat.leadsTo⟩, rfl, rfl⟩
  simp only [close, run_run_bind, run_run_get, hat.store_eq]
  rfl

end Hosted

end ChatCommands
