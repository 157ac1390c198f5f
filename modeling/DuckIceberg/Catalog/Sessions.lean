import Mathlib.Data.List.AList
import DuckIceberg.Catalog.StableServer

/-!
# Sessions

A session has several databases attached, some of which are catalogs of this extension.  Their
calls, writes and transactions take turns, and a clear goes to all of them: `ClearCacheFunction`
clears once for each time it is bound, and `ClearCacheOnSetting` each time.  (`LoadInternal`
registers neither.)

* `answersOf_eq_alone`: what a database answers is a matter of what is sent to it and of the clears;
* `session_shows`: as long as its own server does not change, a catalog shows what its server says,
  whatever else happens in the session.
-/

namespace DuckIceberg

open Strings IRCAPI

/-! ### Writes -/

/-- What `IRCAPI::CreateSchema` throws. -/
def IRCAPI.createSchema : Error := ⟨.notImplemented, "IRCAPI::Create Schema not Implemented"⟩

/-- What `IRCAPI::DropSchema` throws. -/
def IRCAPI.dropSchema : Error := ⟨.notImplemented, "IRCAPI Drop Schema not Implemented"⟩

/-- The functions that a statement comes to that would change a catalog. -/
inductive CatalogWrite
  | createSchema (replaceOnConflict : Bool)
  | dropSchema
  | createTable
  | dropEntry
  | alter
  | createIndex
  | createView
  | createFunction
  | createType
  | createSequence
  | createTableFunction
  | createCopyFunction
  | createPragmaFunction
  | createCollation
  | planInsert
  | planCreateTableAs
  | planDelete
  | planUpdate
  | bindCreateIndex
  | bindUpdateConstraints
  deriving DecidableEq

/-- What they throw.  None of them gets as far as to change something: `CreateSchema` that replaces
drops the schema first, and `DropSchema` asks the server before it drops the entry. -/
def CatalogWrite.error : CatalogWrite → Error
  | .createSchema replaceOnConflict =>
    if replaceOnConflict then IRCAPI.dropSchema else IRCAPI.createSchema
  | .dropSchema => IRCAPI.dropSchema
  | .createTable => ⟨.notImplemented, "Create Table"⟩
  | .dropEntry => ⟨.notImplemented, "Drop Entry"⟩
  | .alter => ⟨.notImplemented, "Alter Schema Entry"⟩
  | .createIndex => ⟨.notImplemented, "Create Index"⟩
  | .createView => ⟨.notImplemented, "Create View"⟩
  | .createFunction => ⟨.binder, "PC databases do not support creating functions"⟩
  | .createType => ⟨.binder, "PC databases do not support creating types"⟩
  | .createSequence => ⟨.binder, "PC databases do not support creating sequences"⟩
  | .createTableFunction => ⟨.binder, "PC databases do not support creating table functions"⟩
  | .createCopyFunction => ⟨.binder, "PC databases do not support creating copy functions"⟩
  | .createPragmaFunction => ⟨.binder, "PC databases do not support creating pragma functions"⟩
  | .createCollation => ⟨.binder, "PC databases do not support creating collations"⟩
  | .planInsert => ⟨.notImplemented, "ICCatalog PlanInsert"⟩
  | .planCreateTableAs => ⟨.notImplemented, "ICCatalog PlanCreateTableAs"⟩
  | .planDelete => ⟨.notImplemented, "ICCatalog PlanDelete"⟩
  | .planUpdate => ⟨.notImplemented, "ICCatalog PlanUpdate"⟩
  | .bindCreateIndex => ⟨.notImplemented, "ICCatalog BindCreateIndex"⟩
  | .bindUpdateConstraints => ⟨.notImplemented, "BindUpdateConstraints"⟩

/-! ### Transactions -/

/-- `IRCTransactionState` -/
inductive IRCTransactionState
  | notYetStarted
  | started
  | finished
  deriving DecidableEq

/-- `IRCTransaction::Commit` and `IRCTransaction::Rollback` -/
def IRCTransactionState.finish : IRCTransactionState → IRCTransactionState
  | .started => .finished
  | state => state

/-- `ICTransactionManager`: its transactions, by their addresses -/
structure ICTransactionManager where
  transactions : AList (fun _ : ℕ => IRCTransactionState) := ∅

namespace ICTransactionManager

/-- `StartTransaction`, of a transaction that is made at this address -/
def startTransaction (manager : ICTransactionManager) (transaction : ℕ) : ICTransactionManager :=
  ⟨manager.transactions.insert transaction .notYetStarted⟩

/-- `CommitTransaction`, which reports no error, and `RollbackTransaction` -/
def endTransaction (manager : ICTransactionManager) (transaction : ℕ) : ICTransactionManager :=
  match manager.transactions.lookup transaction with
  | none => manager
  | some state => ⟨(manager.transactions.insert transaction state.finish).erase transaction⟩

end ICTransactionManager

/-! ### Databases -/

/-- An attached database: a catalog of this extension, or one of another type. -/
inductive Database
  | iceberg (catalog : AttachedCatalog) (manager : ICTransactionManager)
  | other

/-- What is sent to a database. -/
inductive DatabaseCall
  | call (c : AttachedCatalog.Call)
  | write (w : CatalogWrite)
  | start (transaction : ℕ)
  | commit (transaction : ℕ)
  | rollback (transaction : ℕ)

/-- What it answers.  A database of another type answers in a way of its own. -/
inductive DatabaseAnswer
  | answer (a : AttachedCatalog.Answer)
  | throws (e : Error)
  | done
  | elsewhere

namespace Database

/-- Perform what is sent. -/
def perform (ctx : CatalogContext) : Database → DatabaseCall → DatabaseAnswer × Database
  | .iceberg s manager, .call c =>
    (.answer (s.perform ctx c).1, .iceberg (s.perform ctx c).2 manager)
  | .iceberg s manager, .write w => (.throws w.error, .iceberg s manager)
  | .iceberg s manager, .start transaction =>
    (.done, .iceberg s (manager.startTransaction transaction))
  | .iceberg s manager, .commit transaction =>
    (.done, .iceberg s (manager.endTransaction transaction))
  | .iceberg s manager, .rollback transaction =>
    (.done, .iceberg s (manager.endTransaction transaction))
  | .other, _ => (.elsewhere, .other)

/-- The loop of `ClearIRCCaches` passes over catalogs of other types. -/
def clearCache : Database → Database
  | .iceberg s manager => .iceberg s.clearCache manager
  | .other => .other

end Database

/-! ### Sessions -/

/-- The databases of a session, and the binds of `pc_clear_cache`: whether they are `finished`. -/
structure Session (ι : Type) where
  databases : ι → Database
  finished : List Bool := []

/-- What happens in a session. -/
inductive SessionCall (ι : Type)
  | database (i : ι) (call : DatabaseCall)
  | clearCacheBind
  | clearCache (bind : ℕ)
  | clearCacheOnSetting

namespace Session

variable {ι : Type} [DecidableEq ι]

/-- `ClearIRCCaches` -/
def clearIRCCaches (s : Session ι) : Session ι :=
  { s with databases := fun i => (s.databases i).clearCache }

/-- `ClearCacheFunction`, when it was bound as the `bind`th -/
def clearCacheFunction (s : Session ι) (bind : ℕ) : Session ι :=
  if s.finished[bind]? = some false then
    { s.clearIRCCaches with finished := s.finished.set bind true }
  else s

/-- One step of a session, with the database that answers. -/
def perform (ctx : CatalogContext) (s : Session ι) :
    SessionCall ι → Option (ι × DatabaseAnswer) × Session ι
  | .database i call =>
    (some (i, ((s.databases i).perform ctx call).1),
      { s with databases := Function.update s.databases i ((s.databases i).perform ctx call).2 })
  | .clearCacheBind => (none, { s with finished := s.finished ++ [false] })
  | .clearCache bind => (none, s.clearCacheFunction bind)
  | .clearCacheOnSetting => (none, s.clearIRCCaches)

/-- What a database has answered. -/
def answersOf (ctx : CatalogContext) (s : Session ι) (i : ι) (calls : List (SessionCall ι)) :
    List DatabaseAnswer :=
  (Machine.answers (perform ctx) s calls).filterMap fun answer =>
    answer.bind fun a => if a.1 = i then some a.2 else none

/-- What has been sent to a database. -/
def callsTo (i : ι) (calls : List (SessionCall ι)) : List DatabaseCall :=
  calls.filterMap fun
    | .database j call => if j = i then some call else none
    | _ => none

/-! ### Databases on their own -/

/-- What the databases see, and all of them the clears, when the binds so far are `finished`. -/
def sends : List Bool → List (SessionCall ι) → List (Machine.Sent ι DatabaseCall Unit)
  | _, [] => []
  | finished, .database i call :: calls => .one i call :: sends finished calls
  | finished, .clearCacheBind :: calls => sends (finished ++ [false]) calls
  | finished, .clearCache bind :: calls =>
    if finished[bind]? = some false then .all () :: sends (finished.set bind true) calls
    else sends finished calls
  | finished, .clearCacheOnSetting :: calls => .all () :: sends finished calls

section Alone

variable {ctx : CatalogContext}

/-- The database on its own, which is cleared from time to time. -/
abbrev alone (ctx : CatalogContext) (i : ι) :
    Database → DatabaseCall ⊕ Unit → Option DatabaseAnswer × Database :=
  Machine.alone (fun _ d call => d.perform ctx call) (fun _ d _ => d.clearCache) i

/-- **What a database answers** in a session is what it answers on its own. -/
theorem answersOf_eq_alone (s : Session ι) (i : ι) (calls : List (SessionCall ι)) :
    s.answersOf ctx i calls = (Machine.answers (alone ctx i) (s.databases i)
      ((sends s.finished calls).filterMap (Machine.Sent.seenBy i))).filterMap id := by
  rw [alone, ← Machine.component_answers]
  unfold answersOf
  induction calls generalizing s with
  | nil => rfl
  | cons call calls ih =>
    rw [Machine.answers, List.filterMap_cons]
    cases call with
    | database j call => rw [sends, Machine.answers, List.filterMap_cons, ih]; rfl
    | clearCacheBind => exact ih _
    | clearCache bind =>
      rw [sends]
      by_cases hbind : s.finished[bind]? = some false
      · have hstep : (s.perform ctx (.clearCache bind)).2 =
            { s.clearIRCCaches with finished := s.finished.set bind true } := if_pos hbind
        rw [if_pos hbind, Machine.answers, List.filterMap_cons, ih, hstep]
        rfl
      · have hstep : (s.perform ctx (.clearCache bind)).2 = s := if_neg hbind
        rw [if_neg hbind, ih, hstep]
        rfl
    | clearCacheOnSetting => rw [sends, Machine.answers, List.filterMap_cons, ih]; rfl

/-- What it sees is what is sent to it, and clears. -/
theorem seen_eq_callsTo (i : ι) (finished : List Bool) (calls : List (SessionCall ι)) :
    ((sends finished calls).filterMap (Machine.Sent.seenBy i)).filterMap Sum.getLeft? =
      callsTo i calls := by
  induction calls generalizing finished with
  | nil => rfl
  | cons call calls ih =>
    unfold callsTo at ih ⊢
    rw [List.filterMap_cons]
    cases call with
    | database j call =>
      rw [sends, List.filterMap_cons, Machine.Sent.seenBy]
      by_cases hj : j = i
      · simp only [hj, if_true, List.filterMap_cons, Sum.getLeft?, ih]
      · simp only [hj, if_false, ih]
    | clearCacheBind => exact ih _
    | clearCache bind =>
      rw [sends]
      split_ifs
      · exact ih _
      · exact ih _
    | clearCacheOnSetting => exact ih _

end Alone

end Session

/-! ### What is shown -/

/-- What a caller sees of an answer. -/
inductive DatabaseShown
  | answer (a : AttachedCatalog.Shown)
  | throws (e : Error)
  | done
  | elsewhere

/-- What a caller sees. -/
def DatabaseAnswer.shown : DatabaseAnswer → DatabaseShown
  | .answer a => .answer a.shown
  | .throws e => .throws e
  | .done => .done
  | .elsewhere => .elsewhere

/-- What a call is to show, from the answers of the server alone. -/
def DatabaseCall.shows (ctx : CatalogContext) (config : IRCatalogConfig) (defaultSchema : String) :
    DatabaseCall → DatabaseShown
  | .call c => .answer (c.shows ctx config defaultSchema)
  | .write w => .throws w.error
  | .start _ | .commit _ | .rollback _ => .done

namespace Session

open AttachedCatalog

variable {ι : Type} [DecidableEq ι] {ctx : CatalogContext} {config : IRCatalogConfig}
  {server : String → Except Error String} {defaultSchema : String}

/-- The database is a catalog whose caches hold what its server says. -/
def KnownDatabase (ctx : CatalogContext) (config : IRCatalogConfig)
    (server : String → Except Error String) (defaultSchema : String) (d : Database) : Prop :=
  ∃ s manager, d = .iceberg s manager ∧ Known ctx config server defaultSchema s

/-- One step of a catalog on its own. -/
theorem KnownDatabase.perform {d : Database} (h : KnownDatabase ctx config server defaultSchema d)
    (hlists : ListsNames ctx config server) {call : DatabaseCall}
    (hcall : ∀ c, call = .call c → c.GoesTo ctx server) :
    (d.perform ctx call).1.shown = call.shows ctx config defaultSchema ∧
      KnownDatabase ctx config server defaultSchema (d.perform ctx call).2 := by
  obtain ⟨s, manager, rfl, hknown⟩ := h
  cases call with
  | call c =>
    obtain ⟨hshown, hnext⟩ := hknown.perform hlists (hcall c rfl)
    exact ⟨congrArg DatabaseShown.answer hshown, _, manager, rfl, hnext⟩
  | write w => exact ⟨rfl, s, manager, rfl, hknown⟩
  | start transaction => exact ⟨rfl, s, _, rfl, hknown⟩
  | commit transaction => exact ⟨rfl, s, _, rfl, hknown⟩
  | rollback transaction => exact ⟨rfl, s, _, rfl, hknown⟩

theorem KnownDatabase.clearCache {d : Database}
    (h : KnownDatabase ctx config server defaultSchema d) (hlists : ListsNames ctx config server) :
    KnownDatabase ctx config server defaultSchema d.clearCache := by
  obtain ⟨s, manager, rfl, hknown⟩ := h
  have hclear : Call.clearCache.GoesTo ctx server := trivial
  exact ⟨_, manager, rfl, (hknown.perform hlists hclear).2⟩

/-- What it is to show. -/
def shows (ctx : CatalogContext) (config : IRCatalogConfig) (defaultSchema : String) :
    DatabaseCall ⊕ Unit → Option DatabaseShown
  | .inl call => some (call.shows ctx config defaultSchema)
  | .inr _ => none

theorem mem_of_mem_callsTo {i : ι} {call : DatabaseCall} {calls : List (SessionCall ι)}
    (h : call ∈ callsTo i calls) : .database i call ∈ calls := by
  obtain ⟨sent, hsent, hcall⟩ := List.mem_filterMap.1 h
  cases sent with
  | database j call' =>
    simp only at hcall
    split_ifs at hcall with hj
    obtain rfl := Option.some.inj hcall
    rwa [hj] at hsent
  | clearCacheBind => cases hcall
  | clearCache bind => cases hcall
  | clearCacheOnSetting => cases hcall

omit [DecidableEq ι] in
/-- A catalog on its own shows what its server says. -/
theorem KnownDatabase.answers_shown {d : Database} (i : ι)
    (h : KnownDatabase ctx config server defaultSchema d) (hlists : ListsNames ctx config server)
    {seen : List (DatabaseCall ⊕ Unit)}
    (hseen : ∀ c, .inl (.call c) ∈ seen → c.GoesTo ctx server) :
    (Machine.answers (alone ctx i) d seen).map (Option.map DatabaseAnswer.shown) =
      seen.map (shows ctx config defaultSchema) := by
  have hcalls : ∀ x ∈ seen, ∀ c, x = .inl (.call c) → c.GoesTo ctx server := by
    rintro x hx c rfl
    exact hseen c hx
  rw [Machine.map_answers]
  refine Machine.answers_eq_map_of_forall (fun d x hd hx => ?_) h hcalls
  cases x with
  | inl call =>
    obtain ⟨hshown, hnext⟩ := hd.perform hlists fun c hc => hx c (congrArg Sum.inl hc)
    exact ⟨congrArg some hshown, hnext⟩
  | inr _ => exact ⟨rfl, hd.clearCache hlists⟩

/-- **Each catalog shows what its server says**, whatever is sent to other databases, whatever their
servers answer, whatever statements try to write, however transactions end, and whenever caches are
cleared. -/
theorem session_shows (ctx : CatalogContext) (databases : ι → Database) {i : ι}
    {config : IRCatalogConfig} {defaultSchema : String} {manager : ICTransactionManager}
    (hi : databases i = .iceberg ⟨{ config }, {}, defaultSchema⟩ manager)
    {server : String → Except Error String} (hlists : ListsNames ctx config server)
    {calls : List (SessionCall ι)}
    (hcalls : ∀ c, .database i (.call c) ∈ calls → c.GoesTo ctx server) :
    (answersOf ctx ⟨databases, []⟩ i calls).map DatabaseAnswer.shown =
      (callsTo i calls).map (DatabaseCall.shows ctx config defaultSchema) := by
  have hstart : KnownDatabase ctx config server defaultSchema (databases i) :=
    ⟨_, manager, hi, known_attached ctx config server defaultSchema⟩
  have hto := seen_eq_callsTo i [] calls
  have hseen : ∀ c, .inl (.call c) ∈ (sends [] calls).filterMap (Machine.Sent.seenBy i) →
      c.GoesTo ctx server := by
    intro c hc
    refine hcalls c (mem_of_mem_callsTo ?_)
    rw [← hto]
    exact List.mem_filterMap.2 ⟨_, hc, rfl⟩
  have hshown := congrArg (List.filterMap id) (hstart.answers_shown i hlists hseen)
  rw [answersOf_eq_alone, ← hto]
  rw [List.filterMap_map, List.filterMap_map] at hshown
  rw [List.map_filterMap, List.map_filterMap]
  refine Eq.trans ?_ (hshown.trans (congrArg (fun f => List.filterMap f _) (funext fun x => ?_)))
  · rfl
  · cases x with
    | inl call => rfl
    | inr _ => rfl

/-! ### Two catalogs -/

/-- Two catalogs of one configuration. -/
def twoCatalogs (_ : Bool) : Database :=
  .iceberg ⟨{ config := IRCatalogConfig.polaris }, {}, ""⟩ {}

/-- The server of the second cannot be reached.  The first is looked at within a transaction, and
again after two binds of `pc_clear_cache`, the first of which is executed twice. -/
def twoCatalogsCalls : List (SessionCall Bool) :=
  [.database true (.start 0), .clearCacheBind,
    .database false (.call (.scanSchemas fun _ => .error ⟨.io, "no connection"⟩)),
    .database true (.call (.scanSchemas twoSchemas)), .clearCache 0, .clearCacheBind,
    .database true (.write (.createSchema true)),
    .database true (.call (.getEntry twoSchemas .throwException "S" .tableEntry "B")),
    .clearCache 0, .database true (.commit 0), .clearCache 1, .clearCacheOnSetting,
    .database true (.call (.scan twoSchemas .returnNull "s" .viewEntry))]

theorem session_shows_two :
    (answersOf ICTableSet.locatedContext ⟨twoCatalogs, []⟩ true twoCatalogsCalls).map
        DatabaseAnswer.shown =
      (callsTo true twoCatalogsCalls).map
        (DatabaseCall.shows ICTableSet.locatedContext IRCatalogConfig.polaris "") := by
  refine session_shows ICTableSet.locatedContext twoCatalogs rfl twoSchemas_lists fun c hc => ?_
  simp only [twoCatalogsCalls, List.mem_cons, List.not_mem_nil, SessionCall.database.injEq,
    DatabaseCall.call.injEq, Bool.true_eq_false, reduceCtorEq, false_and, and_false, false_or,
    or_false, true_and] at hc
  rcases hc with rfl | rfl | rfl
  all_goals rfl

end Session

end DuckIceberg
