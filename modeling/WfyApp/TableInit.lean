import WfyApp.DbUpdate

/-! The tables of the database server over many starts, any of which may be cut off between two
statements: the functions `network_init`, `storage_init`, `media_init`, `system_init`,
`event_init` and `peripherals_init`, which `main` calls in this order, with `equal_version` and
`creat_version_table`. All six have the same form; what they put into their tables is a
parameter, but for `peripherals_init`. A statement is atomic, and one about a table that does
not exist, or exists already, fails without effect; a table takes the rows it is filled with.
Requests that clients make between two starts are outside. -/

namespace WfyApp.TableInit
open ByteText SqlText DbRequests DbUpdate

/-- A call of `rkdb_drop` or `rkdb_create`, or of `rkdb_sql` with a statement, as
`rkdb_insert` makes one. -/
inductive Call where
  | drop (table : Name)
  | create (table : Name) (columns : String)
  | sql (statement : Statement)

def tableIn : Statement → Name
  | .select _ table _ _ | .delete table _ | .insert table _ _ | .update table _ _ _ => table

def Call.table : Call → Name
  | .drop table | .create table _ => table
  | .sql statement => tableIn statement

structure Stored where
  columns : String
  rows : List (Row Value)

abbrev Db := Name → Option Stored

section Model
variable (defaults : String → Row Value)

/-- A table by its column list, which gives the values of columns that an insertion leaves out. -/
def tableOf (columns : String) : Table Value := ⟨[], id, fun _ v => v, defaults columns⟩

def Stored.execute (t : Stored) (statement : Statement) : List (Row Value) × List (Row Value) :=
  DbUpdate.execute (tableOf defaults t.columns) t.rows statement

def Call.apply : Call → Option Stored → Option Stored
  | .drop _, _ => none
  | .create _ columns, none => some ⟨columns, []⟩
  | .create _ _, some t => some t
  | .sql _, none => none
  | .sql statement, some t => some { t with rows := (t.execute defaults statement).1 }

def perform (db : Db) (c : Call) : Db :=
  Function.update db c.table (c.apply defaults (db c.table))

def performAll (calls : List Call) (db : Db) : Db := calls.foldl (perform defaults) db

/-- What one of the functions is made of; `tables` are those it drops first. -/
structure Script where
  tables : List Name
  versionTable : Name
  version : Text
  body : List Call
  apart : versionTable ∉ tables
  own : ∀ c ∈ body, c.table ∈ tables

def versionColumn : Name := ⟨ascii "sVersion", by decide⟩

def idPair : Pair := ⟨idColumn, .int 0⟩

namespace Script
variable (script : Script)

def versionPair : Pair := ⟨versionColumn, .text script.version⟩

def versionColumns : String := "id INTEGER PRIMARY KEY,sVersion TEXT NOT NULL"

def creatVersionTable : List Call :=
  [.create script.versionTable versionColumns,
    .sql (.insert script.versionTable idPair [script.versionPair])]

def versionSelect : Statement :=
  .select (.names versionColumn []) script.versionTable [idPair] false

def equalVersion (db : Db) : Prop :=
  ((db script.versionTable).bind fun t =>
    (t.execute defaults script.versionSelect).2.head?.bind fun row => row versionColumn) =
      some (.text script.version)

instance (db : Db) : Decidable (script.equalVersion defaults db) :=
  inferInstanceAs (Decidable (_ = _))

def preparation : List Call :=
  script.tables.map .drop ++ .drop script.versionTable :: script.creatVersionTable

def calls : List Call := script.preparation ++ script.body

/-- A start that gets to its first `n` calls. -/
def start (db : Db) (n : Nat) : Db :=
  if script.equalVersion defaults db then db else performAll defaults (script.calls.take n) db

def reference : Db := performAll defaults script.body fun _ => none

def names : List Name := script.versionTable :: script.tables

end Script

/-- The functions one after the other, in a start of the server that gets to its first `n`
calls. -/
def serverStart : List Script → Db → Nat → Db
  | [], db, _ => db
  | script :: later, db, n =>
      serverStart later (script.start defaults db n)
        (if script.equalVersion defaults db then n else n - script.calls.length)

end Model

section Calls
variable (defaults : String → Row Value)

theorem perform_other (db : Db) (c : Call) (table : Name) (other : c.table ≠ table) :
    perform defaults db c table = db table :=
  Function.update_of_ne (Ne.symm other) _ _

theorem perform_congr (db db' : Db) (c : Call) (table : Name) (same : db table = db' table) :
    perform defaults db c table = perform defaults db' c table := by
  by_cases own : c.table = table
  · subst own
    rw [perform, perform, Function.update_self, Function.update_self, same]
  · rw [perform_other defaults db c table own, perform_other defaults db' c table own, same]

theorem performAll_congr (calls : List Call) (db db' : Db) (table : Name)
    (same : db table = db' table) :
    performAll defaults calls db table = performAll defaults calls db' table := by
  induction calls generalizing db db' with
  | nil => exact same
  | cons c calls ih => exact ih _ _ (perform_congr defaults db db' c table same)

theorem performAll_other (calls : List Call) (db : Db) (table : Name)
    (other : ∀ c ∈ calls, c.table ≠ table) :
    performAll defaults calls db table = db table := by
  induction calls generalizing db with
  | nil => rfl
  | cons c calls ih =>
    have first := perform_other defaults db c table (other c List.mem_cons_self)
    rw [performAll, List.foldl_cons, ← performAll,
      ih _ (fun later member => other later (List.mem_cons_of_mem c member)), first]

theorem performAll_append (first second : List Call) (db : Db) :
    performAll defaults (first ++ second) db =
      performAll defaults second (performAll defaults first db) :=
  List.foldl_append

theorem performAll_drops (tables : List Name) (db : Db) (table : Name)
    (member : table ∈ tables) :
    performAll defaults (tables.map Call.drop) db table = none := by
  induction tables generalizing db with
  | nil => cases member
  | cons t tables ih =>
    rw [List.map_cons, performAll, List.foldl_cons, ← performAll]
    by_cases later : table ∈ tables
    · exact ih _ later
    · have here : table = t := (List.mem_cons.mp member).resolve_right later
      rw [performAll_other]
      · simp [perform, here, Call.table, Call.apply]
      · intro c dropped
        obtain ⟨u, inside, rfl⟩ := List.mem_map.mp dropped
        exact fun equal => later (equal ▸ inside)

end Calls

section Starts
variable (defaults : String → Row Value) (script : Script)

theorem preparation_length : script.preparation.length = script.tables.length + 3 := by
  simp [Script.preparation, Script.creatVersionTable]

def versionRow : Row Value :=
  assigned (tableOf defaults Script.versionColumns) [idPair, script.versionPair]
    (defaults Script.versionColumns)

theorem preparation_version (db : Db) :
    performAll defaults script.preparation db script.versionTable =
      some ⟨Script.versionColumns, [versionRow defaults script]⟩ := by
  rw [Script.preparation, performAll_append, Script.creatVersionTable]
  simp [performAll, perform, Call.table, Call.apply, Stored.execute, execute, tableIn, tableOf,
    versionRow]

theorem preparation_table (db : Db) (table : Name) (member : table ∈ script.tables) :
    performAll defaults script.preparation db table = none := by
  have other : script.versionTable ≠ table := fun same => script.apart (same ▸ member)
  rw [Script.preparation, performAll_append, performAll_other]
  · exact performAll_drops defaults script.tables db table member
  · intro c inside
    simp only [Script.creatVersionTable, List.mem_cons, List.not_mem_nil, or_false] at inside
    rcases inside with rfl | rfl | rfl
    · exact other
    · exact other
    · exact other

theorem equalVersion_of_row (db : Db)
    (stored : db script.versionTable =
      some ⟨Script.versionColumns, [versionRow defaults script]⟩) :
    script.equalVersion defaults db := by
  have apart : idColumn ≠ versionColumn := by decide
  have first : versionRow defaults script idColumn = some (.int 0) := by
    simp [versionRow, assigned, tableOf, cell, idPair, Script.versionPair, Function.update, apart]
  have second : versionRow defaults script versionColumn = some (.text script.version) := by
    simp [versionRow, assigned, tableOf, cell, idPair, Script.versionPair]
  have found : carries (tableOf defaults Script.versionColumns) [idPair]
      (versionRow defaults script) = true := by
    simp [carries, tableOf, cell, idPair, first]
  simp only [Script.equalVersion, stored, Option.bind_some, Stored.execute, Script.versionSelect,
    execute, Bool.false_eq_true, if_false, List.filter_cons_of_pos found, List.head?_cons]
  exact second

/-- A start cut off before the row with the version does not count as one. -/
theorem cut_early (db : Db) (n : Nat) (before : n < script.tables.length + 3)
    (old : ¬script.equalVersion defaults db) :
    ¬script.equalVersion defaults (performAll defaults (script.calls.take n) db) := by
  have drops_other : ∀ m, ∀ c ∈ (script.tables.map Call.drop).take m,
      c.table ≠ script.versionTable := by
    intro m c member
    obtain ⟨t, inside, rfl⟩ := List.mem_map.mp (List.mem_of_mem_take member)
    exact fun same => script.apart (same ▸ inside)
  rw [Script.calls, List.take_append_of_le_length (by rw [preparation_length]; omega),
    Script.preparation, List.take_append, List.length_map, performAll_append]
  obtain few | dropped | made : n - script.tables.length = 0 ∨ n - script.tables.length = 1 ∨
      n - script.tables.length = 2 := by omega
  · have kept := performAll_other defaults _ db script.versionTable (drops_other n)
    rw [few, List.take_zero, performAll, List.foldl_nil, Script.equalVersion, kept]
    exact old
  · rw [dropped]
    simp [Script.equalVersion, performAll, perform, Call.table, Call.apply]
  · rw [made]
    simp [Script.equalVersion, Script.creatVersionTable, performAll, perform, Call.table,
      Call.apply, Stored.execute, Script.versionSelect, execute]

/-- A start that gets as far as the version row leaves as much of the tables as it did after
that. -/
theorem cut_late (db : Db) (n : Nat) (reached : script.tables.length + 3 ≤ n) :
    script.equalVersion defaults (performAll defaults (script.calls.take n) db) ∧
      ∀ table ∈ script.tables, performAll defaults (script.calls.take n) db table =
        performAll defaults (script.body.take (n - (script.tables.length + 3))) (fun _ => none)
          table := by
  have whole : script.calls.take n =
      script.preparation ++ script.body.take (n - (script.tables.length + 3)) := by
    rw [Script.calls, List.take_append, preparation_length,
      List.take_of_length_le (by rw [preparation_length]; exact reached)]
  rw [whole, performAll_append]
  constructor
  · refine equalVersion_of_row defaults script _ ?_
    rw [performAll_other, preparation_version]
    intro c member same
    exact script.apart (same ▸ script.own c (List.mem_of_mem_take member))
  · intro table member
    exact performAll_congr defaults _ _ _ table (preparation_table defaults script db table member)

theorem starts_after_version (starts : List Nat) (db : Db)
    (current : script.equalVersion defaults db) :
    starts.foldl (script.start defaults) db = db := by
  induction starts with
  | nil => rfl
  | cons n starts ih => rw [List.foldl_cons, Script.start, if_pos current, ih]

/-- Of all the starts, the first that gets as far as the row with the version decides for
good how much of the tables there is. Before such a start, one that is not cut off makes all
of them. -/
theorem first_start_decides (starts : List Nat) (db : Db)
    (old : ¬script.equalVersion defaults db) :
    (starts.find? (fun n => decide (script.tables.length + 3 ≤ n)) = none →
      ∀ n, script.calls.length ≤ n → ∀ table ∈ script.tables,
        script.start defaults (starts.foldl (script.start defaults) db) n table =
          script.reference defaults table) ∧
      ∀ n, starts.find? (fun n => decide (script.tables.length + 3 ≤ n)) = some n →
        ∀ table ∈ script.tables, starts.foldl (script.start defaults) db table =
          performAll defaults (script.body.take (n - (script.tables.length + 3))) (fun _ => none)
            table := by
  induction starts generalizing db with
  | nil =>
    constructor
    swap
    · intro n found
      cases found
    intro _ n all table member
    rw [Script.calls, List.length_append, preparation_length] at all
    have long : script.tables.length + 3 ≤ n := by omega
    have rest : script.body.take (n - (script.tables.length + 3)) = script.body :=
      List.take_of_length_le (by omega)
    rw [List.foldl_nil, Script.start, if_neg old,
      (cut_late defaults script db n long).2 table member, rest, Script.reference]
  | cons m starts ih =>
    have first : script.start defaults db m = performAll defaults (script.calls.take m) db :=
      if_neg old
    rw [List.foldl_cons, List.find?_cons]
    by_cases reached : script.tables.length + 3 ≤ m
    · simp only [reached, decide_true]
      constructor
      · intro absent
        cases absent
      intro n found table member
      cases found
      obtain ⟨version, tables⟩ := cut_late defaults script db m reached
      rw [first, starts_after_version defaults script starts _ version]
      exact tables table member
    · simp only [reached, decide_false]
      have still := cut_early defaults script db m (by omega) old
      rw [← first] at still
      exact ih (script.start defaults db m) still

end Starts

section Server
variable (defaults : String → Row Value)

theorem calls_table (script : Script) : ∀ c ∈ script.calls, c.table ∈ script.names := by
  intro c member
  simp only [Script.calls, Script.preparation, Script.creatVersionTable, List.append_assoc,
    List.cons_append, List.nil_append, List.mem_append, List.mem_map, List.mem_cons] at member
  rcases member with ⟨table, inside, rfl⟩ | rfl | rfl | rfl | inside
  · exact List.mem_cons_of_mem _ inside
  · exact List.mem_cons_self
  · exact List.mem_cons_self
  · exact List.mem_cons_self
  · exact List.mem_cons_of_mem _ (script.own c inside)

theorem start_other (script : Script) (db : Db) (n : Nat) (table : Name)
    (other : table ∉ script.names) : script.start defaults db n table = db table := by
  rw [Script.start]
  split_ifs
  · rfl
  · refine performAll_other defaults _ db table fun c member same => other ?_
    exact same ▸ calls_table script c (List.mem_of_mem_take member)

theorem start_agree (script : Script) (db db' : Db) (n : Nat)
    (agree : ∀ table ∈ script.names, db table = db' table) :
    ∀ table ∈ script.names,
      script.start defaults db n table = script.start defaults db' n table := by
  intro table member
  have version : script.equalVersion defaults db ↔ script.equalVersion defaults db' := by
    rw [Script.equalVersion, Script.equalVersion, agree script.versionTable List.mem_cons_self]
  rw [Script.start, Script.start]
  simp only [version]
  split_ifs
  · exact agree table member
  · exact performAll_congr defaults _ db db' table (agree table member)

theorem starts_agree (script : Script) (starts : List Nat) (db db' : Db)
    (agree : ∀ table ∈ script.names, db table = db' table) :
    ∀ table ∈ script.names, starts.foldl (script.start defaults) db table =
      starts.foldl (script.start defaults) db' table := by
  induction starts generalizing db db' with
  | nil => exact agree
  | cons n starts ih => exact ih _ _ (start_agree defaults script db db' n agree)

theorem serverStart_other (scripts : List Script) (db : Db) (n : Nat) (table : Name)
    (other : ∀ script ∈ scripts, table ∉ script.names) :
    serverStart defaults scripts db n table = db table := by
  induction scripts generalizing db n with
  | nil => rfl
  | cons script later ih =>
    rw [serverStart, ih _ _ (fun s member => other s (List.mem_cons_of_mem script member)),
      start_other defaults script db n table (other script List.mem_cons_self)]

variable (scripts : List Script)
  (apart : scripts.Pairwise fun first second => ∀ table ∈ first.names, table ∉ second.names)
include apart

/-- A function whose tables are its own sees, of a start of the server, a start of itself. -/
theorem serverStart_own (script : Script) (member : script ∈ scripts) (db : Db) (n : Nat) :
    ∃ m, ∀ table ∈ script.names,
      serverStart defaults scripts db n table = script.start defaults db m table := by
  induction scripts generalizing db n with
  | nil => cases member
  | cons head later ih =>
    obtain ⟨first, others⟩ := List.pairwise_cons.mp apart
    rcases List.mem_cons.mp member with rfl | inside
    · refine ⟨n, fun table own => ?_⟩
      exact serverStart_other defaults later _ _ table fun s called => first s called table own
    · obtain ⟨m, same⟩ := ih others inside (head.start defaults db n)
        (if head.equalVersion defaults db then n else n - head.calls.length)
      have kept : ∀ table ∈ script.names, head.start defaults db n table = db table :=
        fun table own => start_other defaults head db n table fun mine =>
          first script inside table mine own
      exact ⟨m, fun table own =>
        (same table own).trans (start_agree defaults script _ db m kept table own)⟩

theorem serverStarts_own (script : Script) (member : script ∈ scripts) (starts : List Nat)
    (db : Db) :
    ∃ cuts : List Nat, ∀ table ∈ script.names,
      starts.foldl (serverStart defaults scripts) db table =
        cuts.foldl (script.start defaults) db table := by
  induction starts generalizing db with
  | nil => exact ⟨[], fun _ _ => rfl⟩
  | cons n starts ih =>
    obtain ⟨m, first⟩ := serverStart_own defaults scripts apart script member db n
    obtain ⟨cuts, rest⟩ := ih (serverStart defaults scripts db n)
    refine ⟨m :: cuts, fun table own => ?_⟩
    rw [List.foldl_cons, List.foldl_cons, rest table own]
    exact starts_agree defaults script cuts _ _ first table own

end Server

section Functions

def named (text : String) (plain : isName (ascii text) = true := by decide) : Name :=
  ⟨ascii text, plain⟩

structure Contents where
  columns : String
  rows : List (Pair × List Pair)

/-- Each table is created and then filled. -/
def filled (created : List Name) (contents : Name → Contents) : List Call :=
  created.flatMap fun table =>
    .create table (contents table).columns ::
      (contents table).rows.map fun row => .sql (.insert table row.1 row.2)

theorem filled_own (tables created : List Name) (contents : Name → Contents)
    (inside : ∀ table ∈ created, table ∈ tables) :
    ∀ c ∈ filled created contents, c.table ∈ tables := by
  intro c member
  obtain ⟨table, made, here⟩ := List.mem_flatMap.mp member
  have about : c.table = table := by
    rcases List.mem_cons.mp here with rfl | inserted
    · rfl
    · obtain ⟨row, -, rfl⟩ := List.mem_map.mp inserted
      rfl
  rw [about]
  exact inside table made

def eventTables : List Name :=
  [named "EventTriggers", named "EventSchedules", named "RegionalInvasion", named "MoveDetection",
   named "FaceConfig", faces, named "FaceSnapshotRecord", named "FaceControlRecord",
   named "SmartCover", named "SmartCoverOverlay", named "Notification"]

def eventInit (contents : Name → Contents) : Script where
  tables := eventTables
  versionTable := named "EventVersion"
  version := ⟨ascii "1.0.1", by decide⟩
  body := filled eventTables contents
  apart := by decide +kernel
  own := filled_own _ _ _ fun _ member => member

def mediaTables : List Name :=
  [named "video", named "video_advanced_enc", named "video_region_clip", named "audio",
   named "stream_url", named "image_scenario", named "image_adjustment", named "image_exposure",
   named "image_night_to_day", named "image_blc", named "image_white_blance",
   named "image_enhancement", named "image_video_adjustment", named "normalized_screen_size",
   named "osd", named "roi", named "profile", named "video_source",
   named "video_source_configuration", named "metadata"]

def mediaCreated : List Name :=
  [named "video", named "video_advanced_enc", named "audio", named "stream_url",
   named "image_scenario", named "image_adjustment", named "image_exposure",
   named "image_night_to_day", named "image_blc", named "image_white_blance",
   named "image_enhancement", named "image_video_adjustment", named "normalized_screen_size",
   named "osd", named "roi", named "video_region_clip", named "profile", named "video_source",
   named "video_source_configuration", named "metadata"]

def mediaInit (contents : Name → Contents) : Script where
  tables := mediaTables
  versionTable := named "MediaVersion"
  version := ⟨ascii "1.0.1", by decide⟩
  body := filled mediaCreated contents
  apart := by decide +kernel
  own := filled_own _ _ _ (by decide +kernel)

def networkTables : List Name :=
  [named "NetworkIP", named "NetworkService", named "NetworkPower", named "ntp", named "zone",
   named "port"]

def networkCreated : List Name :=
  [named "NetworkService", named "NetworkIP", named "NetworkPower", named "ntp", named "zone",
   named "port"]

def networkInit (contents : Name → Contents) : Script where
  tables := networkTables
  versionTable := named "NetworkVersion"
  version := ⟨ascii "1.0.3", by decide⟩
  body := filled networkCreated contents
  apart := by decide +kernel
  own := filled_own _ _ _ (by decide +kernel)

def storageTables : List Name :=
  [named "StorageDiskPath", named "StorageMediaFolder", named "StorageConfig",
   named "StoragePlanSnap", named "StorageAdvancePara"]

def storageInit (contents : Name → Contents) : Script where
  tables := storageTables
  versionTable := named "StorageVersion"
  version := ⟨ascii "1.0.3", by decide⟩
  body := filled storageTables contents
  apart := by decide +kernel
  own := filled_own _ _ _ fun _ member => member

def systemTables : List Name :=
  [named "SystemDeviceInfo", named "SystemPara", named "SystemUser", named "SystemDiscovery",
   named "SystemScopes"]

def systemInit (contents : Name → Contents) : Script where
  tables := systemTables
  versionTable := named "SystemVersion"
  version := ⟨ascii "1.0.1", by decide⟩
  body := filled systemTables contents
  apart := by decide +kernel
  own := filled_own _ _ _ fun _ member => member

def relayTable : Name := named "PeripheralsRelay"
def weigenTable : Name := named "PeripheralsWeigen"
def fillLightTable : Name := named "PeripheralsFillLight"

def peripheralsInit : Script where
  tables := [relayTable, weigenTable, fillLightTable]
  versionTable := named "PeripheralsVersion"
  version := ⟨ascii "1.0.0", by decide⟩
  body :=
    [.create relayTable ("id INTEGER PRIMARY KEY AUTOINCREMENT," ++ "iIOIndex INT," ++
        "iEnable INT DEFAULT 0," ++ "iValidLevel INT DEFAULT 1," ++ "iDuration INT DEFAULT 500"),
      .sql (.insert relayTable idPair [⟨named "iIOIndex", .int 0⟩]),
      .create weigenTable ("id INTEGER PRIMARY KEY AUTOINCREMENT," ++
        "iEnable INT DEFAULT 0," ++ "iWiegandBit INT DEFAULT 26," ++ "iDuration INT DEFAULT 0"),
      .sql (.insert weigenTable idPair []),
      .create fillLightTable ("id INTEGER PRIMARY KEY AUTOINCREMENT," ++
        "iSaveEnergyEnable INT DEFAULT 0," ++ "iSaveEnergyBrightness INT DEFAULT 50," ++
        "iNormalBrightness INT DEFAULT 50"),
      .sql (.insert fillLightTable idPair [])]
  apart := by decide
  own := by decide

/-- The second start is cut off after the version and one table; the third finds the version
and makes no table. -/
theorem first_start_decides_peripherals :
    ¬peripheralsInit.equalVersion (fun _ _ => none) (fun _ => none) ∧
      [3, 8, 12].foldl (peripheralsInit.start fun _ _ => none) (fun _ => none) weigenTable =
        performAll (fun _ _ => none) (peripheralsInit.body.take 2) (fun _ => none) weigenTable :=
  ⟨by decide, (first_start_decides (fun _ _ => none) peripheralsInit [3, 8, 12] (fun _ => none)
    (by decide)).2 8 (by decide) weigenTable (by decide)⟩

def moduleInits (contents : Name → Contents) : List Script :=
  [networkInit contents, storageInit contents, mediaInit contents, systemInit contents,
    eventInit contents, peripheralsInit]

theorem moduleInits_apart (contents : Name → Contents) :
    (moduleInits contents).Pairwise fun first second =>
      ∀ table ∈ first.names, table ∉ second.names := by
  have names : (moduleInits contents).map Script.names =
      (moduleInits fun _ => ⟨"", []⟩).map Script.names := rfl
  rw [← List.pairwise_map (f := Script.names)
    (R := fun first second => ∀ table ∈ first, table ∉ second), names]
  decide +kernel

/-- No module's tables are touched by another's function. -/
theorem moduleInits_own (defaults : String → Row Value) (contents : Name → Contents)
    (script : Script) (member : script ∈ moduleInits contents) (starts : List Nat) (db : Db) :
    ∃ cuts : List Nat, ∀ table ∈ script.names,
      starts.foldl (serverStart defaults (moduleInits contents)) db table =
        cuts.foldl (script.start defaults) db table :=
  serverStarts_own defaults (moduleInits contents) (moduleInits_apart contents) script member
    starts db

end Functions

end WfyApp.TableInit
