import BrokerParrot.Lib.TimeText
import BrokerParrot.NodeQueue

/-!
# The SQLite backend

Where the SQLite backend of `db.py` is more than another spelling of the same statement: its file,
the one connection that nested `connection()` blocks share, timestamps, which are text in a
column, and migrations, which are no transaction.
-/

namespace BrokerParrot

/-! ### The file -/

def sqlitePath (name : String) (dsn : Option (List Char)) : Except PyError (List Char) :=
  let raw := PyString.strip (dsn.getD [])
  if raw = [] then
    .error (.runtimeError (name ++ " is not set; cannot open SQLite. " ++
      "Set it to a file path (or sqlite:///path, or :memory:)."))
  else if raw = ":memory:".toList then
    .ok raw
  else if "sqlite://".toList.isPrefixOf raw then
    let rest := raw.drop 9
    .ok (if "///".toList.isPrefixOf rest then rest.drop 1
      else if "//".toList.isPrefixOf rest then rest.dropWhile (· = '/')
      else if rest = [] then ":memory:".toList
      else rest)
  else
    .ok raw

/-! ### Nested blocks -/

/-- A thread in a `connection()` block writes and opens blocks of its own. A block that raises is
caught where it stands; an exception that passes several raises in each of them. -/
inductive Activity (ω : Type) where
  | done
  | write (entry : ω) (next : Activity ω)
  | block (body : Activity ω) (raised : Bool) (next : Activity ω)

/-- The connection of the process, with the writes that are on disk, those of the open transaction
and the nesting depth. -/
structure SharedConn (ω : Type) where
  committed : List ω
  pending : List ω := []
  depth : ℕ := 0

namespace SharedConn

variable {ω : Type}

def execute (conn : SharedConn ω) (entry : ω) : SharedConn ω :=
  { conn with pending := conn.pending ++ [entry] }

def commit (conn : SharedConn ω) : SharedConn ω :=
  { conn with committed := conn.committed ++ conn.pending, pending := [] }

def rollback (conn : SharedConn ω) : SharedConn ω := { conn with pending := [] }

def enter (conn : SharedConn ω) : SharedConn ω :=
  { conn with
    pending := if conn.depth = 0 then [] else conn.pending
    depth := conn.depth + 1 }

def leave (outer raised : Bool) (conn : SharedConn ω) : SharedConn ω :=
  let settled :=
    if outer then
      if raised then conn.rollback else conn.commit
    else
      conn
  { settled with depth := conn.depth - 1 }

def run : Activity ω → SharedConn ω → SharedConn ω
  | .done, conn => conn
  | .write entry next, conn => run next (conn.execute entry)
  | .block body raised next, conn =>
    run next (leave (conn.depth = 0) raised (run body conn.enter))

def connection (body : Activity ω) (raised : Bool) (conn : SharedConn ω) : SharedConn ω :=
  leave (conn.depth = 0) raised (run body conn.enter)

end SharedConn

/-- The pool of PostgreSQL: a block has a connection of its own, with its own transaction. -/
structure PooledConn (ω : Type) where
  committed : List ω
  pending : List ω := []

namespace PooledConn

variable {ω : Type}

def execute (conn : PooledConn ω) (entry : ω) : PooledConn ω :=
  { conn with pending := conn.pending ++ [entry] }

def leave (raised : Bool) (outer inner : PooledConn ω) : PooledConn ω :=
  { outer with
    committed := if raised then inner.committed else inner.committed ++ inner.pending }

def run : Activity ω → PooledConn ω → PooledConn ω
  | .done, conn => conn
  | .write entry next, conn => run next (conn.execute entry)
  | .block body raised next, conn =>
    run next (conn.leave raised (run body { committed := conn.committed }))

def connection (body : Activity ω) (raised : Bool) (conn : PooledConn ω) : PooledConn ω :=
  conn.leave raised (run body { committed := conn.committed })

end PooledConn

/-! ### Timestamps as text -/

/-- What a row's timestamp is in the process: a `datetime`, or the text if it could not be read. -/
inductive Stamp where
  | time (value : TimeText.Time)
  | raw (text : List Char)
  deriving DecidableEq

def parseTs (value : List Char) : Stamp :=
  let stripped := PyString.strip value
  if stripped = [] then
    .raw value
  else
    let blanked := stripped.map fun c => if c = 'T' then ' ' else c
    let bare := if blanked.getLast? = some 'Z' then blanked.dropLast else blanked
    match TimeText.strptime (bare.contains '.') bare with
    | some time => .time time
    | none => .raw value

def Stamp.bound : Stamp → List Char
  | time value => TimeText.secondsText value
  | raw text => text

inductive LeaseWriter where
  | claim
  | renewer
  deriving DecidableEq

/-- The claim's comes from `datetime('now', ...)` of the dialect; the renewer's `make_interval` is
rewritten by `_interval_sub` to a `strftime` with milliseconds. -/
def LeaseWriter.leaseText : LeaseWriter → TimeText.Time → List Char
  | claim, expiry => TimeText.secondsText expiry
  | renewer, expiry => TimeText.millisText expiry

/-- The tables, with the text of the lease column of each row beside them. -/
structure SqliteStore where
  db : Db
  leaseText : JobId → Option (List Char)

namespace SqliteStore

def claimed (store : SqliteStore) (expiry : TimeText.Time) :
    Db × Option (JobId × NodeJob) → SqliteStore
  | (db, none) => { store with db := db }
  | (db, some (id, _)) =>
    { db := db
      leaseText := Function.update store.leaseText id
        (some (LeaseWriter.claim.leaseText expiry)) }

def renewLease (id : JobId) (claimedBy : String) (leaseS : ℤ) (expiry : TimeText.Time)
    (store : SqliteStore) : SqliteStore where
  db := BrokerParrot.renewLease id claimedBy leaseS store.db
  leaseText :=
    if (store.db.jobs.get? id).any fun row =>
        row.status = .running ∧ row.claimedBy = some claimedBy then
      Function.update store.leaseText id (some (LeaseWriter.renewer.leaseText expiry))
    else
      store.leaseText

def observedLease (store : SqliteStore) (id : JobId) : Option Stamp :=
  (store.leaseText id).map parseTs

def requeueRunningIfLeaseFrozen (id : JobId) (expected : Stamp) (store : SqliteStore) :
    SqliteStore where
  db := store.db.recoverWhere fun other _ =>
    other = id ∧ store.leaseText other = some expected.bound
  leaseText := fun other =>
    if other = id ∧ store.leaseText other = some expected.bound ∧
        (store.db.jobs.get? other).any (fun row =>
          row.status = .running ∧ (store.db.runStatus? row.runId).isSome) then
      none
    else
      store.leaseText other

end SqliteStore

/-! ### Migrations -/

structure Migration (κ : Type) where
  version : ℤ
  script : List κ

inductive BootWrite (κ : Type) where
  | statement (text : κ)
  | insertVersion (version : ℤ)

/-- `executescript` ends the transaction and the connection opens no other by itself, so that each
of these is on disk before the next. -/
def Migration.writes {κ : Type} (migration : Migration κ) : List (BootWrite κ) :=
  migration.script.map .statement ++ [.insertVersion migration.version]

/-- The schema, and the version table, which is created empty where it is missing. -/
structure MigratedDb (σ : Type) where
  schema : σ
  applied : List ℤ

namespace MigratedDb

variable {κ σ : Type} (exec : κ → σ → Option σ) (migrations : List (Migration κ))

/-- `none` is an exception: of the statement, or of the primary key. -/
def write (db : MigratedDb σ) : BootWrite κ → Option (MigratedDb σ)
  | .statement text => (exec text db.schema).map fun schema => { db with schema := schema }
  | .insertVersion version =>
    if version ∈ db.applied then none else some { db with applied := db.applied ++ [version] }

def pending (db : MigratedDb σ) : List (Migration κ) :=
  migrations.filter fun migration => migration.version ∉ db.applied

def bootstrap (db : MigratedDb σ) : Option (MigratedDb σ) :=
  ((db.pending migrations).flatMap Migration.writes).foldlM (write exec) db

/-- What a `bootstrap` leaves that is stopped after some of its writes. -/
def Stopped (db mid : MigratedDb σ) : Prop :=
  ∃ made, made <+: (db.pending migrations).flatMap Migration.writes ∧
    made.foldlM (write exec) db = some mid

end MigratedDb

end BrokerParrot
