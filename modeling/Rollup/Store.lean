import Rollup.Record

/-!
All records ever created, and the tables that link the paths of each kind to them. A record keeps
its handle for good, also after its path has been unlinked or given to another record.
-/
namespace Rollup

abbrev Handle := Nat

/-- A hash table of one kind: each bucket is a chain of handles, the newest first. -/
structure Table where
  chains : Array (List Handle)
  /-- Counts handles as they are linked and unlinked. -/
  length : Nat

namespace Table

def empty (size : Nat) : Table := ⟨Array.replicate size [], 0⟩

def size (t : Table) : Nat := t.chains.size

def bucketOf (t : Table) (hash : UInt64) : Nat := hash.toNat % t.size

def chain (t : Table) (bucket : Nat) : List Handle := t.chains.getD bucket []

def link (t : Table) (hash : UInt64) (h : Handle) : Table :=
  ⟨t.chains.modify (t.bucketOf hash) (h :: ·), t.length + 1⟩

/-- The buckets of a shard: every `shards`-th one from number `shard` on. -/
def shardBuckets (t : Table) (shard shards : Nat) : List Nat :=
  List.range' shard ((t.size - shard + shards - 1) / shards) shards

def shard (t : Table) (shard shards : Nat) : List Handle :=
  (t.shardBuckets shard (max 1 shards)).flatMap t.chain

def handles (t : Table) : List Handle := t.chains.toList.flatten

/-- Unlinks the handles that `keep` refuses; the others stay in order. -/
def filter (t : Table) (keep : Handle → Bool) : Table :=
  { chains := t.chains.map fun chain => if chain.isEmpty then chain else chain.filter keep
    length := t.length - t.handles.countP fun h => !keep h }

end Table

structure Store where
  records : Array Record
  tables : PerKind Table

namespace Store

def empty (size : Kind → Nat) : Store := ⟨#[], .ofFn fun kind => .empty (size kind)⟩

def table (s : Store) (kind : Kind) : Table := s.tables.get kind

def get? (s : Store) (h : Handle) : Option Record := s.records[h]?

def modify (s : Store) (h : Handle) (f : Record → Record) : Store :=
  { s with records := s.records.modify h f }

/-- The number of the next record. Records are numbered from one, over all kinds. -/
def nextId (s : Store) : Nat := s.records.size + 1

def isValid (s : Store) (h : Handle) : Bool := (s.get? h).any (·.valid)

def locate (s : Store) (kind : Kind) (path : String) : Option Handle :=
  let hash := pathHash path
  let table := s.table kind
  (table.chain (table.bucketOf hash)).find? fun h => (s.get? h).any (·.answersTo path hash)

def insert (s : Store) (r : Record) : Handle × Store :=
  let h := s.records.size
  (h, { s with
    records := s.records.push r
    tables := s.tables.modify r.kind (·.link r.hash h) })

/-- Invalidates the record of a path. It stays linked until the next collection. -/
def remove (s : Store) (kind : Kind) (path : String) : Option Handle × Store :=
  match s.locate kind path with
  | some h => (some h, s.modify h Record.invalidate)
  | none => (none, s)

/-- The valid records of a shard, in the order in which its worker visits them. -/
def shard (s : Store) (kind : Kind) (shard shards : Nat) : List Handle :=
  ((s.table kind).shard shard shards).filter s.isValid

def valid (s : Store) (kind : Kind) : List Handle := s.shard kind 0 1

def expire (s : Store) (kind : Kind) (expired : Record → Bool) : Store :=
  (s.table kind).handles.foldl (fun s h =>
    s.modify h fun r => if r.valid && expired r then r.invalidate else r) s

/-- Invalidates the records that `expired` selects, and unlinks all invalid ones. -/
def collect (s : Store) (kind : Kind) (expired : Record → Bool) : List Handle × Store :=
  let s := s.expire kind expired
  let removed := (s.table kind).handles.filter fun h => !s.isValid h
  if removed.isEmpty then ([], s)
  else (removed, { s with tables := s.tables.set kind ((s.table kind).filter s.isValid) })

theorem nextId_insert (s : Store) (r : Record) : (s.insert r).2.nextId = s.nextId + 1 := by
  simp [insert, nextId]

@[simp] theorem tables_modify (s : Store) (h : Handle) (f : Record → Record) :
    (s.modify h f).tables = s.tables := rfl

end Store

namespace Store

def inspectTable (s : Store) (kind : Kind) : Inspection :=
  let table := s.table kind
  .record "PathTable" [("kind", .atom kind.label), ("buckets", .nat table.size),
    ("len", .nat table.length)] false

end Store

end Rollup
