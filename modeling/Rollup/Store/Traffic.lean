import Rollup.Store

/-!
Calls that share a table. Lookups walk a chain without a lock, while a chain is replaced only by the
call that holds the lock of its stripe. A step of a call is one access to what the calls share: it
loads or stores the head of a chain or a flag, or takes or frees a lock. The count of the table is
left out, since no call reads it.
-/
namespace Rollup

namespace Table

def stripes : Nat := 32

def stripeOf (bucket : Nat) : Nat := bucket % stripes

def setChain (t : Table) (bucket : Nat) (chain : List Handle) : Table :=
  { t with chains := t.chains.setIfInBounds bucket chain }

end Table

namespace Store

def bucketFor (s : Store) (kind : Kind) (path : String) : Nat :=
  (s.table kind).bucketOf (pathHash path)

def answers (s : Store) (path : String) (h : Handle) : Bool :=
  (s.get? h).any (·.answersTo path (pathHash path))

def push (s : Store) (r : Record) : Store := { s with records := s.records.push r }

def setChain (s : Store) (kind : Kind) (bucket : Nat) (chain : List Handle) : Store :=
  { s with tables := s.tables.modify kind (·.setChain bucket chain) }

end Store

structure Draft where
  path : String
  checks : List Check
  layout : Layout
  predictor : Option Predictor

def Draft.record (d : Draft) (kind : Kind) (id : Nat) : Record :=
  .empty d.path id d.checks (.empty d.layout d.predictor kind)

/-- What a call looks a path up for, and for a record to be made, whether it holds the lock. -/
inductive Aim
  | obtain (draft : Draft) (locked : Bool)
  | remove (path : String)

def Aim.path : Aim → String
  | obtain draft _ => draft.path
  | remove path => path

structure Round where
  expired : Record → Bool
  bucket : Nat
  removed : List Handle

def Round.next (r : Round) : Round := { r with bucket := r.bucket + 1 }

inductive Stage
  | load (aim : Aim)
  | walk (aim : Aim) (rest : List Handle)
  | await (draft : Draft)
  | make (draft : Draft)
  | join (path : String) (new : Handle)
  | link (path : String) (new : Handle) (next : List Handle)
  | unlock (path : String) (h : Handle) (created : Bool)
  | obtained (h : Handle) (created : Bool)
  | mark (h : Handle)
  | removed (found : Option Handle)
  | scan (round : Round)
  /-- Looks for records to unlink; `dirty` if there are some. -/
  | inspect (round : Round) (rest : List Handle) (dirty : Bool)
  | judge (round : Round) (h : Handle) (rest : List Handle) (dirty : Bool)
  | expire (round : Round) (h : Handle) (rest : List Handle)
  | request (round : Round)
  | sweep (round : Round)
  /-- Divides the chain into what stays and what does not. -/
  | sift (round : Round) (kept dropped rest : List Handle)
  | leave (round : Round)
  | collected (hs : List Handle)

namespace Aim

/-- After an unsuccessful lookup. A record is made only after a second lookup under the lock. -/
def absent : Aim → Stage
  | obtain draft false => .await draft
  | obtain draft true => .make draft
  | remove _ => .removed none

def found (h : Handle) : Aim → Stage
  | obtain _ false => .obtained h false
  | obtain draft true => .unlock draft.path h false
  | remove _ => .mark h

end Aim

structure Shared where
  store : Store
  locked : Nat → Bool

namespace Shared

variable (kind : Kind)

def chain (s : Shared) (bucket : Nat) : List Handle := (s.store.table kind).chain bucket

def bucketFor (s : Shared) (path : String) : Nat := s.store.bucketFor kind path

def setLock (s : Shared) (bucket : Nat) (locked : Bool) : Shared :=
  { s with locked := fun stripe =>
    if stripe = Table.stripeOf bucket then locked else s.locked stripe }

def setChain (s : Shared) (bucket : Nat) (chain : List Handle) : Shared :=
  { s with store := s.store.setChain kind bucket chain }

def invalidate (s : Shared) (h : Handle) : Shared :=
  { s with store := s.store.modify h Record.invalidate }

/-- A call that asks for a lock stays where it is until the lock is free. -/
def acquire (s : Shared) (bucket : Nat) (waiting holding : Stage) : Shared × Stage :=
  if s.locked (Table.stripeOf bucket) then (s, waiting) else (s.setLock bucket true, holding)

def act (s : Shared) : Stage → Shared × Stage
  | .load aim => (s, .walk aim (s.chain kind (s.bucketFor kind aim.path)))
  | .walk aim [] => (s, aim.absent)
  | .walk aim (h :: rest) =>
    (s, if s.store.answers aim.path h then aim.found h else .walk aim rest)
  | .await draft =>
    s.acquire (s.bucketFor kind draft.path) (.await draft) (.load (.obtain draft true))
  | .make draft =>
    ({ s with store := s.store.push (draft.record kind s.store.nextId) },
      .join draft.path s.store.records.size)
  | .join path new => (s, .link path new (s.chain kind (s.bucketFor kind path)))
  | .link path new next =>
    (s.setChain kind (s.bucketFor kind path) (new :: next), .unlock path new true)
  | .unlock path h created => (s.setLock (s.bucketFor kind path) false, .obtained h created)
  | .mark h => (s.invalidate h, .removed (some h))
  | .scan round =>
    (s, if round.bucket < (s.store.table kind).size
      then .inspect round (s.chain kind round.bucket) false else .collected round.removed)
  | .inspect round [] dirty => (s, if dirty then .request round else .scan round.next)
  | .inspect round (h :: rest) dirty =>
    (s, if s.store.isValid h then .judge round h rest dirty else .expire round h rest)
  | .judge round h rest dirty =>
    (s, if (s.store.get? h).any round.expired
      then .expire round h rest else .inspect round rest dirty)
  | .expire round h rest => (s.invalidate h, .inspect round rest true)
  | .request round => s.acquire round.bucket (.request round) (.sweep round)
  | .sweep round => (s, .sift round [] [] (s.chain kind round.bucket))
  | .sift round kept dropped (h :: rest) =>
    (s, if s.store.isValid h
      then .sift round (kept ++ [h]) dropped rest else .sift round kept (dropped ++ [h]) rest)
  | .sift round kept dropped [] =>
    (s.setChain kind round.bucket kept, .leave { round with removed := round.removed ++ dropped })
  | .leave round => (s.setLock round.bucket false, .scan round.next)
  | .obtained h created => (s, .obtained h created)
  | .removed found => (s, .removed found)
  | .collected hs => (s, .collected hs)

end Shared

inductive Errand
  | obtain (draft : Draft)
  | remove (path : String)
  | collect (expired : Record → Bool)

def Errand.first : Errand → Stage
  | obtain draft => .load (.obtain draft false)
  | remove path => .load (.remove path)
  | collect expired => .scan ⟨expired, 0, []⟩

structure Traffic where
  shared : Shared
  calls : Nat → Option Stage

namespace Traffic

inductive Event
  | begin (id : Nat) (errand : Errand)
  | turn (id : Nat)

def start (sizes : Kind → Nat) : Traffic :=
  ⟨⟨.empty sizes, fun _ => false⟩, fun _ => none⟩

def put (t : Traffic) (id : Nat) (moved : Shared × Stage) : Traffic :=
  ⟨moved.1, fun k => if k = id then some moved.2 else t.calls k⟩

variable (kind : Kind)

def step (t : Traffic) : Event → Traffic
  | .begin id errand =>
    match t.calls id with
    | some _ => t
    | none => t.put id (t.shared, errand.first)
  | .turn id =>
    match t.calls id with
    | some stage => t.put id (t.shared.act kind stage)
    | none => t

def run (t : Traffic) (events : List Event) : Traffic := events.foldl (step kind) t

end Traffic

end Rollup
