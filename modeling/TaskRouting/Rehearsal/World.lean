import TaskRouting.Catalog.Build
import TaskRouting.Rehearsal.Script
import TaskRouting.Store
/-!
The world of a rehearsal: collaborators whose state can be looked at.

Agents follow scripts; the registry, the lookup and the stores are the real
ones, except that a lookup or a store may be told to refuse or to crash.
-/

namespace TaskRouting.Rehearsal

/-- How names are looked up. -/
structure Directory where
  /-- Whether the catalog is asked at all. -/
  usesCatalog : Bool
  /-- Names whose lookup fails, with the reasons. -/
  failing : Table String String
  /-- Names whose lookup crashes, with the words. -/
  crashing : Table String String

/-- Where responses go. -/
inductive Shelf where
  | memory (store : MemoryStore)
  | files (store : FileStore)
  | rejecting (reason : String)
  | crashing (text : String)

/-- All that the collaborators of a rehearsal know and remember. -/
structure World where
  catalog : Catalog
  registry : Registry
  directory : Directory
  /-- The replies of each agent, by its key. -/
  scripts : Table String (List Reply)
  /-- How often each agent has been asked. -/
  asked : Table String Nat
  /-- Whether executions have been asked to stop. -/
  cancelled : Bool
  shelf : Shelf
  /-- How many identifiers have been given to records. -/
  drawn : Nat

namespace World

/-- An agent gives the next reply of its script; the reply may ask executions
to stop before it is acted upon. -/
def agent (a : Agent) (request : Request) (w : World) : Conversation World :=
  let asked := (w.asked.get? a.key).getD 0
  let next := reply ((w.scripts.get? a.key).getD []) asked
  let world := { w with
    asked := w.asked.insert a.key (asked + 1)
    cancelled := w.cancelled || next.cancels }
  perform a request world next.act

/-- A name is looked up in the catalog, unless the directory asks no catalog,
or makes the lookup of that name fail or crash. -/
def lookup (name : String) (w : World) :
    Except Crash (Except LookupError (Option Task)) :=
  if !w.directory.usesCatalog then .ok (.ok none)
  else match w.directory.failing.get? name with
    | some reason => .ok (.error (.failed name reason))
    | none =>
      match w.directory.crashing.get? name with
      | some text => .error ⟨some text⟩
      | none => .ok (.ok (w.catalog.task? name))

/-- The instant of everything in a rehearsal. -/
def clock (_ : World) : Instant := Instant.epoch

/-- Identifiers are numbered in the order in which they are drawn. -/
def freshId (w : World) : RecordId × World :=
  (.ofSerial w.drawn, { w with drawn := w.drawn + 1 })

/-- A response is given an identifier and goes to the shelf, which may keep
it, reject it or crash. -/
def store (response : Response) (w : World) :
    Except Crash (Except StoreError StoredResponse) × World :=
  let (id, w) := w.freshId
  let record : StoredResponse :=
    { id, storedAt := w.clock, persisted := true, response }
  match w.shelf with
  | .memory s =>
    (.ok (.ok record), { w with shelf := .memory (s.keep record) })
  | .files s =>
    match s.keep record with
    | .ok s => (.ok (.ok record), { w with shelf := .files s })
    | .error e => (.ok (.error e), w)
  | .rejecting reason => (.ok (.error (.rejected reason)), w)
  | .crashing text => (.error ⟨some text⟩, w)

/-- The collaborators in this world. -/
def collaborators : Collaborators World where
  agent := agent
  health api w := (.ok (w.registry.health api), w)
  config api w := (.ok (w.registry.config api), w)
  lookup name w := (w.lookup name, w)
  store := store
  cancelled := cancelled
  clock := clock
  freshId := freshId

end World

end TaskRouting.Rehearsal
