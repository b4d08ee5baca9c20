import Inventory.Session.Audience
import Inventory.Store.Intrusion

/-! A session with one tree: requests to it, observers that come and go, leases that somebody
outside takes, edits behind its back, moves that wait for a lease while others act, and closing and
opening the tree again. -/
namespace Inventory
set_option autoImplicit false

/-- A tree that is open, or what is left of it when it could not be opened. -/
inductive Premises where
  | opened (tree : Tree)
  | closed (store : Store)

structure Session where
  /-- The store is kept in a file, so that it outlives the tree. -/
  onFile : Bool
  options : Options
  premises : Premises
  audience : Audience := {}
  nextObserver : Nat := 0

inductive Step where
  | request (request : Request)
  | subscribe (observer : Observer)
  /-- Nobody receives what listeners pass on any more. -/
  | unlisten
  | lease (request : Leases.Request)
  /-- Waits until the queue has run everything. -/
  | awaitIdle
  /-- Asks for a reconciliation of every hierarchy, as is done at intervals. -/
  | periodic
  /-- Several callers create a preset child of one node. -/
  | parallelChildren (parent : NodeId) (count : Nat)
  /-- A move that waits for its lease while a script is carried out. -/
  | race (assets : List AssetId) (target : NodeId) (meanwhile : List Scripted)
  | reopen (options : Option Options)
  /-- Opens the tree again after it ended without being closed. -/
  | crashReopen (options : Option Options)
  | intrude (edit : Intrusion)

inductive StepResult where
  | done
  | answer (answer : Answer)
  | subscribed (number : Nat)
  | leased (answer : Leases.Answer) (held : List HierarchyId)
  | raced (meanwhile : Transcript) (move : Except Error Reassignment)
  | intruded (edit : Intruded)

/-- The result of a step with what was heard during it. -/
structure Entry where
  result : Except Failure StepResult
  heard : List (Nat × Notice)
  callbacks : List Callback

namespace Session

def start (onFile : Bool) (options : Options) : Session :=
  { onFile, options, premises := .opened { options } }

def tree? (session : Session) : Option Tree :=
  match session.premises with
  | .opened tree => some tree
  | .closed _ => none

def store (session : Session) : Store :=
  match session.premises with
  | .opened tree => tree.store
  | .closed store => store

def withTree (session : Session) (tree : Tree) : Session :=
  { session with premises := .opened tree }

def withWorld (session : Session) (w : World Audience) : Session :=
  { session with premises := .opened w.tree, audience := w.outside }

/-- What the audience does during an action. -/
def surroundings (session : Session) : Surroundings Audience :=
  Audience.surroundings session.audience.remaining

/-- Carries out an action on the open tree before the audience. -/
def perform {α : Type} (session : Session) (tree : Tree) (act : Action Audience α) :
    Except Error α × Session :=
  let (result, w) := act session.surroundings ⟨tree, session.audience⟩
  (result, session.withWorld w)

/-- As `perform`, with the result as that of a step. -/
def answer {α : Type} (session : Session) (tree : Tree) (act : Action Audience α)
    (wrap : α → StepResult) : Except Failure StepResult × Session :=
  let (result, session) := session.perform tree act
  ((result.map wrap).mapError .refused, session)

/-! ## Races -/

/-- The state of a race: the audience, what is to be done meanwhile, and the answers once it has
been done. -/
structure Race where
  audience : Audience
  script : List Scripted
  transcript : Option Transcript := none

/-- Carries out the script of a race while somebody holds the lease of the hierarchy. -/
def Race.meanwhile (env : Surroundings Audience) (hierarchy : HierarchyId) (w : World Race) :
    World Race :=
  match w.outside.transcript with
  | some _ => w
  | none =>
    let locked := { w.tree with leases := w.tree.leases.grant hierarchy }
    let (transcript, after) := Audience.perform env w.outside.script ⟨locked, w.outside.audience⟩
    ⟨{ after.tree with leases := after.tree.leases.release hierarchy },
      { w.outside with audience := after.outside, transcript := some transcript }⟩

/-- The surroundings of a move that waits: the script runs before the lease is granted. -/
def Race.surroundings (env : Surroundings Audience) : Surroundings Race
  | .waiting hierarchy, w => Race.meanwhile env hierarchy w
  | .notice notice, w =>
    let after := env (.notice notice) ⟨w.tree, w.outside.audience⟩
    ⟨after.tree, { w.outside with audience := after.outside }⟩

/-- Moves assets to a target while a script is carried out. A move that ends before it asks for
the lease does so before the script runs. -/
def race (session : Session) (tree : Tree) (assets : List AssetId) (target : NodeId)
    (script : List Scripted) : Except Failure StepResult × Session :=
  match tree.store.node? target with
  | .error e => (.error (.refused e), session)
  | .ok none => (.error (.malformed "node"), session)
  | .ok (some node) =>
    let env := session.surroundings
    let (move, w) := Tree.reassign assets target (Race.surroundings env)
      ⟨tree, ⟨session.audience, script, none⟩⟩
    let w := Race.meanwhile env node.hierarchy w
    (.ok (.raced (w.outside.transcript.getD []) move),
      session.withWorld ⟨w.tree, w.outside.audience⟩)

/-! ## Opening again -/

/-- Opens the store that a tree left behind, or an empty one if it was kept in memory. Observers
are gone. -/
def openAgain (session : Session) (store : Store) (options : Option Options) :
    Except Failure StepResult × Session :=
  let options := options.getD session.options
  let session := { session with options, audience := {} }
  match Tree.openStore (if session.onFile then store else {}) options with
  | (.ok tree, _) => (.ok .done, session.withTree tree)
  | (.error e, store) => (.error (.refused e), { session with premises := .closed store })

/-! ## Steps -/

/-- The answers of several callers, or the first refusal. -/
def repeatChild (parent : NodeId) : Nat → Action Audience (List Node)
  | 0 => pure []
  | count + 1 => do
    let node ← Tree.createChild parent none
    return node :: (← repeatChild parent count)

def scheduleAll : List HierarchyId → Action Audience Unit
  | [] => pure ()
  | hierarchy :: rest => do
    discard (Action.schedule hierarchy)
    scheduleAll rest

/-- A step that needs an open tree. -/
def runOpen (session : Session) (tree : Tree) : Step → Except Failure StepResult × Session
  | .request request => session.answer tree request.run .answer
  | .subscribe observer =>
    let number := session.nextObserver
    let audience := { session.audience with
      observers := session.audience.observers ++ [(number, observer)] }
    (.ok (.subscribed number), { session with audience, nextObserver := number + 1 })
  | .unlisten =>
    (.ok .done, { session with audience := { session.audience with
      observers := session.audience.observers.filter fun o => o.2 matches .reactor _ } })
  | .lease request =>
    match tree.leases.run request with
    | .error e => (.error (.refused e), session)
    | .ok (answer, leases) =>
      (.ok (.leased answer leases.held), session.withTree { tree with leases })
  | .awaitIdle => session.answer tree Tree.flush fun _ => .done
  | .periodic =>
    session.answer tree (do
      scheduleAll (← Action.view (·.store.hierarchies.map (·.id)))
      Action.view (·.queue.pending)) (.answer ∘ .ids)
  | .parallelChildren parent count =>
    session.answer tree (repeatChild parent count) (.answer ∘ .nodes ∘ Store.sortNodes)
  | .race assets target script => session.race tree assets target script
  | .reopen options => session.openAgain tree.close options
  | .crashReopen options => session.openAgain tree.store options
  | .intrude edit =>
    if session.onFile then
      match edit.run tree.store with
      | some (result, store) => (.ok (.intruded result), session.withTree { tree with store })
      | none => (.error .rejected, session)
    else (.error (.malformed "file"), session)

/-- A step of the session. Without an open tree only opening one is possible. -/
def runStep (session : Session) (step : Step) : Except Failure StepResult × Session :=
  match session.premises, step with
  | .opened tree, _ => session.runOpen tree step
  | .closed store, .reopen options => session.openAgain store options
  | .closed store, .crashReopen options => session.openAgain store options
  | .closed _, _ => (.error .notOpen, session)

/-- One step with all that was heard during it. A step that cannot be understood fails as it is. -/
def step (session : Session) (step : Except Failure Step) : Entry × Session :=
  let (result, session) : Except Failure StepResult × Session := match step with
    | .error failure =>
      (.error (if session.tree?.isSome then failure else .notOpen), session)
    | .ok step => session.runStep step
  let audience := session.audience
  (⟨result, audience.heard, audience.callbacks⟩,
    { session with audience := { audience with heard := [], callbacks := [] } })

end Session
end Inventory
