import Inventory.Request

/-! The observers of a session. A listener passes on every notice it hears. A reactor answers a
number of notices of one phase by requests to the same tree, from inside the call; those requests
call the observers in their turn. Calls are nested no deeper than the calls that reactors have left
to answer, and that number bounds the recursion. -/
namespace Inventory
set_option autoImplicit false

/-- Why a step of a session gives no answer. -/
inductive Failure where
  /-- The step lacks a field or has one of the wrong type. -/
  | malformed (field : String)
  | notOpen
  /-- The store refused an edit made behind the tree. -/
  | rejected
  | refused (error : Error)
  deriving DecidableEq

/-- A request as it was written down; one that cannot be understood fails when its turn comes. -/
abbrev Scripted := Except Failure Request

structure Reaction where
  phase : Phase
  /-- How many notices are still answered. -/
  times : Nat
  script : List Scripted

inductive Observer where
  | listener
  | reactor (reaction : Reaction)

abbrev Transcript := List (Except Failure Answer)

/-- What a reactor got for its requests. -/
structure Callback where
  observer : Nat
  phase : Phase
  results : Transcript

/-- The observers in the order of their subscription, with their numbers, and what was heard. -/
structure Audience where
  observers : List (Nat × Observer) := []
  /-- Notices passed on, each with the number of its listener, in the order they were heard. -/
  heard : List (Nat × Notice) := []
  /-- Finished callbacks, an inner one before the one that contains it. -/
  callbacks : List Callback := []

namespace Observer

/-- How many notices the observer may still answer. -/
def remaining : Observer → Nat
  | listener => 0
  | reactor reaction => reaction.times

/-- The observer after it has begun to answer one more notice. -/
def used : Observer → Observer
  | listener => listener
  | reactor reaction => reactor { reaction with times := reaction.times - 1 }

/-- What the observer asks of the tree upon a notice of some phase. -/
def response? (phase : Phase) : Observer → Option (List Scripted)
  | listener => none
  | reactor reaction =>
    if reaction.phase = phase ∧ 0 < reaction.times then some reaction.script else none

end Observer

namespace Audience

/-- The calls that reactors have left to answer. -/
def remaining (audience : Audience) : Nat :=
  audience.observers.foldr (fun o calls => o.2.remaining + calls) 0

def find? (audience : Audience) (number : Nat) : Option Observer := audience.observers.lookup number

/-- Notes that an observer begins to answer a notice. -/
def use (audience : Audience) (number : Nat) : Audience :=
  { audience with
    observers := audience.observers.map fun (n, o) => (n, if n = number then o.used else o) }

/-- Notes what a listener passes on. -/
def pass (audience : Audience) (number : Nat) (notice : Notice) : Audience :=
  { audience with heard := audience.heard ++ [(number, notice)] }

/-- Carries out a script. -/
def perform (inner : Surroundings Audience) :
    List Scripted → World Audience → Transcript × World Audience
  | [], w => ([], w)
  | .error failure :: rest, w =>
    let (results, w) := perform inner rest w
    (.error failure :: results, w)
  | .ok request :: rest, w =>
    let (result, w) := request.run inner w
    let (results, w) := perform inner rest w
    (result.mapError .refused :: results, w)

def call (inner : Surroundings Audience) (notice : Notice) (w : World Audience) (number : Nat) :
    World Audience :=
  match w.outside.find? number with
  | none => w
  | some .listener => { w with outside := w.outside.pass number notice }
  | some observer =>
    match observer.response? notice.phase with
    | none => w
    | some script =>
      let (results, w) := perform inner script { w with outside := w.outside.use number }
      { w with outside := { w.outside with
          callbacks := w.outside.callbacks ++ [⟨number, notice.phase, results⟩] } }

/-- Calls every observer, in the order of their subscription. -/
def respond (inner : Surroundings Audience) : Surroundings Audience
  | .waiting _, w => w
  | .notice notice, w => (w.outside.observers.map (·.1)).foldl (call inner notice) w

/-- The audience as surroundings, for callbacks nested up to a depth. -/
def surroundings : Nat → Surroundings Audience
  | 0 => respond Surroundings.quiet
  | depth + 1 => respond (surroundings depth)

end Audience
end Inventory
