import Inventory.Lease
import Inventory.Notice
import Inventory.Options
import Inventory.Queue

/-! An open tree, and what an operation on it may do. Operations read the store, change it in
transactions, hold leases and call observers. Others act on the tree in between: at the moment
before a lease is asked for, and in the calls of observers. Their part is played by the
surroundings, which may change the tree and keep a state of their own, so that one definition of an
operation covers the quiet case and every interleaving at these moments. -/
namespace Inventory
set_option autoImplicit false

structure Tree where
  options : Options := {}
  store : Store := {}
  leases : Leases := {}
  queue : Queue := {}
  deriving DecidableEq

/-- A tree together with what its surroundings keep. -/
structure World (σ : Type) where
  tree : Tree
  outside : σ

/-- The moments at which others act. -/
inductive Moment where
  /-- The operation has read what it needs and is about to ask for a lease. -/
  | waiting (hierarchy : HierarchyId)
  /-- Observers are called. -/
  | notice (notice : Notice)

/-- What others do at each moment of an operation. -/
abbrev Surroundings (σ : Type) := Moment → World σ → World σ

namespace Surroundings

def quiet {σ : Type} : Surroundings σ := fun _ w => w

/-- An observer that only writes down what it is told. -/
def journal : Surroundings (List Notice)
  | .waiting _, w => w
  | .notice n, w => { w with outside := w.outside ++ [n] }

end Surroundings

/-- An operation: its result, and the world after it whether it fails or not. -/
def Action (σ α : Type) := Surroundings σ → World σ → Except Error α × World σ

namespace Action

variable {σ α β : Type}

protected def pure (a : α) : Action σ α := fun _ w => (.ok a, w)

protected def bind (act : Action σ α) (next : α → Action σ β) : Action σ β := fun env w =>
  match act env w with
  | (.ok a, w) => next a env w
  | (.error e, w) => (.error e, w)

instance : Monad (Action σ) where
  pure := Action.pure
  bind := Action.bind

def lift (result : Except Error α) : Action σ α := fun _ w => (result, w)

def view (question : Tree → α) : Action σ α := fun _ w => (.ok (question w.tree), w)

def read (question : Store → Except Error α) : Action σ α := fun _ w =>
  (question w.tree.store, w)

/-- Changes the store, or fails and leaves it as it is. -/
def write (change : Transaction α) : Action σ α := fun _ w =>
  match change w.tree.store with
  | .ok (a, store) => (.ok a, { w with tree := { w.tree with store } })
  | .error e => (.error e, w)

/-- Holds the lease of a hierarchy during an action and gives it back however that ends. -/
def holding (hierarchy : HierarchyId) (act : Action σ α) : Action σ α := fun env w =>
  let w := env (.waiting hierarchy) w
  match w.tree.leases.acquire hierarchy w.tree.options.lockTimeout with
  | .error e => (.error e, w)
  | .ok leases =>
    let (result, w) := act env { w with tree := { w.tree with leases } }
    (result, { w with tree := { w.tree with leases := w.tree.leases.release hierarchy } })

/-- Calls the observers; no changes are no call. -/
def announce (phase : Phase) (hierarchy : HierarchyId) (changes : List Change) : Action σ Unit :=
  fun env w =>
    (.ok (), if changes.isEmpty then w else env (.notice ⟨phase, hierarchy, changes⟩) w)

/-- Asks for a reconciliation after the time in which requests are merged. -/
def schedule (hierarchy : HierarchyId) : Action σ Bool := fun _ w =>
  let (fresh, queue) := w.tree.queue.schedule hierarchy w.tree.options.coalesceWindow
  (.ok fresh, { w with tree := { w.tree with queue } })

/-- Leaves amounts for a reconciliation, unless they were adjusted at once. -/
def deferUnless (propagated : Bool) (hierarchy : HierarchyId) : Action σ Unit :=
  if propagated then pure () else discard (schedule hierarchy)

/-- Whether a batch of the given size is adjusted at once. -/
def propagates (batch : Nat) : Action σ Bool := view (·.options.propagates batch)

end Action
end Inventory
