import Inventory.Proofs.Consistency
import Inventory.Session.Basic

/-! # Databases that are opened again

A database is served by one tree after another. Trees are closed or end in a crash; jobs fail while
somebody else holds the lease, and what waits in a queue is lost with it. The mark of a hierarchy is
all that is left of an unfinished job then, and it is enough: the next tree repairs what is
marked before it answers. -/
namespace Inventory
set_option autoImplicit false
open Inventory.Store Relation

/-! ## The life of a database -/

namespace Premises

def store : Premises → Store
  | opened tree => tree.store
  | closed store => store

/-- What happens to a database from one transaction to the next. -/
inductive Follows : Premises → Premises → Prop
  /-- A request is answered or refused, before observers that do not act on the tree. -/
  | serve {σ : Type} {env : Surroundings σ} {w : World σ} (henv : env.Passive) (request : Request) :
      Follows (opened w.tree) (opened (request.run env w).2.tree)
  /-- Others take leases or give them back. -/
  | lease (tree : Tree) (leases : Leases) : Follows (opened tree) (opened { tree with leases })
  /-- The worker takes the jobs that are due. -/
  | take (tree : Tree) (now : Nat) :
      Follows (opened tree) (opened { tree with queue := tree.queue.takeDue now })
  /-- The worker runs the first of the jobs that it has taken. -/
  | job {σ : Type} {env : Surroundings σ} {w : World σ} (henv : env.Passive) :
      Follows (opened w.tree) (opened (Tree.runJobs (w.tree.queue.running.take 1) env w).2.tree)
  /-- The worker leaves. -/
  | retire (tree : Tree) : Follows (opened tree) (opened { tree with queue := tree.queue.retire })
  | close (tree : Tree) : Follows (opened tree) (closed tree.close)
  /-- The process ends while the tree is open, or after some repairs on the way of closing it. -/
  | crash (tree : Tree) (repairs : Nat) :
      Follows (opened tree) (closed (Tree.tryRepairAll (tree.queue.pending.take repairs)
        Surroundings.quiet (World.mk tree ())).2.tree.store)
  | openAgain {s : Store} {options : Options} {tree : Tree}
      (h : (Tree.openStore s options).1 = .ok tree) : Follows (closed s) (opened tree)
  | refused {s : Store} {options : Options} {e : Error} (h : (Tree.openStore s options).1 = .error e) :
      Follows (closed s) (closed (Tree.openStore s options).2)
  /-- The process ends after some of the repairs on the way of opening a tree. -/
  | crashOpening (s : Store) (options : Options) (repairs : Nat) :
      Follows (closed s) (closed (Tree.repairAll (s.pending.take repairs) Surroundings.quiet
        (World.mk { options, store := s } ())).2.tree.store)

end Premises

/-! ## Every store of a database is reachable -/

namespace Tree
variable {σ : Type} {env : Surroundings σ}

theorem serves_repair (henv : env.Passive) (hierarchy : HierarchyId) (w : World σ) :
    ReflTransGen ServesAny w.tree.store (reconcile hierarchy .repair env w).2.tree.store := by
  refine .single ⟨σ, env, w, .reconcile hierarchy, henv, rfl, rfl, ?_⟩
  exact congrArg (fun result => result.2.tree.store)
    (Action.map_run Answer.report (reconcile hierarchy .repair) env w)

theorem serves_runJobs (henv : env.Passive) (jobs : List HierarchyId) (w : World σ) :
    ReflTransGen ServesAny w.tree.store (runJobs jobs env w).2.tree.store :=
  (ensures_runJobs henv (fun _ => .refl) (fun _ _ _ => .trans) (serves_repair henv) jobs w rfl).2.2

theorem serves_tryRepairAll (henv : env.Passive) (jobs : List HierarchyId) (w : World σ) :
    ReflTransGen ServesAny w.tree.store (tryRepairAll jobs env w).2.tree.store := by
  induction jobs generalizing w with
  | nil => exact .refl
  | cons first rest ih => exact (serves_repair henv first w).trans (ih _)

theorem serves_repairAll (henv : env.Passive) (jobs : List HierarchyId) (w : World σ) :
    ReflTransGen ServesAny w.tree.store (repairAll jobs env w).2.tree.store := by
  induction jobs generalizing w with
  | nil => exact .refl
  | cons first rest ih =>
    have hfirst := serves_repair henv first w
    cases hrun : reconcile first .repair env w with
    | mk result w' =>
      rw [hrun] at hfirst
      cases result with
      | ok report =>
        have hstep : repairAll (first :: rest) env w = repairAll rest env w' :=
          Action.bind_of_ok (Action.bind_of_ok hrun)
        rw [hstep]
        exact hfirst.trans (ih w')
      | error e =>
        have hstep : repairAll (first :: rest) env w = (.error e, w') :=
          Action.bind_of_error (Action.bind_of_error hrun)
        rw [hstep]
        exact hfirst

theorem openStore_store (s : Store) (options : Options) :
    (openStore s options).2 = (repairAll s.pending Surroundings.quiet
      (World.mk { options, store := s } ())).2.tree.store ∧
    ∀ tree, (openStore s options).1 = .ok tree → tree.store = (openStore s options).2 := by
  rw [openStore]
  cases hrun : repairAll s.pending Surroundings.quiet (World.mk { options, store := s } ()) with
  | mk result w =>
    cases result with
    | ok _ =>
      refine ⟨rfl, fun tree h => ?_⟩
      cases h
      rfl
    | error e =>
      refine ⟨rfl, fun tree h => ?_⟩
      cases h

theorem serves_openStore (s : Store) (options : Options) :
    ReflTransGen ServesAny s (openStore s options).2 := by
  rw [(openStore_store s options).1]
  exact serves_repairAll Surroundings.passive_quiet s.pending (World.mk { options, store := s } ())

end Tree

/-- Whatever happens to a database, requests could have led to the same store. -/
theorem Premises.Follows.serves {p q : Premises} (h : Follows p q) :
    ReflTransGen ServesAny p.store q.store := by
  cases h with
  | @serve σ env w henv request => exact .single ⟨σ, env, w, request, henv, rfl, rfl, rfl⟩
  | lease | take | retire => exact .refl
  | @job σ env w henv => exact Tree.serves_runJobs henv _ w
  | close tree =>
    exact Tree.serves_tryRepairAll Surroundings.passive_quiet tree.queue.pending
      (World.mk { tree with queue := tree.queue.takePending.2 } ())
  | crash tree repairs =>
    exact Tree.serves_tryRepairAll Surroundings.passive_quiet _ (World.mk tree ())
  | @openAgain s options tree h =>
    have hstore := (Tree.openStore_store s options).2 tree h
    rw [store, store, hstore]
    exact Tree.serves_openStore s options
  | refused => exact Tree.serves_openStore _ _
  | crashOpening s options repairs =>
    exact Tree.serves_repairAll Surroundings.passive_quiet _ (World.mk { options, store := s } ())

theorem Premises.reachable_of_follows {p q : Premises} (h : ReflTransGen Follows p q)
    (hp : p.store.Reachable) : q.store.Reachable := by
  induction h with
  | refl => exact hp
  | tail _ hstep ih => exact ih.serves hstep.serves

/-! ## What the next tree answers -/

/-- What a tree answers while nobody acts on it. -/
def Tree.answer (tree : Tree) (request : Request) : Except Error Answer :=
  (request.run Surroundings.quiet (World.mk tree ())).1

/-- The tree holds what the store held, all its cached amounts are exact, and nothing is left to be
done. -/
structure Recovered (s : Store) (tree : Tree) : Prop where
  hierarchies : tree.store.hierarchies = s.hierarchies
  nodes : tree.store.nodes.map NodeRow.bare = s.nodes.map NodeRow.bare
  assets : tree.store.assets = s.assets
  attachments : tree.store.attachments = s.attachments
  pending : tree.answer .pending = .ok (.ids [])
  counts : ∀ host ∈ s.hierarchies, ∃ nodes counts,
    tree.answer (.nodes host.id) = .ok (.nodes nodes) ∧
      tree.answer (.computedCounts host.id) = .ok (.counts counts) ∧
      counts.map (fun count => (count.1, (count.2 : Int))) =
        nodes.map fun node => (node.key, node.amount)
  clean : ∀ host ∈ s.hierarchies, ∃ report,
    tree.answer (.check host.id) = .ok (.report report) ∧ report.clean = true

section
variable {s : Store} {tree : Tree}

theorem Tree.answer_read {α : Type} (wrap : α → Answer) (question : Store → Except Error α)
    {request : Request} (h : ∀ {σ : Type}, (request.run : Action σ Answer) = wrap <$> Action.read question) :
    tree.answer request = wrap <$> question tree.store := by
  rw [answer, h, Action.map_run]
  rfl

theorem Tree.answer_check (hs : tree.store.Tidy) {host : Hierarchy}
    (hhost : host ∈ tree.store.hierarchies) (hunmarked : host.id ∉ tree.store.marked) :
    ∃ report, tree.answer (.check host.id) = .ok (.report report) ∧ report.clean = true := by
  obtain ⟨report, hrun, hclean⟩ := hs.check_clean ⟨host, hhost, rfl⟩ hunmarked
  refine ⟨report, ?_, hclean⟩
  rw [answer, checks_of_reconcile ⟨host, hhost, rfl⟩ hrun Surroundings.quiet (World.mk tree ()) rfl]

/-- A tree that has been opened without a mark left in the store. -/
theorem Store.Repaired.recovered {repairs : List HierarchyId} (h : Repaired repairs s tree.store)
    (hmarked : tree.store.marked = []) : Recovered s tree := by
  have hunmarked : ∀ host, host ∉ tree.store.marked := fun host => hmarked ▸ List.not_mem_nil
  refine ⟨h.hierarchies, h.nodes, h.assets, h.attachments, ?_, fun host hhost => ?_,
    fun host hhost => ?_⟩
  · show (.ok (.ids (sortIds tree.store.marked)) : Except Error Answer) = _
    rw [hmarked, sortIds, List.mergeSort_nil]
  · obtain ⟨nodes, counts, hnodes, hcounts, heq⟩ := h.tidy.computedCounts_eq (hunmarked host.id)
    refine ⟨nodes, counts, ?_, ?_, heq⟩
    · rw [tree.answer_read .nodes (·.nodesOf host.id) rfl, hnodes]
      rfl
    · rw [tree.answer_read .counts (·.computedCounts host.id) rfl, hcounts]
      rfl
  · exact Tree.answer_check h.tidy (h.hierarchies ▸ hhost) (hunmarked host.id)

/-- However a database has come to be closed, it can be opened, and the tree recovers it. -/
theorem Premises.exists_recovered (h : ReflTransGen Follows (closed {}) (closed s))
    (options : Options) :
    ∃ tree, Tree.openStore s options = (.ok tree, tree.store) ∧ tree.options = options ∧
      Recovered s tree := by
  have hs : s.Tidy := (reachable_of_follows h Reachable.empty).tidy
  obtain ⟨t, hrepaired, hmarked, hopen⟩ := hs.openStore_eq options
  exact ⟨{ options, store := t }, hopen, rfl, hrepaired.recovered hmarked⟩

end

theorem Premises.follows_after (tree : Tree) (requests : List Request) :
    ReflTransGen Follows (opened tree) (opened (tree.after requests)) := by
  induction requests generalizing tree with
  | nil => exact .refl
  | cons request rest ih =>
    exact .head (.serve (w := World.mk tree ()) Surroundings.passive_quiet request) (ih _)

/-- The library with all amounts left for later, while somebody else holds its lease. -/
def Tree.leased : Tree :=
  { ({ options := { batchLimit := 0 } } : Tree).after library with leases := ⟨[1]⟩ }

/-- The job of the library fails when its tree is closed, and the next tree makes up for it. -/
theorem Premises.exists_recovered_leased :
    Tree.leased.close.marked = [1] ∧ ∃ tree, Tree.openStore Tree.leased.close {} = (.ok tree, tree.store) ∧
      tree.options = {} ∧ Recovered Tree.leased.close tree := by
  have hempty : (Tree.openStore {} { batchLimit := 0 }).1 =
      .ok { options := { batchLimit := 0 } } := by decide +kernel
  have hopen : Follows (closed {}) (opened { options := { batchLimit := 0 } }) := .openAgain hempty
  have hlife : ReflTransGen Follows (closed {}) (closed Tree.leased.close) :=
    ((ReflTransGen.head hopen (follows_after _ library)).tail (.lease _ ⟨[1]⟩)).tail (.close _)
  exact ⟨by decide +kernel, exists_recovered hlife {}⟩

end Inventory
