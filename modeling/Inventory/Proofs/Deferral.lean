import Inventory.Proofs.Recovery
import Inventory.Proofs.Tree.Deferral

/-! # Deferred repairs of an open tree

While a tree is open, its mark and its job go together for each hierarchy: requests that defer
amounts leave both, and a job that is done takes both away. Others may take leases and act while
requests are served, the worker may take jobs and run them whenever it likes. Only a job that waits
for a lease in vain goes and leaves the mark. A flush while no lease is held then repairs all other
hierarchies that are marked. -/
namespace Inventory
set_option autoImplicit false
open Inventory.Store Relation
variable {σ : Type} {env : Surroundings σ} {w : World σ} {alone : Prop}
  {failing earlier missed : Set HierarchyId}

namespace Tree
variable {start tree u : Tree}

/-! ## The life of an open tree -/

/-- What happens to an open tree. The failing hierarchies are those whose jobs have waited for a
lease in vain; a tree that is served alone has observers that do not act on it. -/
inductive Lives (alone : Prop) (failing : Set HierarchyId) : Tree → Tree → Prop
  | refl (tree : Tree) : Lives alone failing tree tree
  | trans {tree u v : Tree} (first : Lives alone failing tree u) (rest : Lives alone failing u v) :
      Lives alone failing tree v
  /-- A request is answered or refused, and others act at its moments. A flush is no request here:
  it makes jobs due and waits until the worker has run them. -/
  | serve {σ : Type} {env : Surroundings σ} {w : World σ} {request : Request}
      (hjobs : request ≠ .flush) (hothers : ∀ m v, Lives alone failing v.tree (env m v).tree)
      (halone : alone → env.Passive) : Lives alone failing w.tree (request.run env w).2.tree
  /-- Others take leases or give them back. -/
  | lease (tree : Tree) (leases : Leases) : Lives alone failing tree { tree with leases }
  | hasten (tree : Tree) (now : Nat) :
      Lives alone failing tree { tree with queue := tree.queue.hasten now }
  /-- The worker takes the jobs that are due. -/
  | take (tree : Tree) (now : Nat) :
      Lives alone failing tree { tree with queue := tree.queue.takeDue now }
  /-- The worker runs the first of the jobs that it has taken, to its end. Nothing of it is done
  before it has the lease, so what others do while it waits may as well come first. -/
  | job {σ : Type} {env : Surroundings σ} {w : World σ} {host : HierarchyId}
      {rest : List HierarchyId} (henv : env.Passive) (hrunning : w.tree.queue.running = host :: rest)
      (hends : (reconcile host .repair env w).1 ≠ .error (.waitsForever host))
      (hfails : (reconcile host .repair env w).1 = .error (.lockTimeout host) → host ∈ failing) :
      Lives alone failing w.tree (runJobs [host] env w).2.tree
  /-- The worker leaves. -/
  | retire (tree : Tree) : Lives alone failing tree { tree with queue := tree.queue.retire }

/-! ## Jobs -/

theorem runJobs_singleton (env : Surroundings σ) (host : HierarchyId) (w : World σ) :
    ∃ failed, runJobs [host] env w =
      (.ok (), (reconcile host .repair env w).2.finished failed) := ⟨_, rfl⟩

/-- A repair is done, waits for the lease in vain, or finds no hierarchy. -/
theorem repair_ends (henv : env.Passive) (hs : w.tree.store.Sturdy) (host : HierarchyId) :
    (∃ report s, Repairs [host] w.tree.store s ∧
        (reconcile host .repair env w).1 = .ok report ∧
        (reconcile host .repair env w).2.tree = { w.tree with store := s }) ∨
      (reconcile host .repair env w).2.tree = w.tree ∧
        (w.tree.leases.isHeld host = true ∧
            ((reconcile host .repair env w).1 = .error (.lockTimeout host) ∨
              (reconcile host .repair env w).1 = .error (.waitsForever host)) ∨
          (reconcile host .repair env w).1 = .error (.notFound .hierarchy) ∧
            ¬∃ known ∈ w.tree.store.hierarchies, known.id = host) := by
  by_cases hhost : ∃ known ∈ w.tree.store.hierarchies, known.id = host
  · cases hheld : w.tree.leases.isHeld host with
    | false => exact Or.inl (repair_free henv hs hhost hheld)
    | true =>
      have hrest : reconcile host .repair env w =
          Action.holding host (Action.write (Store.reconcile host .repair)) env w :=
        reconcile_of_host hhost .repair
      rw [hrest, Action.holding]
      have hquiet := henv (.waiting host) w
      generalize env (.waiting host) w = v at hquiet ⊢
      dsimp only
      rw [hquiet, Leases.acquire, if_pos hheld]
      refine Or.inr ⟨hquiet, Or.inl ⟨rfl, ?_⟩⟩
      cases w.tree.options.lockTimeout with
      | none => exact Or.inr rfl
      | some _ => exact Or.inl rfl
  · rw [reconcile_of_unknown hhost]
    exact Or.inr ⟨rfl, Or.inr ⟨rfl, hhost⟩⟩

/-- Only somebody else's lease makes a repair wait. -/
theorem repair_unhindered (henv : env.Passive) (hs : w.tree.store.Sturdy) {host : HierarchyId}
    (hfree : w.tree.leases.isHeld host = false) :
    (reconcile host .repair env w).1 ≠ .error (.lockTimeout host) ∧
      (reconcile host .repair env w).1 ≠ .error (.waitsForever host) := by
  rcases repair_ends henv hs host with ⟨_, _, -, hok, -⟩ | ⟨-, ⟨hheld, -⟩ | ⟨hnone, -⟩⟩
  · rw [hok]
    exact ⟨nofun, nofun⟩
  · rw [hfree] at hheld
    cases hheld
  · rw [hnone]
    exact ⟨nofun, nofun⟩

/-- A job takes its mark with it, unless it has waited for the lease in vain. -/
theorem heeds_job (henv : env.Passive) {host : HierarchyId} {rest : List HierarchyId}
    (hrunning : w.tree.queue.running = host :: rest)
    (hends : (reconcile host .repair env w).1 ≠ .error (.waitsForever host))
    (hfails : (reconcile host .repair env w).1 = .error (.lockTimeout host) → host ∈ failing) :
    Heeds failing ∅ w.tree (runJobs [host] env w).2.tree := by
  refine heeds_of_assigned fun hs => ?_
  obtain ⟨failed, hrun⟩ := runJobs_singleton env host w
  have hleft : ∀ h ∈ w.tree.queue.jobs, h ≠ host → h ∈ (w.tree.queue.finish failed).jobs := by
    intro h hjob hne
    rw [Queue.jobs, hrunning, List.mem_append, List.mem_cons] at hjob
    rw [Queue.jobs, Queue.finish, hrunning, List.tail_cons, List.mem_append]
    exact hjob.imp id fun htaken => htaken.resolve_left hne
  rw [hrun, World.finished]
  dsimp only
  rcases repair_ends henv hs host with ⟨_, s, hrepairs, -, htree⟩ | ⟨htree, hcause⟩
  · rw [htree]
    have hmended := hrepairs.mended hs
    refine ⟨hmended.sturdy, fun _ _ hmissed h hmarked => ?_⟩
    obtain ⟨hold, hne⟩ := (hmended.marked h).1 hmarked
    exact (hmissed h hold).imp id fun hjob => hleft h hjob fun heq =>
      hne (heq ▸ List.mem_singleton_self h)
  · rw [htree]
    refine ⟨hs, fun missed hfailing hmissed h hmarked => ?_⟩
    by_cases hne : h = host
    · subst hne
      rcases hcause with ⟨-, htimeout | hforever⟩ | ⟨-, hunknown⟩
      · exact Or.inl (hfailing (hfails htimeout))
      · exact absurd hforever hends
      · exact absurd (hs.vouched h hmarked) hunknown
    · exact (hmissed h hmarked).imp id fun hjob => hleft h hjob hne

/-- Whatever happens to an open tree, no marked hierarchy is without its job but the failing. -/
theorem Lives.heeds (h : Lives alone failing tree u) : Heeds failing ∅ tree u := by
  induction h with
  | refl tree => exact heeds_refl tree
  | trans _ _ ih ih' =>
    rw [← Set.union_empty ∅]
    exact ih.trans ih'
  | @serve _ env w request hjobs _ _ ih => exact request.settles ih hjobs w
  | lease tree leases => exact heeds_of_eq rfl fun _ => Iff.rfl
  | hasten tree now => exact heeds_of_eq rfl fun h => by rw [Queue.jobs_hasten]
  | take tree now => exact heeds_of_eq rfl fun h => Queue.mem_jobs_takeDue _ _
  | job henv hrunning hends hfails => exact heeds_job henv hrunning hends hfails
  | retire tree => exact heeds_of_eq rfl fun h => by rw [Queue.jobs_retire]

theorem Lives.serves (h : Lives alone failing tree u) (halone : alone) :
    ReflTransGen ServesAny tree.store u.store := by
  induction h with
  | refl | lease | hasten | take | retire => exact .refl
  | trans _ _ ih ih' => exact ih.trans ih'
  | @serve σ env w request _ _ hpassive _ =>
    exact .single ⟨σ, env, w, request, hpassive halone, rfl, rfl, rfl⟩
  | @job _ _ w host _ henv _ _ _ => exact serves_runJobs henv [host] w

/-! ## Flushes -/

/-- While no lease is held, jobs that have been taken are run one after another. -/
theorem lives_runJobs (henv : env.Passive) (hs : w.tree.store.Sturdy) (hfree : w.tree.leases = {})
    {jobs rest : List HierarchyId} (hrunning : w.tree.queue.running = jobs ++ rest) :
    Lives alone failing w.tree (runJobs jobs env w).2.tree := by
  induction jobs generalizing w with
  | nil => exact .refl _
  | cons first others ih =>
    have hheld : w.tree.leases.isHeld first = false := by
      rw [hfree]
      rfl
    obtain ⟨hfails, hends⟩ := repair_unhindered henv hs hheld
    have hfirst : Lives alone failing w.tree (runJobs [first] env w).2.tree :=
      .job henv hrunning hends fun htimeout => absurd htimeout hfails
    obtain ⟨s, stats, hrepairs, -, htree⟩ := runJobs_free henv hs hfree [first]
    have hrun : runJobs (first :: others) env w = runJobs others env (runJobs [first] env w).2 := rfl
    rw [hrun]
    refine hfirst.trans (ih ?_ ?_ ?_)
    · rw [htree]
      exact (hrepairs.mended hs).sturdy
    · rw [htree]
      exact hfree
    · rw [htree, hrunning]
      rfl

/-- A flush is a way to go through these steps. -/
theorem lives_flush (henv : env.Passive) (hs : w.tree.store.Sturdy) (hfree : w.tree.leases = {}) :
    Lives alone failing w.tree (flush env w).2.tree := by
  let due : World σ := { w with tree := { w.tree with queue := (w.tree.queue.hasten 0).takeDue 0 } }
  have hdue : Lives alone failing w.tree due.tree := (Lives.hasten w.tree 0).trans (.take _ 0)
  have hruns : Lives alone failing due.tree (runJobs due.tree.queue.running env due).2.tree :=
    lives_runJobs (w := due) henv hs hfree (List.append_nil _).symm
  obtain ⟨s, stats, -, hok, -⟩ := runJobs_free (w := due) henv hs hfree due.tree.queue.running
  have hflush : flush env w =
      (runJobs due.tree.queue.running >>= fun _ => updateQueue Queue.retire) env due := rfl
  rw [hflush]
  cases hrun : runJobs due.tree.queue.running env due with
  | mk result v =>
    rw [hrun] at hruns hok
    dsimp only at hok
    subst hok
    rw [Action.bind_of_ok hrun]
    exact (hdue.trans hruns).trans (.retire v.tree)

/-- A flush while no lease is held leaves no marks but those without a job. -/
theorem flush_marked (henv : env.Passive) (hs : w.tree.store.Sturdy) (hfree : w.tree.leases = {})
    (hassigned : w.tree.Assigned missed) :
    (flush env w).1 = .ok () ∧ (∀ h ∈ (flush env w).2.tree.store.marked, h ∈ missed) ∧
      ∀ h ∈ w.tree.queue.jobs, (flush env w).2.tree.store.Counted h := by
  obtain ⟨jobs, s, queue, hjobs, hrepairs, hok, htree⟩ := flush_free henv hs hfree
  have hmended := hrepairs.mended hs
  rw [htree]
  refine ⟨hok, fun h hmarked => ?_, fun h hjob => hmended.counted h ((hjobs h).2 hjob)⟩
  obtain ⟨hold, hleft⟩ := (hmended.marked h).1 hmarked
  exact (hassigned h hold).resolve_right fun hjob => hleft ((hjobs h).2 hjob)

/-- An opened tree has nothing marked. -/
theorem assigned_of_openStore {s : Store} (hs : s.Sturdy) {options : Options}
    (h : (openStore s options).1 = .ok tree) : tree.store.Sturdy ∧ tree.Assigned ∅ := by
  obtain ⟨t, hrepairs, hopen⟩ := hs.openStore_eq options
  rw [hopen] at h
  cases h
  have hmended := hrepairs.mended hs
  refine ⟨hmended.sturdy, fun host hmarked => ?_⟩
  obtain ⟨hold, hleft⟩ := (hmended.marked host).1 hmarked
  exact absurd (mem_pending.2 hold) hleft

/-- However an open tree has come to be, every marked hierarchy has its job, but for those whose
job has waited for a lease in vain and has not been asked for since. A flush while no lease is held
leaves no other marks, and exact amounts of all hierarchies that it has repaired; if observers have
never acted on the tree, all amounts without a mark are exact as well. -/
theorem Lives.reconciled {s : Store} {options : Options} (hs : s.Sturdy)
    (hopen : (openStore s options).1 = .ok start) (hpast : Lives alone earlier start u)
    (hsince : Lives alone failing u tree) (hfailing : failing ⊆ missed) (hmissed : u.Assigned missed) :
    (∀ h ∈ tree.store.marked, h ∈ missed ∨ h ∈ tree.queue.jobs) ∧
      ∀ {σ : Type} {env : Surroundings σ} {w : World σ}, env.Passive → w.tree = tree →
        tree.leases = {} → (flush env w).1 = .ok () ∧
          (∀ h ∈ (flush env w).2.tree.store.marked, h ∈ missed) ∧
          ∀ h, h ∈ tree.queue.jobs ∨
              h ∉ (flush env w).2.tree.store.marked ∧ alone ∧ s.Reachable →
            (flush env w).2.tree.store.Counted h := by
  obtain ⟨hstart, -⟩ := assigned_of_openStore hs hopen
  obtain ⟨hu, -⟩ := hpast.heeds hstart
  obtain ⟨htree, hassigned⟩ := hsince.heeds hu
  have hcovered := hassigned missed hfailing (by rwa [Set.union_empty])
  refine ⟨hcovered, fun {σ env w} henv hw hfree => ?_⟩
  subst hw
  obtain ⟨hok, hmarked, hcounted⟩ := flush_marked henv htree hfree hcovered
  refine ⟨hok, hmarked, fun h hh => ?_⟩
  rcases hh with hjob | ⟨hunmarked, halone, hreachable⟩
  · exact hcounted h hjob
  · have hserves : ReflTransGen ServesAny s w.tree.store := by
      have hopened := serves_openStore s options
      rw [← (openStore_store s options).2 start hopen] at hopened
      exact hopened.trans ((hpast.serves halone).trans (hsince.serves halone))
    have hflush : Lives True ∅ w.tree (flush env w).2.tree := lives_flush henv htree hfree
    have hsettled := ((hreachable.serves hserves).serves (hflush.serves trivial)).sound.settled
    exact fun row hrow hh => hsettled row hrow (hh ▸ hunmarked)

/-- Requests that nobody watches are part of the life of a tree. -/
theorem lives_after {requests : List Request} (h : Request.flush ∉ requests) :
    Lives alone failing tree (tree.after requests) := by
  induction requests generalizing tree with
  | nil => exact .refl tree
  | cons request rest ih =>
    rw [List.mem_cons, not_or] at h
    exact .trans (.serve (w := World.mk tree ()) (Ne.symm h.1) (fun _ _ => .refl _)
      fun _ => Surroundings.passive_quiet) (ih h.2)

/-- A tree that leaves all amounts for later and does not wait long for leases. -/
def hasty : Tree := { options := { batchLimit := 0, lockTimeout := some 40 } }

/-- Its hierarchy waits for the repair. -/
def deferred : Tree := hasty.after [.createHierarchy "Library", .createAsset 1 "Atlas" [1]]

/-- The worker takes the job, which is run while somebody else holds the lease. -/
def jammed : Tree :=
  { deferred with leases := ⟨[1]⟩, queue := (deferred.queue.hasten 0).takeDue 0 }

/-- The job has failed, and the lease is free again. -/
def starved : Tree :=
  { (runJobs [1] Surroundings.quiet (World.mk jammed ())).2.tree with leases := {} }

theorem lives_deferred : Lives True ∅ hasty deferred := lives_after (by decide)

theorem lives_starved : Lives True Set.univ hasty starved := by
  have hdeferred : Lives True Set.univ hasty deferred := lives_after (by decide)
  have hjammed : Lives True Set.univ deferred jammed :=
    ((Lives.lease deferred ⟨[1]⟩).trans (.hasten _ 0)).trans (.take _ 0)
  have hrunning : jammed.queue.running = [1] := by decide +kernel
  have hends : (reconcile 1 .repair Surroundings.quiet (World.mk jammed ())).1 ≠
      .error (.waitsForever 1) := by decide +kernel
  have hjob : Lives True Set.univ jammed
      (runJobs [1] Surroundings.quiet (World.mk jammed ())).2.tree :=
    .job Surroundings.passive_quiet hrunning hends fun _ => Set.mem_univ _
  exact ((hdeferred.trans hjammed).trans hjob).trans (.lease _ {})

/-- The amounts that were left for later are exact after a flush. -/
theorem reconciled_deferred :
    deferred.store.marked = [1] ∧ (∀ h ∈ deferred.store.marked, h ∈ deferred.queue.jobs) ∧
      (flush Surroundings.quiet (World.mk deferred ())).2.tree.store.marked = [] ∧
      ∀ h, (flush Surroundings.quiet (World.mk deferred ())).2.tree.store.Counted h := by
  have hopen : (openStore {} hasty.options).1 = .ok hasty := by decide +kernel
  have hempty : Store.Reachable {} := .empty
  obtain ⟨hstart, hnone⟩ := assigned_of_openStore hempty.tidy.sturdy hopen
  have hfresh : Lives True ∅ hasty hasty := .refl hasty
  obtain ⟨hjobs, hflush⟩ := Lives.reconciled hempty.tidy.sturdy hopen hfresh
    lives_deferred Set.Subset.rfl hnone
  obtain ⟨-, hmarked, hcounted⟩ := hflush (w := World.mk deferred ()) Surroundings.passive_quiet rfl
    (by decide +kernel)
  have hnothing : (flush Surroundings.quiet (World.mk deferred ())).2.tree.store.marked = [] :=
    List.eq_nil_iff_forall_not_mem.2 fun h hh => Set.notMem_empty h (hmarked h hh)
  refine ⟨by decide +kernel, fun h hh => (hjobs h hh).resolve_left (Set.notMem_empty h), hnothing,
    fun h => hcounted h (Or.inr ⟨?_, trivial, hempty⟩)⟩
  rw [hnothing]
  exact List.not_mem_nil

/-- A job that has waited for the lease in vain is gone for good, and flushes do not bring it back. -/
theorem not_reconciled_starved :
    (¬∀ start tree, (openStore {} start.options).1 = .ok start → Lives True Set.univ start tree →
        ∀ h ∈ tree.store.marked, h ∈ tree.queue.jobs) ∧
      ¬∀ start tree, (openStore {} start.options).1 = .ok start → Lives True Set.univ start tree →
        tree.leases = {} → (flush Surroundings.quiet (World.mk tree ())).2.tree.store.marked = [] := by
  have hopen : (openStore {} hasty.options).1 = .ok hasty := by decide +kernel
  have hmarked : starved.store.marked = [1] := by decide +kernel
  have hjobs : starved.queue.jobs = [] := by decide +kernel
  have hflush : (flush Surroundings.quiet (World.mk starved ())).2.tree.store.marked = [1] := by
    decide +kernel
  constructor
  · intro hall
    have hjob := hall hasty starved hopen lives_starved 1 (by rw [hmarked]; exact List.mem_singleton_self 1)
    rw [hjobs] at hjob
    exact List.not_mem_nil hjob
  · intro hall
    have hnone := hall hasty starved hopen lives_starved rfl
    rw [hflush] at hnone
    cases hnone

end Tree

end Inventory
