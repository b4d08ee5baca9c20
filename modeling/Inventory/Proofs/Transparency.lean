import Inventory.Proofs.Forest
import Inventory.Proofs.Twins.Requests

/-! # Deferral is transparent

Whether amounts are adjusted at once or left for a job, when jobs are done and when a database is
closed and opened again in between does not show, except in the amounts and in what tells of jobs.
Two executions of the same requests answer them alike and keep the same hierarchies, nodes, assets
and attachments all the way; after a flush the amounts are the same as well. -/
namespace Inventory
set_option autoImplicit false
open Inventory.Store Relation

/-! ## Executions -/

/-- What may happen to a tree between two requests: jobs are done, and the database is closed and
opened again, perhaps with another limit for batches. -/
inductive Tree.Idles : Tree → Tree → Prop
  /-- The worker takes the jobs that are due. -/
  | take (tree : Tree) (now : Nat) : Idles tree { tree with queue := tree.queue.takeDue now }
  /-- The worker runs the first of the jobs that it has taken. -/
  | job {σ : Type} {env : Surroundings σ} {w : World σ} (henv : env.Passive) :
      Idles w.tree (runJobs (w.tree.queue.running.take 1) env w).2.tree
  /-- The worker leaves. -/
  | retire (tree : Tree) : Idles tree { tree with queue := tree.queue.retire }
  | flush {σ : Type} {env : Surroundings σ} {w : World σ} (henv : env.Passive) :
      Idles w.tree (flush env w).2.tree
  | repair {σ : Type} {env : Surroundings σ} {w : World σ} (henv : env.Passive)
      (hierarchy : HierarchyId) : Idles w.tree (reconcile hierarchy .repair env w).2.tree
  | reopen {tree tree' : Tree} {options : Options}
      (hoptions : options.unlimited = tree.options.unlimited)
      (h : (openStore tree.close options).1 = .ok tree') : Idles tree tree'

/-- A request with what came of it and the store after it. -/
structure Served where
  request : Request
  result : Except Error Answer
  store : Store

/-- Requests are served one after another, each before observers that do not act on the tree, with
anything of the kind above in between. -/
inductive Tree.Executes : Tree → List Served → Tree → Prop
  | done {tree last : Tree} (hidle : ReflTransGen Idles tree last) : Executes tree [] last
  | serve {σ : Type} {env : Surroundings σ} {w : World σ} {tree last : Tree} {log : List Served}
      (hidle : ReflTransGen Idles tree w.tree) (henv : env.Passive) (request : Request)
      (hrest : Executes (request.run env w).2.tree log last) :
      Executes tree
        (⟨request, (request.run env w).1, (request.run env w).2.tree.store⟩ :: log) last

/-- The same request had the same result, up to amounts and jobs, and left the same rows. -/
structure Served.Agrees (x y : Served) : Prop where
  result : x.request.isAboutJobs = false → Answer.bare <$> x.result = Answer.bare <$> y.result
  hierarchies : x.store.hierarchies = y.store.hierarchies
  nodes : x.store.nodes.map NodeRow.bare = y.store.nodes.map NodeRow.bare
  assets : x.store.assets = y.store.assets
  attachments : x.store.attachments = y.store.attachments

/-- Flushing the tree succeeds and leaves the store, whoever looks on. -/
def Tree.FlushesTo (tree : Tree) (s : Store) : Prop :=
  ∀ {σ : Type} {env : Surroundings σ}, env.Passive → ∀ w : World σ, w.tree = tree →
    (Request.flush.run env w).1 = .ok .done ∧ (Request.flush.run env w).2.tree.store = s

/-! ## Exact amounts -/

namespace Store
variable {s t : Store}

/-- The store with the amounts that its attachments call for, and without marks. -/
def refreshed (s : Store) : Store where
  hierarchies := s.hierarchies
  nodes := s.nodes.map fun row => { row with amount := (s.holdings row.hierarchy row.key).card }
  assets := s.assets
  attachments := s.attachments

theorem holdings_bare (s : Store) (hierarchy : HierarchyId) (top : String) :
    s.bare.holdings hierarchy top = s.holdings hierarchy top := by
  have halike : Alike s s.bare := ⟨rfl, rfl, by rw [bare, List.map_map]; rfl⟩
  exact halike.reach_eq s.attachments hierarchy top

theorem refreshed_bare (s : Store) : s.bare.refreshed = s.refreshed := by
  rw [refreshed, refreshed, mk.injEq]
  refine ⟨rfl, ?_, rfl, rfl, rfl⟩
  simp only [holdings_bare]
  rw [bare, List.map_map]
  rfl

theorem refreshed_congr (h : s.bare = t.bare) : s.refreshed = t.refreshed :=
  bare_congr refreshed refreshed_bare h

theorem Settled.refreshed (h : s.Settled) (hmarked : s.marked = []) : s.refreshed = s := by
  have hnodes : s.refreshed.nodes = s.nodes := by
    refine (List.map_congr_left fun row hrow => ?_).trans (List.map_id s.nodes)
    rw [← h row hrow (hmarked ▸ List.not_mem_nil)]
    rfl
  cases s
  cases hmarked
  rw [Store.refreshed, mk.injEq]
  exact ⟨rfl, hnodes, rfl, rfl, rfl⟩

end Store

/-! ## Trees at rest -/

/-- A tree between two requests: no lease is held, and every marked hierarchy waits for its job. -/
structure Tree.Calm (tree : Tree) : Prop where
  tidy : tree.store.Tidy
  free : tree.leases = {}
  covered : tree.Covered []

namespace Tree
variable {tree tree' : Tree}

theorem Calm.job (h : tree.Calm) {host : HierarchyId} (hmarked : host ∈ tree.store.marked) :
    host ∈ tree.queue.jobs := (h.covered host hmarked).resolve_left List.not_mem_nil

/-- A tree whose hierarchies have been repaired stays calm, if the jobs of the others remain. -/
theorem Calm.repaired (h : tree.Calm) {repairs : List HierarchyId} {s : Store} {queue : Queue}
    (hrepaired : Repaired repairs tree.store s)
    (hjobs : ∀ host ∈ tree.queue.jobs, host ∉ repairs → host ∈ queue.jobs) :
    ({ tree with store := s, queue } : Tree).Calm where
  tidy := hrepaired.tidy
  free := h.free
  covered host hhost := by
    obtain ⟨hmarked, hleft⟩ := (hrepaired.marked host).1 hhost
    exact Or.inr (hjobs host (h.job hmarked) hleft)

theorem calm_of_openStore {s : Store} (hs : s.Tidy) {options : Options}
    (h : (openStore s options).1 = .ok tree) :
    tree.Calm ∧ tree.store.bare = s.bare ∧ tree.options = options := by
  obtain ⟨t, hrepaired, hmarked, hopen⟩ := hs.openStore_eq options
  rw [hopen] at h
  cases h
  refine ⟨⟨hrepaired.tidy, rfl, fun host hhost => ?_⟩, hrepaired.bare, rfl⟩
  rw [hmarked] at hhost
  exact absurd hhost List.not_mem_nil

/-- Nothing shows of what happens between requests. -/
theorem Idles.calm (hidle : Idles tree tree') (h : tree.Calm) :
    tree'.Calm ∧ tree'.store.bare = tree.store.bare ∧
      tree'.options.unlimited = tree.options.unlimited := by
  cases hidle with
  | take tree now =>
    refine ⟨⟨h.tidy, h.free, fun host hhost => Or.inr ?_⟩, rfl, rfl⟩
    exact (Queue.mem_jobs_takeDue _ _).2 (h.job hhost)
  | @job σ env w henv =>
    obtain ⟨s, stats, hrepairs, -, htree⟩ :=
      runJobs_free henv h.tidy.sturdy h.free (w.tree.queue.running.take 1)
    have hrepaired := hrepairs.repaired h.tidy
    rw [htree]
    refine ⟨h.repaired hrepaired fun host hhost hleft => ?_, hrepaired.bare, rfl⟩
    rw [Queue.jobs] at hhost ⊢
    dsimp only at hhost ⊢
    cases hrunning : w.tree.queue.running with
    | nil =>
      rw [hrunning] at hhost
      exact hhost
    | cons first rest =>
      -- what waited waits, and of the jobs that were taken only the first is gone
      rw [hrunning] at hhost hleft
      rcases List.mem_append.1 hhost with hwaiting | htaken
      · exact List.mem_append_left _ hwaiting
      · refine List.mem_append_right _ ((List.mem_cons.1 htaken).resolve_left fun heq => ?_)
        exact hleft (List.mem_singleton.2 heq)
  | retire tree =>
    refine ⟨⟨h.tidy, h.free, fun host hhost => Or.inr ?_⟩, rfl, rfl⟩
    rw [Queue.jobs_retire]
    exact h.job hhost
  | @flush σ env w henv =>
    obtain ⟨jobs, s, queue, hjobs, hrepairs, -, htree⟩ := flush_free henv h.tidy.sturdy h.free
    have hrepaired := hrepairs.repaired h.tidy
    rw [htree]
    refine ⟨h.repaired hrepaired fun host hhost hleft => ?_, hrepaired.bare, rfl⟩
    exact absurd ((hjobs host).2 hhost) hleft
  | @repair σ env w henv hierarchy =>
    have hfree : w.tree.leases.isHeld hierarchy = false := by
      rw [h.free]
      rfl
    obtain ⟨s, hrepairs, htree⟩ := tryRepair_free henv h.tidy.sturdy hfree
    have hrepaired := hrepairs.repaired h.tidy
    rw [htree]
    exact ⟨h.repaired hrepaired fun host hhost _ => hhost, hrepaired.bare, rfl⟩
  | @reopen _ _ options hoptions hopen =>
    obtain ⟨s, hrepairs, hclosed⟩ := tryRepairAll_free
      (w := World.mk { tree with queue := tree.queue.takePending.2 } ()) Surroundings.passive_quiet
      h.tidy.sturdy h.free tree.queue.takePending.1
    have hrepaired := hrepairs.repaired h.tidy
    have hstore : tree.close = s := congrArg Tree.store hclosed
    rw [hstore] at hopen
    obtain ⟨hcalm, hbare, hset⟩ := calm_of_openStore hrepaired.tidy hopen
    exact ⟨hcalm, hbare.trans hrepaired.bare, (congrArg Options.unlimited hset).trans hoptions⟩

theorem calm_of_idles (hidle : ReflTransGen Idles tree tree') (h : tree.Calm) :
    tree'.Calm ∧ tree'.store.bare = tree.store.bare ∧
      tree'.options.unlimited = tree.options.unlimited := by
  induction hidle with
  | refl => exact ⟨h, rfl, rfl⟩
  | tail _ hstep ih =>
    obtain ⟨hcalm, hbare, hoptions⟩ := ih
    obtain ⟨hcalm', hbare', hoptions'⟩ := hstep.calm hcalm
    exact ⟨hcalm', hbare'.trans hbare, hoptions'.trans hoptions⟩

/-- A flush repairs all that is marked. -/
theorem Calm.exists_flush {σ : Type} {env : Surroundings σ} {w : World σ} (h : w.tree.Calm)
    (henv : env.Passive) : ∃ s queue, s.Tidy ∧ s.marked = [] ∧ s.bare = w.tree.store.bare ∧
      (flush env w).1 = .ok () ∧ (flush env w).2.tree = { w.tree with store := s, queue } := by
  obtain ⟨jobs, s, queue, hjobs, hrepairs, hok, htree⟩ := flush_free henv h.tidy.sturdy h.free
  have hrepaired := hrepairs.repaired h.tidy
  have hmarked : s.marked = [] :=
    hrepaired.marked_eq_nil fun host hhost => (hjobs host).2 (h.job hhost)
  exact ⟨s, queue, hrepaired.tidy, hmarked, hrepaired.bare, hok, htree⟩

/-- A flush makes all amounts exact. -/
theorem Calm.flushesTo (h : tree.Calm) : tree.FlushesTo tree.store.refreshed := by
  intro σ env henv w hw
  subst hw
  obtain ⟨s, queue, htidy, hmarked, hbare, hok, htree⟩ := h.exists_flush henv
  rw [Request.run, Action.map_run, htree, hok]
  refine ⟨rfl, ?_⟩
  rw [← refreshed_congr hbare, htidy.settled.refreshed hmarked]

/-! ## Two executions -/

/-- Two trees between requests that differ in amounts, marks, queues and the limit of batches. -/
structure Level (tree tree' : Tree) : Prop where
  first : tree.Calm
  second : tree'.Calm
  bare : tree.store.bare = tree'.store.bare
  options : tree.options.unlimited = tree'.options.unlimited

theorem Level.symm (h : Level tree tree') : Level tree' tree :=
  ⟨h.second, h.first, h.bare.symm, h.options.symm⟩

theorem Level.twins (h : Level tree tree') : Twins {} [] tree tree' :=
  ⟨h.options, h.bare, h.first.free, h.second.free, h.first.covered⟩

theorem Level.idles (h : Level tree tree') {u u' : Tree} (hidle : ReflTransGen Idles tree u)
    (hidle' : ReflTransGen Idles tree' u') : Level u u' := by
  obtain ⟨hcalm, hbare, hoptions⟩ := calm_of_idles hidle h.first
  obtain ⟨hcalm', hbare', hoptions'⟩ := calm_of_idles hidle' h.second
  exact ⟨hcalm, hcalm', hbare.trans (h.bare.trans hbare'.symm),
    hoptions.trans (h.options.trans hoptions'.symm)⟩

section Serve
variable {σ τ : Type} {env : Surroundings σ} {env' : Surroundings τ} {w : World σ} {v : World τ}

/-- A request leaves twins and has the same result on both. -/
theorem Level.agrees (h : Level w.tree v.tree) (henv : env.Passive) (henv' : env'.Passive)
    (request : Request) :
    (request.isAboutJobs = false →
      Answer.bare <$> (request.run env w).1 = Answer.bare <$> (request.run env' v).1) ∧
    Twins {} [] (request.run env w).2.tree (request.run env' v).2.tree := by
  rcases request.agrees henv henv' h.twins h.first.tidy h.second.tidy w v ⟨rfl, rfl⟩ with
    ⟨e, hr, hr', htree, htree'⟩ | ⟨a, b, hr, hr', hsame, htwins⟩
  · rw [hr, hr', htree, htree']
    exact ⟨fun _ => rfl, h.twins⟩
  · rw [hr, hr']
    exact ⟨fun hjobs => congrArg Except.ok (hsame hjobs), htwins⟩

theorem Level.serve (h : Level w.tree v.tree) (henv : env.Passive) (henv' : env'.Passive)
    (request : Request) : Level (request.run env w).2.tree (request.run env' v).2.tree := by
  -- twins watch the marks of the first tree, so the trees change places for those of the second
  have htwins := (h.agrees henv henv' request).2
  have htwins' := (h.symm.agrees henv' henv request).2
  have htidy := (request.ensures_tidy henv w rfl).2 h.first.tidy
  have htidy' := (request.ensures_tidy henv' v rfl).2 h.second.tidy
  exact ⟨⟨htidy, htwins.first, htwins.covered⟩, ⟨htidy', htwins.second, htwins'.covered⟩,
    htwins.bare, htwins.options⟩

end Serve

theorem Executes.level {last last' : Tree} {log log' : List Served} (h : tree.Executes log last)
    (h' : tree'.Executes log' last') (hsame : log.map (·.request) = log'.map (·.request))
    (hlevel : Level tree tree') : List.Forall₂ Served.Agrees log log' ∧ Level last last' := by
  induction h generalizing tree' log' with
  | done hidle =>
    cases h' with
    | done hidle' => exact ⟨.nil, hlevel.idles hidle hidle'⟩
    | serve => cases hsame
  | @serve σ env w tree last log hidle henv request hrest ih =>
    cases h' with
    | done => cases hsame
    | @serve τ env' v _ _ log' hidle' henv' request' hrest' =>
      obtain ⟨hrequest, hrequests⟩ := List.cons.inj hsame
      dsimp only at hrequest
      subst hrequest
      -- the trees are level when the request comes, whatever has happened to each before it
      have hready := hlevel.idles hidle hidle'
      have hserved := hready.serve henv henv' request
      obtain ⟨hlogs, hlast⟩ := ih hrest' hrequests hserved
      obtain ⟨hhosts, hnodes, hassets, hattached⟩ := bare_eq_iff.1 hserved.bare
      refine ⟨.cons ?_ hlogs, hlast⟩
      exact ⟨(hready.agrees henv henv' request).1, hhosts, hnodes, hassets, hattached⟩

end Tree

/-! ## Transparency -/

/-- What comes of requests that nobody watches. -/
def Tree.served (tree : Tree) : List Request → List Served
  | [] => []
  | request :: rest =>
    let (result, w) := request.run Surroundings.quiet (World.mk tree ())
    ⟨request, result, w.tree.store⟩ :: w.tree.served rest

theorem Tree.executes_after (tree : Tree) (requests : List Request) :
    tree.Executes (tree.served requests) (tree.after requests) := by
  induction requests generalizing tree with
  | nil => exact .done .refl
  | cons request rest ih =>
    exact .serve (w := World.mk tree ()) .refl Surroundings.passive_quiet request (ih _)

theorem Tree.map_request_served (tree : Tree) (requests : List Request) :
    (tree.served requests).map (·.request) = requests := by
  induction requests generalizing tree with
  | nil => rfl
  | cons request rest ih => exact congrArg (request :: ·) (ih _)

theorem Tree.Executes.append {tree middle last : Tree} {log log' : List Served}
    (h : tree.Executes log middle) (h' : middle.Executes log' last) :
    tree.Executes (log ++ log') last := by
  induction h with
  | done hidle =>
    cases h' with
    | done hidle' => exact .done (hidle.trans hidle')
    | serve hidle' henv request hrest => exact .serve (hidle.trans hidle') henv request hrest
  | serve hidle henv request _ ih => exact .serve hidle henv request (ih h')

/-- Two executions of the same requests on one database, whatever their limits for batches and
whatever jobs are done and openings are made in between, answer alike and keep the same rows; when
both have been flushed, their stores are the same. -/
theorem Store.Reachable.transparent {s : Store} (hs : s.Reachable) {options options' : Options}
    (hoptions : options.unlimited = options'.unlimited) {tree tree' last last' : Tree}
    (hopen : (Tree.openStore s options).1 = .ok tree)
    (hopen' : (Tree.openStore s options').1 = .ok tree') {log log' : List Served}
    (h : tree.Executes log last) (h' : tree'.Executes log' last')
    (hsame : log.map (·.request) = log'.map (·.request)) :
    List.Forall₂ Served.Agrees log log' ∧
      ∃ t : Store, t.marked = [] ∧ last.FlushesTo t ∧ last'.FlushesTo t := by
  obtain ⟨hcalm, hbare, hset⟩ := Tree.calm_of_openStore hs.tidy hopen
  obtain ⟨hcalm', hbare', hset'⟩ := Tree.calm_of_openStore hs.tidy hopen'
  have hlevel : Tree.Level tree tree' :=
    ⟨hcalm, hcalm', hbare.trans hbare'.symm, by rw [hset, hset', hoptions]⟩
  obtain ⟨hlogs, hlast⟩ := h.level h' hsame hlevel
  refine ⟨hlogs, last.store.refreshed, rfl, hlast.first.flushesTo, ?_⟩
  rw [refreshed_congr hlast.bare]
  exact hlast.second.flushesTo

/-- A hierarchy with an asset on its root. -/
def shelf : List Request := [.createHierarchy "Library", .createAsset 1 "Atlas" [1]]

/-- Another asset on the root. -/
def globe : List Request := [.createAsset 1 "Globe" [1]]

/-- A tree that leaves all amounts for later. -/
def Tree.deferring : Tree := { options := { batchLimit := 0 } }

/-- The shelf with all amounts left for later, and then flushed. -/
def Tree.flushed : Tree := (flush Surroundings.quiet (World.mk (deferring.after shelf) ())).2.tree

/-- A globe is added to the shelf as usual, or to the shelf that has just been flushed, with its own
amounts left for later again. The stores differ until they are flushed. -/
theorem Store.transparent_shelf :
    (({} : Tree).after (shelf ++ globe)).store ≠ (Tree.flushed.after globe).store ∧
      List.Forall₂ Served.Agrees (({} : Tree).served (shelf ++ globe))
        (Tree.deferring.served shelf ++ Tree.flushed.served globe) ∧
      ∃ t : Store, t.marked = [] ∧ (({} : Tree).after (shelf ++ globe)).FlushesTo t ∧
        (Tree.flushed.after globe).FlushesTo t := by
  have hoptions : Options.unlimited {} = Options.unlimited { batchLimit := 0 } := rfl
  have hopen : (Tree.openStore {} {}).1 = .ok {} := by decide +kernel
  have hopen' : (Tree.openStore {} { batchLimit := 0 }).1 = .ok Tree.deferring := by decide +kernel
  have hflush : Tree.Idles (Tree.deferring.after shelf) Tree.flushed :=
    .flush (w := World.mk _ ()) Surroundings.passive_quiet
  have hfirst := (Tree.deferring.executes_after shelf).append (.done (.single hflush))
  rw [List.append_nil] at hfirst
  have hsame : (({} : Tree).served (shelf ++ globe)).map (·.request) =
      (Tree.deferring.served shelf ++ Tree.flushed.served globe).map (·.request) := by
    rw [List.map_append, Tree.map_request_served, Tree.map_request_served, Tree.map_request_served]
  refine ⟨by decide +kernel, ?_⟩
  exact Reachable.empty.transparent hoptions hopen hopen' (Tree.executes_after {} (shelf ++ globe))
    (hfirst.append (Tree.flushed.executes_after globe)) hsame

end Inventory
