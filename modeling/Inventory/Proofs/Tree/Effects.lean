import Inventory.Proofs.Reconcile
import Inventory.Proofs.Store.Growth
import Inventory.Proofs.Store.Relation
import Inventory.Proofs.Tree.Operations
import Inventory.Request

/-! # The effect of a request

In passive surroundings a request that is refused leaves the store as it is. One that is answered
takes the pairs that it names out of the relation of attachments and puts others in, and the store
stays sound either way. -/
namespace Inventory
set_option autoImplicit false

namespace Request

/-- The pairs that a request takes out of the relation. -/
def gone : Request → Set Attachment
  | detach place batch => pairs batch [place]
  | detachFromNodes id places => pairs [id] places
  | reassign batch _ => {link | link.1 ∈ batch}
  | deleteAsset id => {link | link.1 = id}
  | _ => ∅

/-- The pairs that a request puts into the relation after that. -/
def come (s : Store) : Request → Answer → Set Attachment
  | attach place batch, _ => pairs batch [place]
  | attachToNodes id places, _ => pairs [id] places
  | detach place batch, _ => s.homecoming (pairs batch [place])
  | detachFromNodes id places, _ => s.homecoming (pairs [id] places)
  | reassign batch target, _ => pairs batch [target]
  | createAsset host _ places, .asset made =>
    if places = [] then {link | link.1 = made.id ∧
      ∃ root ∈ s.nodes, root.id = link.2 ∧ root.hierarchy = host ∧ root.parentKey = ""}
    else pairs [made.id] places
  | _, _ => ∅

/-- The assets after a request. -/
def assetsAfter (assets : List Asset) : Request → Answer → List Asset
  | createAsset _ _ _, .asset made => assets ++ [made]
  | deleteAsset id, _ => assets.filter (·.id != id)
  | _, _ => assets

/-- The answer tells which rows went and came. -/
def Reports (s : Store) : Request → Answer → Prop
  | attach place batch, .outcome outcome =>
    Change.Lists outcome.changes (pairs batch [place] \ s.relation) ∧ outcome.rehomed = []
  | attachToNodes id places, .outcome outcome =>
    Change.Lists outcome.changes (pairs [id] places \ s.relation) ∧ outcome.rehomed = []
  | detach place batch, .outcome outcome =>
    Change.Lists outcome.changes (s.relation ∩ pairs batch [place]) ∧
      Change.Lists outcome.rehomed (s.homecoming (pairs batch [place]))
  | detachFromNodes id places, .outcome outcome =>
    Change.Lists outcome.changes (s.relation ∩ pairs [id] places) ∧
      Change.Lists outcome.rehomed (s.homecoming (pairs [id] places))
  | reassign batch target, .reassignment moved =>
    moved.target = target ∧ moved.moved = batch.eraseDups ∧
      moved.rowsRemoved = s.attachments.countP (batch.contains ·.1) ∧
      moved.rowsAdded = batch.eraseDups.length
  | createAsset host _ _, .asset made =>
    made.hierarchy = host ∧ ∀ old ∈ s.assets, old.id ≠ made.id
  | attach .., _ | attachToNodes .., _ | detach .., _ | detachFromNodes .., _ | reassign .., _
  | createAsset .., _ => False
  | _, _ => True

/-- A request that is answered changes the relation as it should and says so. -/
structure Refines (request : Request) (answer : Answer) (s s' : Store) : Prop where
  relation : s'.relation = s.relation \ request.gone ∪ request.come s answer
  assets : s'.assets = request.assetsAfter s.assets answer
  reports : request.Reports s answer

/-- What becomes of a sound store. -/
structure Effect (request : Request) (s : Store) (r : Except Error Answer) (s' : Store) : Prop where
  sound : s'.Sound
  refused : ∀ e, r = .error e → s' = s
  refines : ∀ answer, r = .ok answer → request.Refines answer s s'

/-- The request is none that concerns attachments. -/
structure Neutral (request : Request) : Prop where
  gone : request.gone = ∅
  come : ∀ s answer, request.come s answer = ∅
  assets : ∀ assets answer, request.assetsAfter assets answer = assets
  reports : ∀ s answer, request.Reports s answer

variable {σ : Type} {env : Surroundings σ} {options : Options} {request : Request} {s s' : Store}

theorem Neutral.refines (h : request.Neutral) (hattached : s'.attachments = s.attachments)
    (hassets : s'.assets = s.assets) (answer : Answer) : request.Refines answer s s' where
  relation := by
    rw [h.gone, h.come, Set.sdiff_empty, Set.union_empty]
    exact Store.relation_congr hattached
  assets := by rw [h.assets, hassets]
  reports := h.reports s answer

/-- A neutral request after which the attachments and assets are as before. -/
theorem Neutral.effect (h : request.Neutral) {r : Except Error Answer} (hs : s'.Sound)
    (hattached : s'.attachments = s.attachments) (hassets : s'.assets = s.assets)
    (hrefused : ∀ e, r = .error e → s' = s) : request.Effect s r s' :=
  ⟨hs, hrefused, fun answer _ => h.refines hattached hassets answer⟩

end Request

namespace Action
variable {σ α β γ : Type} {env : Surroundings σ} {options : Options} {request : Request}

theorem Ensures.effect_of_question {act : Action σ Answer} (hneutral : request.Neutral)
    (h : Ensures env options act fun s _ s' => s' = s) :
    Ensures env options act fun s r s' => s.Sound → request.Effect s r s' := by
  refine h.weaken fun s r s' heq hs => ?_
  subst heq
  exact hneutral.effect hs rfl rfl fun _ _ => rfl

/-- The effect of an operation is that of its transaction on the store that it has read. -/
theorem Ensures.effect {act : Action σ β} {question : Store → Except Error γ}
    {change : γ → Transaction α} {result : γ → α → β} (wrap : β → Answer)
    (h : Ensures env options act (Phased Eq question change result))
    (heffect : ∀ s c a s', s.Sound → question s = .ok c → change c s = .ok (a, s') →
      s'.Sound ∧ request.Refines (wrap (result c a)) s s') :
    Ensures env options (wrap <$> act) fun s r s' => s.Sound → request.Effect s r s' := by
  refine (h.reworded wrap).weaken fun s r s' hpost hs => ?_
  have hfailed : ∀ e, r = .error e → s' = s → request.Effect s r s' := by
    rintro e rfl rfl
    exact ⟨hs, fun _ _ => rfl, fun _ hanswer => nomatch hanswer⟩
  rcases hpost with ⟨e, -, hr, heq⟩ | ⟨c, hc, t, rfl, ⟨e, hr, heq, -⟩ | ⟨a, hchange, hr⟩⟩
  · exact hfailed e hr heq
  · exact hfailed e hr heq
  · obtain ⟨hsound, hrefines⟩ := heffect s c a s' hs hc hchange
    subst hr
    refine ⟨hsound, fun _ he => (nomatch he), fun answer hanswer => ?_⟩
    cases hanswer
    exact hrefines

/-- In passive surroundings stores are related if the transaction of the operation relates them. -/
theorem Ensures.relates {relates : Store → Store → Prop} (hrefl : ∀ s, relates s s)
    (wrap : β → Answer) {act : Action σ β} {question : Store → Except Error γ}
    {change : γ → Transaction α} {result : γ → α → β}
    (h : Ensures env options act (Phased Eq question change result))
    (hchange : ∀ s c a s', s.Sound → question s = .ok c → change c s = .ok (a, s') →
      relates s s') :
    Ensures env options (wrap <$> act) fun s _ s' => s.Sound → relates s s' := by
  refine (h.reworded wrap).weaken fun s r s' hpost hs => ?_
  rcases hpost with ⟨_, -, -, rfl⟩ | ⟨c, hc, t, rfl, ⟨_, -, rfl, -⟩ | ⟨a, ha, -⟩⟩
  · exact hrefl s'
  · exact hrefl s'
  · exact hchange s c a s' hs hc ha

/-- An operation without a question before its transaction. -/
theorem Ensures.unasked {act : Action σ β} {change : Transaction α} {result : α → β}
    {moves : Store → Store → Prop} (h : Ensures env options act (Finishes moves change result)) :
    Ensures env options act
      (Phased moves (fun _ => .ok ()) (fun _ => change) fun _ => result) :=
  h.weaken fun _ _ _ hpost => Or.inr ⟨(), rfl, hpost⟩

end Action

/-! ## The requests that concern attachments -/

namespace Request
open Store
variable {s s' : Store}

theorem refines_attach (hs : s.Sound) {id : NodeId} {assets : List AssetId} {propagate : Bool}
    {made : HierarchyId × Outcome}
    (h : attachAll id assets.eraseDups propagate s = .ok (made, s')) :
    s'.Sound ∧ (Request.attach id assets).Refines (.outcome made.2) s s' := by
  obtain ⟨hadded, hchanges, hrehomed, -⟩ := attachAll_eq_ok hs.formed h
  rw [eraseDups_of_nodup (nodup_eraseDups assets)] at hadded hchanges
  have hcome : ∀ link : Attachment,
      link ∈ (assets.eraseDups.filter (!s.isAttached · id)).map (·, id) ↔
        link ∈ pairs assets [id] ∧ link ∉ s.attachments := by
    intro link
    simp only [List.mem_map, List.mem_filter, List.mem_eraseDups, Bool.not_eq_true',
      ← Bool.not_eq_true, isAttached_iff, mem_pairs, List.mem_singleton]
    constructor
    · rintro ⟨asset, ⟨hin, hnew⟩, rfl⟩
      exact ⟨⟨hin, rfl⟩, hnew⟩
    · obtain ⟨asset, node⟩ := link
      rintro ⟨⟨hin, rfl⟩, hnew⟩
      exact ⟨asset, ⟨hin, hnew⟩, rfl⟩
  refine ⟨hadded.sound hs, ?_, ?_, ?_, hrehomed⟩
  · show s'.relation = s.relation \ ∅ ∪ pairs assets [id]
    rw [Set.sdiff_empty]
    exact hadded.relation hcome
  · rw [hadded.result]
    rfl
  · exact hadded.lists hcome (by rw [hchanges, Change.rows_perAsset])

theorem refines_attachToNodes (hs : s.Sound) {id : AssetId} {nodes : List NodeId} {propagate : Bool}
    {made : HierarchyId × Outcome}
    (h : attachToAll id nodes.eraseDups propagate s = .ok (made, s')) :
    s'.Sound ∧ (Request.attachToNodes id nodes).Refines (.outcome made.2) s s' := by
  obtain ⟨fresh, hfresh, hadded, hchanges, hrehomed⟩ := attachToAll_eq_ok hs.formed h
  have hcome : ∀ link : Attachment,
      link ∈ fresh.map (id, ·) ↔ link ∈ pairs [id] nodes ∧ link ∉ s.attachments := by
    rintro ⟨asset, node⟩
    simp only [List.mem_map, hfresh, List.mem_eraseDups, mem_pairs, List.mem_singleton,
      Prod.mk.injEq]
    constructor
    · rintro ⟨node, ⟨hin, hnew⟩, rfl, rfl⟩
      exact ⟨⟨rfl, hin⟩, hnew⟩
    · rintro ⟨⟨rfl, hin⟩, hnew⟩
      exact ⟨node, ⟨hin, hnew⟩, rfl, rfl⟩
  refine ⟨hadded.sound hs, ?_, ?_, ?_, hrehomed⟩
  · show s'.relation = s.relation \ ∅ ∪ pairs [id] nodes
    rw [Set.sdiff_empty]
    exact hadded.relation hcome
  · rw [hadded.result]
    rfl
  · exact hadded.lists hcome (by rw [hchanges, Change.rows_perNode])

theorem refines_detach (hs : s.Sound) {id : NodeId} {assets : List AssetId} {propagate : Bool}
    {node : Node} (hnode : s.requireNode id = .ok node) {outcome : Outcome}
    (h : detachAll node.hierarchy id assets.eraseDups propagate s = .ok (outcome, s')) :
    s'.Sound ∧ (Request.detach id assets).Refines (.outcome outcome) s s' := by
  obtain ⟨hgone, hchanges, -⟩ := detachAll_eq_ok hs.formed h
  rw [eraseDups_of_nodup (nodup_eraseDups assets)] at hgone hchanges
  have hw := hs.formed.within_found hnode (assets.eraseDups.filter (s.isAttached · id))
  have hasked : ∀ link : Attachment,
      link ∈ (assets.eraseDups.filter (s.isAttached · id)).map (·, id) ↔
        link ∈ s.attachments ∧ link ∈ pairs assets [id] := by
    intro link
    simp only [List.mem_map, List.mem_filter, List.mem_eraseDups, isAttached_iff, mem_pairs,
      List.mem_singleton]
    constructor
    · rintro ⟨asset, ⟨hin, hold⟩, rfl⟩
      exact ⟨hold, hin, rfl⟩
    · obtain ⟨asset, node⟩ := link
      rintro ⟨hold, hin, rfl⟩
      exact ⟨asset, ⟨hin, hold⟩, rfl⟩
  refine ⟨hgone.sound hs hw, hgone.relation hs hw hasked, ?_, ⟨?_, ?_⟩,
    hgone.lists hs hw hasked rfl⟩
  · rw [hgone.result]
    rfl
  · rw [hchanges, Change.rows_perAsset]
    exact nodup_links (nodup_fresh ..) id
  · intro link
    rw [hchanges, Change.rows_perAsset, hasked, Set.mem_inter_iff, mem_relation]

theorem refines_detachFromNodes (hs : s.Sound) {id : AssetId} {nodes : List NodeId}
    {propagate : Bool} {hierarchy : HierarchyId} {outcome : Outcome}
    (h : detachFromAll hierarchy id nodes.eraseDups propagate s = .ok (outcome, s')) :
    s'.Sound ∧ (Request.detachFromNodes id nodes).Refines (.outcome outcome) s s' := by
  obtain ⟨lost, hlost, hn, hw, hgone, hchanges⟩ := detachFromAll_eq_ok hs.formed h
  have hasked : ∀ link : Attachment,
      link ∈ lost.map (id, ·) ↔ link ∈ s.attachments ∧ link ∈ pairs [id] nodes := by
    rintro ⟨asset, node⟩
    simp only [List.mem_map, hlost, List.mem_eraseDups, mem_pairs, List.mem_singleton,
      Prod.mk.injEq]
    constructor
    · rintro ⟨node, ⟨hin, hold⟩, rfl, rfl⟩
      exact ⟨hold, rfl, hin⟩
    · rintro ⟨hold, rfl, hin⟩
      exact ⟨node, ⟨hin, hold⟩, rfl, rfl⟩
  refine ⟨hgone.sound hs hw, hgone.relation hs hw hasked, ?_, ⟨?_, ?_⟩,
    hgone.lists hs hw hasked rfl⟩
  · rw [hgone.result]
    rfl
  · rw [hchanges, Change.rows_perNode]
    exact hn.map fun _ _ heq => (Prod.mk.inj heq).2
  · intro link
    rw [hchanges, Change.rows_perNode, hasked, Set.mem_inter_iff, mem_relation]

theorem refines_reassign (hs : s.Sound) (options : Options) {assets : List AssetId} {id : NodeId}
    {propagate : Bool} {found : HierarchyId × List Attachment}
    (hfound : Tree.observe assets.eraseDups id s = .ok found) {added : Edited AssetId}
    (h : move found.1 id assets.eraseDups found.2 propagate s = .ok (added, s')) :
    s'.Sound ∧ (Request.reassign assets id).Refines
      (.reassignment (Tree.reassignment options assets.eraseDups id found.2 added)) s s' := by
  obtain ⟨⟨place, hplace, hpid, hph⟩, hassets, hobserved⟩ := Tree.observe_eq_ok hs.formed hfound
  obtain ⟨target, rfl, hmoved⟩ := move_eq_ok hs.toSteady h
  have hrows : ∀ link : Attachment,
      link ∈ found.2 ↔ link ∈ s.attachments ∧ link.1 ∈ assets := by
    intro link
    rw [hobserved, mem_attachmentsOf, List.mem_eraseDups]
  have hsame := hs.formed.eq_of_id hplace hmoved.known hpid
  have hsound : s'.Sound := by
    refine hmoved.sound hs (hs.within fun link hlink => ?_) (hsame ▸ hph) ?_ hassets
    · obtain ⟨hold, hin⟩ := (hrows link).1 hlink
      exact ⟨hold, hassets _ (List.mem_eraseDups.2 hin)⟩
    · exact fun link hlink => List.mem_eraseDups.2 ((hrows link).1 hlink).2
  refine ⟨hsound, ?_, hmoved.alike.assets, rfl, rfl, ?_, ?_⟩
  · have hrelation := hmoved.relation fun link => by rw [hrows, List.mem_eraseDups]
    simp only [pairs, List.mem_eraseDups] at hrelation
    exact hrelation
  · show found.2.length = _
    rw [hobserved, hs.toSteady.length_attachmentsOf]
    simp only [List.contains_eq_mem, List.mem_eraseDups]
  · show added.changed.length = _
    rw [hmoved.new, eraseDups_of_nodup (nodup_eraseDups assets), List.filter_eq_self.2]
    intro asset hasset
    rw [Bool.not_eq_true', ← Bool.not_eq_true, isAttached_iff, mem_minus, hrows]
    rintro ⟨hold, hnone⟩
    exact hnone ⟨hold, List.mem_eraseDups.1 hasset⟩

theorem refines_createAsset (hs : s.Sound) {hierarchy : HierarchyId} {name valid : String}
    {ids : List NodeId} {propagate : Bool} {made : Asset × List NodeId}
    (h : Store.createAsset hierarchy valid ids.eraseDups propagate s = .ok (made, s')) :
    s'.Sound ∧ (Request.createAsset hierarchy name ids).Refines (.asset made.1) s s' := by
  obtain ⟨asset, nodes⟩ := made
  obtain ⟨hhost, -, hnew, -, hnodes, hadded⟩ := createAsset_eq_ok hs.toSteady h
  have hfresh : ∀ node, (asset.id, node) ∉ s.attachments := by
    intro node hlink
    obtain ⟨old, hold, -, -, hid, -⟩ := hs.joined _ hlink
    exact hnew old hold hid
  refine ⟨createAsset_sound hs h, ?_, ?_, hhost, hnew⟩
  · show s'.relation = s.relation \ ∅ ∪ _
    rw [Set.sdiff_empty]
    refine hadded.relation (s := s.withAsset asset) fun link => ?_
    obtain ⟨id, node⟩ := link
    have hempty : ids.eraseDups = [] ↔ ids = [] :=
      ⟨eq_nil_of_eraseDups, fun h => by rw [h]; rfl⟩
    simp only [hempty] at hnodes
    simp only [List.mem_map, Prod.mk.injEq, come]
    by_cases hnone : ids = []
    · -- the asset goes to the root, which is the only one of its hierarchy
      rw [if_pos hnone] at hnodes ⊢
      obtain ⟨root, hroot, hrh, hparent, rfl⟩ := hnodes
      simp only [List.mem_singleton, exists_eq_left, Set.mem_ofPred_eq]
      constructor
      · rintro ⟨rfl, rfl⟩
        exact ⟨⟨rfl, root, hroot, rfl, hrh, hparent⟩, hfresh _⟩
      · rintro ⟨⟨rfl, other, hother, rfl, hoh, hoparent⟩, -⟩
        refine ⟨rfl, ?_⟩
        rw [hs.formed.root_unique hroot hother (hrh.trans hoh.symm) hparent hoparent]
    · rw [if_neg hnone] at hnodes ⊢
      simp only [hnodes.mem_iff, List.mem_eraseDups, mem_pairs, List.mem_singleton]
      constructor
      · rintro ⟨node, hin, rfl, rfl⟩
        exact ⟨⟨rfl, hin⟩, hfresh _⟩
      · rintro ⟨⟨rfl, hin⟩, -⟩
        exact ⟨node, hin, rfl, rfl⟩
  · rw [hadded.result]
    rfl

theorem refines_deleteAsset (hs : s.Sound) {id : AssetId} {asset : Asset}
    (hasset : s.requireAsset id = .ok asset) {propagates : Nat → Bool} {removed : List NodeId × Bool}
    (h : removeAsset asset.hierarchy id propagates s = .ok (removed, s')) :
    s'.Sound ∧ (Request.deleteAsset id).Refines .done s s' := by
  obtain ⟨hn, hnodes, hresult, -⟩ := removeAsset_eq_ok hs.toSteady h
  obtain ⟨hknown, rfl⟩ := requireAsset_eq_ok hasset
  have hw := hs.within_asset hknown fun node => (hnodes node).1
  have hattached : s'.attachments =
      (s.removing (removed.1.map (asset.id, ·)) removed.2).attachments := by
    rw [hresult hw]
    rfl
  refine ⟨removeAsset_sound hs h hw, ?_, ?_, trivial⟩
  · show s'.relation = s.relation \ {link | link.1 = asset.id} ∪ ∅
    rw [Set.union_empty]
    ext link
    rw [mem_relation, hattached, mem_removing, Set.mem_sdiff, mem_relation, Set.mem_ofPred_eq]
    refine and_congr_right fun hold => not_congr ?_
    obtain ⟨other, node⟩ := link
    simp only [List.mem_map, Prod.mk.injEq]
    constructor
    · rintro ⟨_, -, heq, -⟩
      exact heq.symm
    · rintro rfl
      exact ⟨node, (hnodes node).2 hold, rfl, rfl⟩
  · rw [hresult hw]
    rfl

end Request
end Inventory
