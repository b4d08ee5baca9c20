import Inventory.Proofs.Counts.AssetBatch
import Inventory.Proofs.Notice
import Inventory.Proofs.Store.Editing
import Inventory.Proofs.Store.Reading

/-! # What a transaction makes of the attachments

Each of the four edits turns the rows it is asked for into those that are really new, or really
there, and adds or removes them together with the amounts they bring. -/
namespace Inventory
set_option autoImplicit false

/-! ## Steps of a transaction -/

namespace Transaction
variable {α β : Type} {s : Store}

theorem bind_eq_ok {t : Transaction α} {next : α → Transaction β} {r : β × Store} :
    (t >>= next) s = .ok r ↔ ∃ a s', t s = .ok (a, s') ∧ next a s' = .ok r := by
  have h : (t s >>= fun p => next p.1 p.2) = .ok r ↔ _ := Inventory.bind_eq_ok
  exact h.trans ⟨fun ⟨p, h⟩ => ⟨p.1, p.2, h⟩, fun ⟨a, s', h⟩ => ⟨(a, s'), h⟩⟩

theorem bind_of_ok {t : Transaction α} {next : α → Transaction β} {a : α} {s' : Store}
    (h : t s = .ok (a, s')) : (t >>= next) s = next a s' := by
  show (t s >>= fun p => next p.1 p.2) = _
  rw [h]
  rfl

theorem get_bind {next : Store → Transaction β} : (get >>= next) s = next s s := rfl

theorem set_bind {s' : Store} {next : PUnit → Transaction β} :
    (set s' >>= next) s = next ⟨⟩ s' := rfl

theorem lift_bind (x : Except Error α) (next : α → Transaction β) (s : Store) :
    ((liftM x : Transaction α) >>= next) s = x >>= fun a => next a s := by
  cases x with
  | ok a => rfl
  | error e => rfl

theorem discard_lift_bind (x : Except Error α) (next : PUnit → Transaction β) :
    (discard (liftM x : Transaction α) >>= next) = (liftM x : Transaction α) >>= fun _ => next ⟨⟩ :=
  bind_map_left (fun _ => PUnit.unit) (liftM x : Transaction α) next

theorem lift_eq_ok {x : Except Error α} {a : α} {s' : Store} :
    (liftM x : Transaction α) s = .ok (a, s') ↔ x = .ok a ∧ s' = s := by
  cases x with
  | ok found =>
    constructor
    · intro h
      cases h
      exact ⟨rfl, rfl⟩
    · rintro ⟨h, rfl⟩
      cases h
      rfl
  | error e =>
    constructor
    · intro h
      cases h
    · rintro ⟨h, -⟩
      cases h

theorem lift_bind_eq_ok {x : Except Error α} {next : α → Transaction β} {r : β × Store} :
    ((liftM x : Transaction α) >>= next) s = .ok r ↔ ∃ a, x = .ok a ∧ next a s = .ok r := by
  rw [bind_eq_ok]
  constructor
  · rintro ⟨a, s', h, h'⟩
    obtain ⟨hx, rfl⟩ := lift_eq_ok.1 h
    exact ⟨a, hx, h'⟩
  · rintro ⟨a, h, h'⟩
    exact ⟨a, s, lift_eq_ok.2 ⟨h, rfl⟩, h'⟩

theorem map_eq_ok {f : α → β} {t : Transaction α} {b : β} {s' : Store} :
    (f <$> t) s = .ok (b, s') ↔ ∃ a, t s = .ok (a, s') ∧ f a = b := by
  rw [map_eq_pure_bind, bind_eq_ok]
  constructor
  · rintro ⟨a, s', h, h'⟩
    cases h'
    exact ⟨a, h, rfl⟩
  · rintro ⟨a, h, rfl⟩
    exact ⟨a, s', h, rfl⟩

/-- A change of amounts that is made only if they are propagated. -/
theorem adjust_bind (propagate : Bool) (change : Store → Nat × Store) (next : Nat → Transaction β)
    (s : Store) : ∃ n, (if propagate then Store.adjust change >>= next else pure 0 >>= next) s =
      next n (if propagate then (change s).2 else s) := by
  cases propagate with
  | true => exact ⟨(change s).1, rfl⟩
  | false => exact ⟨0, rfl⟩

theorem adjust_bind_eq_ok {propagate : Bool} {change : Store → Nat × Store}
    {next : Nat → Transaction β} {r : β × Store}
    (h : (if propagate then Store.adjust change >>= next else pure 0 >>= next) s = .ok r) :
    ∃ n, next n (if propagate then (change s).2 else s) = .ok r := by
  obtain ⟨n, hn⟩ := adjust_bind propagate change next s
  exact ⟨n, hn.symm.trans h⟩

end Transaction

namespace Store
variable {s s' : Store}

theorem isIn_of_row {node : Node} (h : node.row ∈ s.nodes) : node.IsIn s :=
  ⟨node.row, h, rfl, rfl, rfl⟩

theorem areIn_of_rows {nodes : List Node} {hierarchy : HierarchyId}
    (h : ∀ node ∈ nodes, node.row ∈ s.nodes ∧ node.hierarchy = hierarchy) :
    ∀ node ∈ nodes, node.IsIn s ∧ node.hierarchy = hierarchy := fun node hnode =>
  ⟨isIn_of_row (h node hnode).1, (h node hnode).2⟩

theorem Alike.isIn (h : Alike s s') {node : Node} (hnode : node.IsIn s) : node.IsIn s' := by
  obtain ⟨row, hrow, hid, hh, hk⟩ := hnode
  obtain ⟨new, hnew, hid', hh', hk', -⟩ := h.symm.exists_row hrow
  exact ⟨new, hnew, hid'.trans hid, hh'.trans hh, hk'.trans hk⟩

/-! ## Marks -/

theorem mark_eq_ok {hierarchy : HierarchyId} (h : mark hierarchy s = .ok ((), s')) :
    s' = s.marking false hierarchy := by
  rw [mark, Transaction.get_bind] at h
  by_cases hc : s.marked.contains hierarchy = true
  · rw [if_pos hc] at h
    cases h
    rw [marking, Bool.false_or, if_pos hc]
  · rw [if_neg hc] at h
    by_cases hknown : (s.hierarchy? hierarchy).isNone = true
    · rw [if_pos hknown] at h
      cases h
    · rw [if_neg hknown] at h
      cases h
      rw [marking, Bool.false_or, if_neg hc]

theorem markUnless_eq_ok {propagated : Bool} {hierarchy : HierarchyId}
    (h : markUnless propagated hierarchy s = .ok ((), s')) :
    s' = s.marking propagated hierarchy := by
  cases propagated with
  | true =>
    cases h
    rw [marking, Bool.true_or, if_pos rfl]
  | false => exact mark_eq_ok h

/-! ## Attaching rows that are new -/

theorem adjust_eq_ok {change : Store → Nat × Store} {n : Nat} (h : adjust change s = .ok (n, s')) :
    s' = (change s).2 := by
  have hpair : change s = (n, s') := Except.ok.inj h
  rw [hpair]

theorem attach_eq_ok {asset : AssetId} {node : NodeId} (hnew : (asset, node) ∉ s.attachments)
    (h : attach asset node s = .ok ((), s')) :
    s' = s.plus [(asset, node)] ∧ ∃ known ∈ s.assets, known.id = asset := by
  rw [attach, Transaction.get_bind, if_neg (by simpa using hnew)] at h
  by_cases hd : ((s.asset? asset).isNone || !(s.nodes.any (·.id == node))) = true
  · rw [if_pos hd] at h
    cases h
  · rw [if_neg hd] at h
    cases h
    refine ⟨rfl, ?_⟩
    simp only [Bool.or_eq_true, not_or, Option.isNone_iff_eq_none] at hd
    obtain ⟨known, hknown⟩ := Option.ne_none_iff_exists'.1 hd.1
    exact ⟨known, List.mem_of_find?_eq_some hknown, by simpa using List.find?_some hknown⟩

theorem forM_attach {α : Type} (link : α → Attachment) {items : List α}
    (hn : (items.map link).Nodup) (hnew : ∀ item ∈ items, link item ∉ s.attachments)
    (h : (items.forM fun item => attach (link item).1 (link item).2) s = .ok ((), s')) :
    s' = s.plus (items.map link) ∧ ∀ item ∈ items, ∃ known ∈ s.assets, known.id = (link item).1 := by
  induction items generalizing s with
  | nil =>
    cases h
    exact ⟨by simp [plus], by simp⟩
  | cons item items ih =>
    rw [List.map_cons, List.nodup_cons] at hn
    rw [List.forM, Transaction.bind_eq_ok] at h
    obtain ⟨_, s₁, hfirst, hrest⟩ := h
    obtain ⟨rfl, hknown⟩ := attach_eq_ok (hnew item (List.mem_cons_self ..)) hfirst
    have hnew' : ∀ i ∈ items, link i ∉ (s.plus [link item]).attachments := by
      intro i hi hin
      rcases List.mem_append.1 hin with hold | hone
      · exact hnew i (List.mem_cons_of_mem _ hi) hold
      · exact hn.1 (List.mem_singleton.1 hone ▸ List.mem_map_of_mem hi)
    obtain ⟨rfl, hothers⟩ := ih hn.2 hnew' hrest
    refine ⟨by simp [plus], ?_⟩
    intro i hi
    rcases List.mem_cons.1 hi with rfl | hi
    · exact hknown
    · exact hothers i hi

theorem foldl_detach {α : Type} (link : α → Attachment) (items : List α) :
    items.foldl (fun s item => s.detach (link item).1 (link item).2) s =
      s.minus (items.map link) := by
  induction items generalizing s with
  | nil => simp [minus]
  | cons item items ih =>
    rw [List.foldl_cons, ih]
    simp only [minus, detach, List.filter_filter, List.map_cons, List.contains_cons, Bool.not_or]
    congr 1
    refine List.filter_congr fun row _ => ?_
    rw [Bool.and_comm]
    rfl

/-! ## The four edits -/

/-- The adjustment for a node as a shift, also where it is left out. -/
theorem adjusted_node (hs : s.Indexed) {node : Node} (hnode : node.IsIn s) (edit : Edit)
    {assets : List AssetId} (hn : assets.Nodup) (propagate : Bool) :
    (if propagate then (Counts.adjustForNode s edit node.hierarchy node.key assets).2 else s) =
      s.shifted fun h k =>
        if propagate then edit.sign * s.gain (assets.map (·, node.id)) h k else 0 := by
  cases propagate with
  | true =>
    exact Counts.adjustForNode_eq hs edit hnode hn
  | false => exact (shifted_eq_self fun _ _ => rfl).symm

/-- The adjustment for an asset as a shift, also where it is left out. -/
theorem adjusted_asset (hs : s.Indexed) {hierarchy : HierarchyId} (asset : AssetId)
    {nodes : List Node} (hnodes : ∀ node ∈ nodes, node.IsIn s ∧ node.hierarchy = hierarchy)
    (edit : Edit) (propagate : Bool) :
    (if propagate then (Counts.adjustForAsset s edit hierarchy asset (nodes.map (·.key))).2 else s) =
      s.shifted fun h k =>
        if propagate then edit.sign * s.gain (nodes.map (asset, ·.id)) h k else 0 := by
  cases propagate with
  | true =>
    exact Counts.adjustForAsset_eq hs edit asset hnodes
  | false => exact (shifted_eq_self fun _ _ => rfl).symm

theorem nodup_fresh (assets : List AssetId) (keep : AssetId → Bool) :
    (assets.eraseDups.filter keep).Nodup := (nodup_eraseDups assets).filter _

theorem nodup_links {assets : List AssetId} (hn : assets.Nodup) (node : NodeId) :
    (assets.map (·, node)).Nodup := hn.map fun _ _ h => (Prod.mk.inj h).1

theorem links_of_ids (nodes : List Node) (asset : AssetId) :
    (nodes.map (·.id)).map (asset, ·) = nodes.map (asset, ·.id) := by
  rw [List.map_map]
  rfl

theorem addToNode_eq_ok (hs : s.Indexed) {node : Node} (hnode : node.IsIn s) {assets : List AssetId}
    {propagate : Bool} {edited : Edited AssetId}
    (h : addToNode node assets propagate s = .ok (edited, s')) :
    edited.changed = assets.eraseDups.filter (!s.isAttached · node.id) ∧
      s' = s.adding (edited.changed.map (·, node.id)) propagate ∧
      ∀ asset ∈ edited.changed, ∃ known ∈ s.assets, known.id = asset := by
  rw [addToNode, Transaction.get_bind] at h
  obtain ⟨n, h⟩ := Transaction.adjust_bind_eq_ok h
  rw [adjusted_node hs hnode .add (nodup_fresh ..), Transaction.bind_eq_ok] at h
  obtain ⟨_, s₂, hforM, h⟩ := h
  cases h
  have hnew : ∀ asset ∈ assets.eraseDups.filter (!s.isAttached · node.id),
      (asset, node.id) ∉ s.attachments := by
    intro asset hasset
    simpa [isAttached] using (List.mem_filter.1 hasset).2
  obtain ⟨hs', hknown⟩ := forM_attach (s := s.shifted _) (fun asset => (asset, node.id))
    (nodup_links (nodup_fresh ..) node.id) hnew hforM
  refine ⟨rfl, ?_, hknown⟩
  rw [hs', adding]
  simp only [Edit.sign, Int.one_mul]
  rfl

theorem removeFromNode_eq_ok (hs : s.Indexed) {node : Node} (hnode : node.IsIn s)
    {assets : List AssetId} {propagate : Bool} {edited : Edited AssetId}
    (h : removeFromNode node assets propagate s = .ok (edited, s')) :
    edited.changed = assets.eraseDups.filter (s.isAttached · node.id) ∧
      s' = s.removing (edited.changed.map (·, node.id)) propagate := by
  rw [removeFromNode, Transaction.get_bind, Transaction.set_bind] at h
  obtain ⟨n, h⟩ := Transaction.adjust_bind_eq_ok h
  rw [foldl_detach fun asset : AssetId => (asset, node.id)] at h
  have halike := alike_minus s
    ((assets.eraseDups.filter (s.isAttached · node.id)).map fun asset => (asset, node.id))
  rw [adjusted_node (hs.minus _) (halike.isIn hnode) .remove (nodup_fresh ..)] at h
  cases h
  refine ⟨rfl, ?_⟩
  rw [removing]
  simp only [Edit.sign, Int.neg_mul, Int.one_mul]

theorem nodup_targets {nodes : List Node} (hn : (nodes.map (·.id)).Nodup) (asset : AssetId)
    (keep : Node → Bool) : ((nodes.filter keep).map (asset, ·.id)).Nodup := by
  have hsub := hn.sublist (List.filter_sublist (p := keep).map _)
  have hpairs := hsub.map (f := fun id => (asset, id)) fun _ _ h => (Prod.mk.inj h).2
  rwa [List.map_map] at hpairs

theorem nodup_distinct (nodes : List Node) :
    ((nodes.eraseDupsBy (·.id == ·.id)).map (·.id)).Nodup := by
  rw [map_eraseDupsBy Node.id]
  exact nodup_eraseDups _

/-- Nodes that are named several times count once. -/
theorem addToNodes_distinct (hierarchy : HierarchyId) (asset : AssetId) (nodes : List Node)
    (propagate : Bool) :
    addToNodes hierarchy asset (nodes.eraseDupsBy (·.id == ·.id)) propagate =
      addToNodes hierarchy asset nodes propagate := by
  rw [addToNodes, addToNodes, eraseDupsBy_of_nodup Node.id (nodup_distinct nodes)]

theorem removeFromNodes_distinct (hierarchy : HierarchyId) (asset : AssetId) (nodes : List Node)
    (propagate : Bool) :
    removeFromNodes hierarchy asset (nodes.eraseDupsBy (·.id == ·.id)) propagate =
      removeFromNodes hierarchy asset nodes propagate := by
  rw [removeFromNodes, removeFromNodes, eraseDupsBy_of_nodup Node.id (nodup_distinct nodes)]

theorem addToNodes_eq_ok (hs : s.Indexed) {hierarchy : HierarchyId} {asset : AssetId}
    {nodes : List Node} (hn : (nodes.map (·.id)).Nodup)
    (hnodes : ∀ node ∈ nodes, node.IsIn s ∧ node.hierarchy = hierarchy)
    {propagate : Bool} {edited : Edited Node}
    (h : addToNodes hierarchy asset nodes propagate s = .ok (edited, s')) :
    edited.changed = nodes.filter (!s.isAttached asset ·.id) ∧
      s' = s.adding (edited.changed.map (asset, ·.id)) propagate := by
  rw [addToNodes, Transaction.get_bind, eraseDupsBy_of_nodup Node.id hn] at h
  obtain ⟨n, h⟩ := Transaction.adjust_bind_eq_ok h
  rw [adjusted_asset hs asset (fun node hnode => hnodes node (List.mem_of_mem_filter hnode)),
    Transaction.bind_eq_ok] at h
  obtain ⟨_, s₂, hforM, h⟩ := h
  cases h
  have hnew : ∀ node ∈ nodes.filter (!s.isAttached asset ·.id),
      (asset, node.id) ∉ s.attachments := by
    intro node hnode
    simpa [isAttached] using (List.mem_filter.1 hnode).2
  obtain ⟨hs', -⟩ := forM_attach (s := s.shifted _) (fun node : Node => (asset, node.id))
    (nodup_targets hn asset _) hnew hforM
  refine ⟨rfl, ?_⟩
  rw [hs', adding]
  simp only [Edit.sign, Int.one_mul]
  rfl

/-- Detaching from nodes, before it is known which amounts the adjustment reaches. -/
theorem removeFromNodes_eq {hierarchy : HierarchyId} {asset : AssetId} {nodes : List Node}
    (hn : (nodes.map (·.id)).Nodup) {propagate : Bool} {edited : Edited Node}
    (h : removeFromNodes hierarchy asset nodes propagate s = .ok (edited, s')) :
    edited.changed = nodes.filter (s.isAttached asset ·.id) ∧
      s' = if propagate
        then (Counts.adjustForAsset (s.minus (edited.changed.map (asset, ·.id))) .remove hierarchy
          asset (edited.changed.map (·.key))).2
        else s.minus (edited.changed.map (asset, ·.id)) := by
  rw [removeFromNodes, Transaction.get_bind, Transaction.set_bind,
    eraseDupsBy_of_nodup Node.id hn] at h
  obtain ⟨n, h⟩ := Transaction.adjust_bind_eq_ok h
  rw [foldl_detach fun node : Node => (asset, node.id)] at h
  cases h
  exact ⟨rfl, rfl⟩

theorem removeFromNodes_eq_ok (hs : s.Indexed) {hierarchy : HierarchyId} {asset : AssetId}
    {nodes : List Node} (hn : (nodes.map (·.id)).Nodup)
    (hnodes : ∀ node ∈ nodes, node.IsIn s ∧ node.hierarchy = hierarchy)
    {propagate : Bool} {edited : Edited Node}
    (h : removeFromNodes hierarchy asset nodes propagate s = .ok (edited, s')) :
    edited.changed = nodes.filter (s.isAttached asset ·.id) ∧
      s' = s.removing (edited.changed.map (asset, ·.id)) propagate := by
  obtain ⟨hchanged, hs'⟩ := removeFromNodes_eq hn h
  refine ⟨hchanged, ?_⟩
  rw [hchanged, adjusted_asset (hs.minus _) asset
    (fun node hnode => hnodes node (List.mem_of_mem_filter hnode))] at hs'
  rw [hs', hchanged, removing]
  simp only [Edit.sign, Int.neg_mul, Int.one_mul]

/-! ## Going to the root -/

theorem mem_orphans {hierarchy : HierarchyId} {id : AssetId} :
    id ∈ s.orphans hierarchy ↔
      (∃ asset ∈ s.assets, asset.id = id ∧ asset.hierarchy = hierarchy) ∧
        ∀ node, (id, node) ∉ s.attachments := by
  simp only [orphans, sortIds, List.mem_mergeSort, List.mem_filter, List.mem_map, assetsOf,
    beq_iff_eq, Bool.not_eq_true', List.any_eq_false, Prod.forall, and_assoc]
  constructor
  · rintro ⟨⟨asset, hin, hh, rfl⟩, hnone⟩
    exact ⟨⟨asset, hin, rfl, hh⟩, fun node hlink => hnone _ _ hlink rfl⟩
  · rintro ⟨⟨asset, hin, rfl, hh⟩, hnone⟩
    refine ⟨⟨asset, hin, hh, rfl⟩, ?_⟩
    rintro a node hlink rfl
    exact hnone node hlink

theorem nodup_orphans (hids : (s.assets.map (·.id)).Nodup) (hierarchy : HierarchyId) :
    (s.orphans hierarchy).Nodup := by
  rw [orphans, sortIds, (List.mergeSort_perm _ _).nodup_iff]
  exact (hids.sublist (List.filter_sublist.map _)).filter _

/-- The assets among the given ones that are attached to no node go to the root. -/
theorem rehome_eq_ok (hs : s.Formed) {hierarchy : HierarchyId} {assets : List AssetId}
    {propagate : Bool} {rehomed : List Change}
    (h : rehome hierarchy assets propagate s = .ok (rehomed, s')) :
    ∃ rows : List Attachment, s' = s.adding rows propagate ∧ Change.rows rehomed = rows ∧
      rows.map (·.1) = (s.orphans hierarchy).filter (assets.contains ·) ∧
      ∀ link ∈ rows, ∃ root ∈ s.nodes, root.id = link.2 ∧ root.hierarchy = hierarchy ∧
        root.parentKey = "" := by
  rw [rehome, Transaction.get_bind] at h
  generalize hstrays : (s.orphans hierarchy).filter (assets.contains ·) = strays at h ⊢
  cases strays with
  | nil =>
    cases h
    exact ⟨[], (adding_nil s propagate).symm, rfl, rfl, by simp⟩
  | cons first rest =>
    obtain ⟨found, hroot, h⟩ := Transaction.lift_bind_eq_ok.1 h
    cases found with
    | none => cases h
    | some root =>
      obtain ⟨hin, hh, hp⟩ := (hs.rootNode? hroot).2 root rfl
      obtain ⟨edited, s₁, hadd, h⟩ := Transaction.bind_eq_ok.1 h
      cases h
      obtain ⟨hchanged, hs', -⟩ := addToNode_eq_ok hs.indexed (isIn_of_row hin) hadd
      have hunplaced : ∀ id ∈ first :: rest, ∀ node, (id, node) ∉ s.attachments := by
        intro id hid
        rw [← hstrays] at hid
        exact (mem_orphans.1 (List.mem_of_mem_filter hid)).2
      have hall : edited.changed = first :: rest := by
        have hn : (first :: rest).Nodup := hstrays ▸ (nodup_orphans hs.assetIds hierarchy).filter _
        rw [hchanged, eraseDups_of_nodup hn, List.filter_eq_self]
        intro id hid
        simpa [isAttached] using hunplaced id hid root.id
      refine ⟨edited.changed.map (·, root.id), hs', ?_, ?_, ?_⟩
      · exact Change.rows_perAsset _ _
      · rw [List.map_map, ← hall]
        exact List.map_id _
      · intro link hlink
        obtain ⟨asset, -, rfl⟩ := List.mem_map.1 hlink
        exact ⟨root.row, hin, rfl, hh, hp⟩

end Store
end Inventory
