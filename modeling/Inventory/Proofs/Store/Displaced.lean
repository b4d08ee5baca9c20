import Inventory.Proofs.Store.Growth
import Inventory.Proofs.Store.Relation

/-! # Changes made in the name of another hierarchy

A transaction is told the hierarchy of its row, which was read before. Where the id has come to name
a row of another hierarchy since then, marks, adjustments of amounts and rehoming miss the hierarchy
that really changes. Each lemma here says what has to hold there for the store to stay intact. -/
namespace Inventory.Store
set_option autoImplicit false

/-- What every transaction should leave behind. -/
structure Intact (s : Store) : Prop where
  placed : s.Placed
  joined : s.Joined
  parented : s.Parented
  settled : s.Settled

/-- The nodes of the hierarchy hold the assets that they held before. -/
def HoldsSame (hierarchy : HierarchyId) (s t : Store) : Prop :=
  ∀ row ∈ s.nodes, row.hierarchy = hierarchy →
    t.holdings hierarchy row.key = s.holdings hierarchy row.key

variable {s s' : Store} {propagate : Bool} {host other : HierarchyId} {rows : List Attachment}

theorem Sound.intact (hs : s.Sound) : s.Intact := ⟨hs.placed, hs.joined, hs.parented, hs.settled⟩

/-! ## Amounts that are not adjusted -/

theorem settled_marking_iff : (s.marking propagate host).Settled ↔
    ∀ h, h ∉ s.marked → ¬(propagate = false ∧ h = host) → s.Counted h := by
  rw [settled_iff]
  simp only [mem_marking, not_or]
  exact ⟨fun h k hk hne => h k ⟨hk, hne⟩, fun h k hk => h k hk.1 hk.2⟩

theorem holdings_minus_subset (rows : List Attachment) (h : HierarchyId) (k : String) :
    (s.minus rows).holdings h k ⊆ s.holdings h k := by
  intro asset hasset
  obtain ⟨row, hrow, hwithin, hlink⟩ := mem_holdings.1 hasset
  exact mem_holdings.2 ⟨row, hrow, hwithin, (mem_minus.1 hlink).1⟩

/-- Amounts stay exact without an adjustment where nodes hold what they held. -/
theorem counted_minus_iff (hc : s.Counted other) :
    (s.minus rows).Counted other ↔ HoldsSame other s (s.minus rows) := by
  constructor
  · intro hcounted row hrow hh
    have hcard := (hc row hrow hh).symm.trans (hcounted row hrow hh)
    rw [hh, Int.natCast_inj] at hcard
    exact Finset.eq_of_subset_of_card_le (holdings_minus_subset rows other row.key) hcard.le
  · intro hsame row hrow hh
    rw [hc row hrow hh, hh, hsame row hrow hh]

theorem removing_false (s : Store) (rows : List Attachment) : s.removing rows false = s.minus rows :=
  shifted_eq_self fun _ _ => rfl

theorem adding_false (s : Store) (rows : List Attachment) : s.adding rows false = s.plus rows :=
  shifted_eq_self fun _ _ => rfl

/-- Deleting rows of a hierarchy in the name of another one. -/
theorem settled_minus_iff (hs : s.Sound) (hrows : ∀ link ∈ rows, link ∈ s.attachments)
    (hw : s.Within other rows) (hne : other ≠ host) :
    ((s.minus rows).marking propagate host).Settled ↔
      other ∈ s.marked ∨ HoldsSame other s (s.minus rows) := by
  rw [settled_marking_iff]
  have hcounted := settled_iff.1 hs.settled
  constructor
  · intro hsettled
    by_cases hmarked : other ∈ s.marked
    · exact Or.inl hmarked
    · rw [← counted_minus_iff (hcounted other hmarked)]
      exact Or.inr (hsettled other hmarked fun h => hne h.2)
  · intro hsame h hmarked _
    by_cases hh : h = other
    · subst hh
      exact (counted_minus_iff (hcounted h hmarked)).2 (hsame.resolve_left hmarked)
    · rw [← removing_false]
      exact counted_removing (hcounted h hmarked) hrows (Or.inr (hw.foreign hh))

/-! ## Detaching -/

theorem Detached.rehomed_eq_nil {gone rehomed : List Attachment}
    (h : Detached propagate host gone rehomed s s') (hs : s.Sound) (hw : s.Within other gone)
    (hne : other ≠ host) : rehomed = [] := by
  rw [List.eq_nil_iff_forall_not_mem]
  intro link hlink
  obtain ⟨asset, hasset, hid, hh⟩ := (h.unplaced hlink).1
  obtain ⟨⟨_, node⟩, hgone, rfl⟩ :=
    List.mem_map.1 ((h.strays link.1).1 (List.mem_map_of_mem hlink)).1
  obtain ⟨known, hknown, row, hrow, hkid, hrid, hjoin⟩ := hs.joined _ (h.old _ hgone)
  have hsame := hs.formed.asset_eq_of_id hknown hasset (hkid.trans hid.symm)
  refine hne ?_
  rw [← hw _ hgone row hrow hrid, ← hjoin, hsame, hh]

/-- Detaching in the name of another hierarchy strands assets that have no other node, and leaves
amounts as they are if it does not propagate. -/
theorem Detached.intact_iff {gone rehomed : List Attachment}
    (h : Detached propagate host gone rehomed s s') (hs : s.Sound) (hw : s.Within other gone)
    (hne : other ≠ host) :
    s'.Intact ↔
      (∀ link ∈ gone, ∃ node, (link.1, node) ∈ s.attachments ∧ (link.1, node) ∉ gone) ∧
        (propagate = true ∨ other ∈ s.marked ∨ HoldsSame other s s') := by
  have hnone := h.rehomed_eq_nil hs hw hne
  have hmem : ∀ {link : Attachment},
      link ∈ s'.attachments ↔ link ∈ s.attachments ∧ link ∉ gone := by
    intro link
    rw [h.mem_attachments, hnone]
    simp
  have hresult : s' = (s.removing gone propagate).marking propagate host := by
    rw [h.result, hnone, adding_nil]
  have halike : Alike s s' := by
    rw [hresult]
    exact (alike_removing s gone propagate).trans (alike_marking ..)
  have hplaced : s'.Placed ↔
      ∀ link ∈ gone, ∃ node, (link.1, node) ∈ s.attachments ∧ (link.1, node) ∉ gone := by
    constructor
    · intro hp link hlink
      obtain ⟨asset, hasset, -, -, hid, -⟩ := hs.joined _ (h.old _ hlink)
      obtain ⟨node, hnode⟩ := hp asset (halike.assets ▸ hasset)
      rw [hid] at hnode
      exact ⟨node, hmem.1 hnode⟩
    · intro hothers asset hasset
      obtain ⟨node, hnode⟩ := hs.placed asset (halike.assets ▸ hasset)
      by_cases hgone : (asset.id, node) ∈ gone
      · exact (hothers _ hgone).imp fun node hkept => hmem.2 hkept
      · exact ⟨node, hmem.2 ⟨hnode, hgone⟩⟩
  have hsettled : s'.Settled ↔ propagate = true ∨ other ∈ s.marked ∨ HoldsSame other s s' := by
    rw [hresult]
    cases propagate with
    | true =>
      refine iff_of_true (settled_marking_iff.2 fun k hk _ => ?_) (Or.inl rfl)
      exact counted_removing (settled_iff.1 hs.settled k hk) h.old (Or.inl rfl)
    | false =>
      rw [removing_false, settled_minus_iff hs h.old hw hne]
      exact ⟨Or.inr, fun h => h.resolve_left Bool.false_ne_true⟩
  constructor
  · exact fun hintact => ⟨hplaced.1 hintact.placed, hsettled.1 hintact.settled⟩
  · rintro ⟨hothers, hamounts⟩
    refine ⟨hplaced.2 hothers, ?_, halike.parented hs.parented, hsettled.2 hamounts⟩
    exact fun link hlink => halike.joins hs.joined link (hmem.1 hlink).1

theorem detachAll_intact_iff (hs : s.Sound) {id : NodeId} {assets : List AssetId}
    {outcome : Outcome} (h : detachAll host id assets propagate s = .ok (outcome, s')) :
    s'.Intact ↔ ∀ row ∈ s.nodes, row.id = id → row.hierarchy = host ∨
      (∀ asset ∈ assets, (asset, id) ∈ s.attachments →
        ∃ node, node ≠ id ∧ (asset, node) ∈ s.attachments) ∧
      (propagate = true ∨ row.hierarchy ∈ s.marked ∨ HoldsSame row.hierarchy s s') := by
  obtain ⟨hgone, -, row, hrow, rfl⟩ := detachAll_eq_ok hs.formed h
  have hw := within_node hs.formed hrow (assets.eraseDups.filter (s.isAttached · row.id))
  have hsingle : ∀ {p : NodeRow → Prop}, (∀ place ∈ s.nodes, place.id = row.id → p place) ↔ p row := by
    intro p
    refine ⟨fun hall => hall row hrow rfl, fun hp place hplace hid => ?_⟩
    rwa [hs.formed.eq_of_id hplace hrow hid]
  rw [hsingle]
  by_cases hhost : row.hierarchy = host
  · rw [hhost] at hw
    exact iff_of_true (hgone.sound hs hw).intact (Or.inl hhost)
  · rw [hgone.intact_iff hs hw hhost, or_iff_right hhost]
    refine and_congr_left fun _ => ?_
    have hmem : ∀ {asset : AssetId} {node : NodeId},
        (asset, node) ∈ (assets.eraseDups.filter (s.isAttached · row.id)).map (·, row.id) ↔
          asset ∈ assets ∧ (asset, row.id) ∈ s.attachments ∧ node = row.id := by
      intro asset node
      simp only [List.mem_map, List.mem_filter, List.mem_eraseDups, isAttached_iff, Prod.mk.injEq]
      constructor
      · rintro ⟨_, ⟨hin, hold⟩, rfl, rfl⟩
        exact ⟨hin, hold, rfl⟩
      · rintro ⟨hin, hold, rfl⟩
        exact ⟨asset, ⟨hin, hold⟩, rfl, rfl⟩
    constructor
    · intro hothers asset hin hold
      obtain ⟨node, hnode, hkept⟩ := hothers (asset, row.id) (hmem.2 ⟨hin, hold, rfl⟩)
      exact ⟨node, fun heq => hkept (hmem.2 ⟨hin, hold, heq⟩), hnode⟩
    · rintro hothers ⟨asset, _⟩ hlink
      obtain ⟨hin, hold, rfl⟩ := hmem.1 hlink
      obtain ⟨node, hne, hnode⟩ := hothers asset hin hold
      exact ⟨node, hnode, fun hgone => hne (hmem.1 hgone).2.2⟩

/-! ## Deleting -/

theorem settled_withoutAsset {id : AssetId} : (s.withoutAsset id).Settled ↔ s.Settled := Iff.rfl

theorem not_holdsSame_minus (hs : s.Sound) {asset : Asset} (hasset : asset ∈ s.assets)
    {id : AssetId} (hid : asset.id = id) {nodes : List NodeId}
    (hnodes : ∀ node, node ∈ nodes ↔ (id, node) ∈ s.attachments) :
    ¬HoldsSame asset.hierarchy s (s.minus (nodes.map (id, ·))) := by
  intro hsame
  obtain ⟨node, hlink⟩ := hs.placed asset hasset
  obtain ⟨known, hknown, row, hrow, hkid, hrid, hh⟩ := hs.joined _ hlink
  rw [hs.formed.asset_eq_of_id hknown hasset hkid] at hh
  obtain ⟨key, hkey, -⟩ := hs.formed.canonical row hrow
  have hheld : asset.id ∈ s.holdings asset.hierarchy row.key := by
    refine mem_holdings.2 ⟨row, hrow, ?_, hrid ▸ hlink⟩
    rw [hkey, isWithin_iff hkey]
    exact ⟨hh.symm, Key.descendant_refl key⟩
  rw [← hsame row hrow hh.symm] at hheld
  obtain ⟨place, -, -, hkept⟩ := mem_holdings.1 hheld
  obtain ⟨hin, hnone⟩ := mem_minus.1 hkept
  rw [hid] at hin hnone
  exact hnone (List.mem_map_of_mem ((hnodes place.id).2 hin))

/-- Without an asset and all its rows only the amounts may be wrong. -/
theorem intact_withoutAsset_iff (hs : s.Sound) {id : AssetId} {rows : List Attachment}
    (hrows : ∀ link, link ∈ rows ↔ link ∈ s.attachments ∧ link.1 = id) (propagate : Bool) :
    (((s.minus rows).withoutAsset id).marking propagate host).Intact ↔
      (((s.minus rows).withoutAsset id).marking propagate host).Settled := by
  refine ⟨fun hintact => hintact.settled, fun hsettled => ⟨?_, ?_, hs.parented, hsettled⟩⟩
  · intro known hknown
    obtain ⟨hin, hother⟩ := List.mem_filter.1 hknown
    obtain ⟨node, hnode⟩ := hs.placed known hin
    exact ⟨node, mem_minus.2 ⟨hnode, fun hgone => bne_iff_ne.1 hother ((hrows _).1 hgone).2⟩⟩
  · intro link hlink
    obtain ⟨hin, hkept⟩ := mem_minus.1 hlink
    obtain ⟨known, hknown, row, hrow, hkid, hjoins⟩ := hs.joined link hin
    refine ⟨known, List.mem_filter.2 ⟨hknown, ?_⟩, row, hrow, hkid, hjoins⟩
    rw [bne_iff_ne]
    exact fun heq => hkept ((hrows link).2 ⟨hin, hkid.symm.trans heq⟩)

/-- Deleting an asset in the name of another hierarchy leaves the amounts of its nodes too large. -/
theorem removeAsset_intact_iff (hs : s.Sound) {id : AssetId} {propagates : Nat → Bool}
    {removed : List NodeId × Bool} (h : removeAsset host id propagates s = .ok (removed, s')) :
    s'.Intact ↔ ∀ asset ∈ s.assets, asset.id = id →
      asset.hierarchy = host ∨ asset.hierarchy ∈ s.marked := by
  obtain ⟨nodes, propagate⟩ := removed
  obtain ⟨-, hnodes, -, hforeign⟩ := removeAsset_eq_ok hs.toSteady h
  have hold : ∀ link ∈ nodes.map (id, ·), link ∈ s.attachments := by
    intro link hlink
    obtain ⟨node, hnode, rfl⟩ := List.mem_map.1 hlink
    exact (hnodes node).1 hnode
  have hrows : ∀ {asset : Asset}, asset ∈ s.assets → asset.id = id →
      s.Within asset.hierarchy (nodes.map (id, ·)) := by
    intro asset hasset hid
    refine hs.within fun link hlink => ⟨hold link hlink, asset, hasset, ?_, rfl⟩
    obtain ⟨node, -, rfl⟩ := List.mem_map.1 hlink
    exact hid
  by_cases hhome : ∀ asset ∈ s.assets, asset.id = id → asset.hierarchy = host
  · refine iff_of_true ?_ fun asset hasset hid => Or.inl (hhome asset hasset hid)
    refine (removeAsset_sound hs h fun link hlink row hrow hrid => ?_).intact
    obtain ⟨asset, hasset, -, -, haid, -⟩ := hs.joined _ (hold link hlink)
    obtain ⟨node, -, rfl⟩ := List.mem_map.1 hlink
    exact hhome asset hasset haid ▸ hrows hasset haid _ hlink row hrow hrid
  · simp only [not_forall] at hhome
    obtain ⟨asset, hasset, hid, hne⟩ := hhome
    have hw := hrows hasset hid
    have hresult : s' = ((s.minus (nodes.map (id, ·))).withoutAsset id).marking propagate host := by
      refine hforeign fun row hrow hh hin => hne ?_
      exact (hw (id, row.id) (List.mem_map_of_mem hin) row hrow rfl).symm.trans hh
    have hmem : ∀ link : Attachment,
        link ∈ nodes.map (id, ·) ↔ link ∈ s.attachments ∧ link.1 = id := by
      rintro ⟨owner, node⟩
      simp only [List.mem_map, hnodes, Prod.mk.injEq]
      constructor
      · rintro ⟨_, hlink, rfl, rfl⟩
        exact ⟨hlink, rfl⟩
      · rintro ⟨hlink, rfl⟩
        exact ⟨node, hlink, rfl, rfl⟩
    have hintact : s'.Intact ↔ s'.Settled := by
      rw [hresult]
      exact intact_withoutAsset_iff hs hmem propagate
    have hsettled : s'.Settled ↔ asset.hierarchy ∈ s.marked := by
      rw [hresult, marking_withoutAsset, settled_withoutAsset, settled_minus_iff hs hold hw hne]
      exact or_iff_left (not_holdsSame_minus hs hasset hid hnodes)
    rw [hintact, hsettled]
    constructor
    · intro hmarked other hother hoid
      rw [hs.formed.asset_eq_of_id hother hasset (hoid.trans hid.symm)]
      exact Or.inr hmarked
    · intro hmarked
      exact (hmarked asset hasset hid).resolve_left hne

/-- A node whose children were looked for in another hierarchy may be deleted above them. -/
theorem removeNode_intact_iff (hs : s.Sound) {id : NodeId}
    (h : removeNode host id s = .ok ((), s')) :
    s'.Intact ↔ ∀ row ∈ s.nodes, row.id = id → ∀ child ∈ s.nodes,
      child.hierarchy = row.hierarchy → child.parentKey ≠ row.key := by
  obtain ⟨row, hid, hprunable, rfl, -⟩ := removeNode_eq_ok hs.formed h
  obtain ⟨-, hjoined, hsettled⟩ := hprunable.deleteNode hs
  have hparented := hprunable.parented_iff hs
  constructor
  · intro hintact other hother hoid
    rw [hs.formed.eq_of_id hother hprunable.known (hoid.trans hid.symm)]
    exact hparented.1 hintact.parented
  · intro hchildless
    exact ⟨hs.placed, hjoined, hparented.2 (hchildless row hprunable.known hid), hsettled⟩

/-! ## Moving -/

section Moved
variable {target : NodeRow} {assets fresh : List AssetId}

/-- An adjusted addition leaves amounts as exact as they were. -/
theorem counted_adding_iff : (s.adding rows true).Counted other ↔ s.Counted other := by
  refine ⟨fun hc row hrow hh => ?_, fun hc => counted_adding hc (Or.inl rfl)⟩
  have hamount := hc { row with amount := row.amount + s.gain rows row.hierarchy row.key }
    (List.mem_map.2 ⟨row, hrow, rfl⟩) hh
  have hcard : (((s.plus rows).holdings row.hierarchy row.key).card : Int) =
      (s.holdings row.hierarchy row.key).card + s.gain rows row.hierarchy row.key :=
    card_holdings_plus row.hierarchy row.key
  rw [adding, holdings_shifted] at hamount
  have hsum : row.amount + s.gain rows row.hierarchy row.key =
      (s.holdings row.hierarchy row.key).card + s.gain rows row.hierarchy row.key :=
    hamount.trans hcard
  omega

/-- At every node a move takes assets away or brings some, and never does both. -/
theorem Moved.holdings_subset (h : Moved propagate host target assets rows fresh s s')
    (hs : s.Formed) (hrows : ∀ link ∈ rows, link.1 ∈ assets) (hierarchy : HierarchyId)
    (top : String) :
    s.holdings hierarchy top ⊆ s'.holdings hierarchy top ∨
      s'.holdings hierarchy top ⊆ s.holdings hierarchy top := by
  have hsame : s'.holdings hierarchy top = reach s.nodes s'.attachments hierarchy top :=
    h.alike.reach_eq ..
  rw [hsame]
  by_cases habove : target.isWithin hierarchy top = true
  · refine Or.inl fun asset hasset => ?_
    obtain ⟨row, hrow, hwithin, hlink⟩ := mem_holdings.1 hasset
    by_cases hgone : (asset, row.id) ∈ rows
    · have hmoved : (asset, target.id) ∈ s'.attachments :=
        h.mem_attachments.2 (Or.inr ⟨hrows (asset, row.id) hgone, rfl⟩)
      exact mem_reach.2 ⟨target, h.known, habove, hmoved⟩
    · have hkept : (asset, row.id) ∈ s'.attachments :=
        h.mem_attachments.2 (Or.inl ⟨hlink, hgone⟩)
      exact mem_reach.2 ⟨row, hrow, hwithin, hkept⟩
  · refine Or.inr fun asset hasset => ?_
    obtain ⟨row, hrow, hwithin, hlink⟩ := mem_reach.1 hasset
    rcases h.mem_attachments.1 hlink with ⟨hold, -⟩ | ⟨-, hid⟩
    · exact mem_holdings.2 ⟨row, hrow, hwithin, hold⟩
    · rw [hs.eq_of_id hrow h.known hid] at hwithin
      exact absurd hwithin habove

theorem Moved.joined_iff (h : Moved propagate host target assets rows fresh s s') (hs : s.Sound) :
    s'.Joined ↔
      ∀ id ∈ assets, ∃ asset ∈ s.assets, asset.id = id ∧ asset.hierarchy = target.hierarchy := by
  constructor
  · intro hjoined id hid
    obtain ⟨asset, hasset, row, hrow, haid, hrid, hh⟩ :=
      hjoined (id, target.id) (h.mem_attachments.2 (Or.inr ⟨hid, rfl⟩))
    obtain ⟨old, hold, hoid, hoh, -, -⟩ := h.alike.exists_row hrow
    rw [hs.formed.eq_of_id hold h.known (hoid.trans hrid)] at hoh
    exact ⟨asset, h.alike.assets ▸ hasset, haid, hh.trans hoh.symm⟩
  · intro hassets link hlink
    rcases h.mem_attachments.1 hlink with ⟨hold, -⟩ | ⟨hid, htarget⟩
    · exact h.alike.joins hs.joined link hold
    · obtain ⟨asset, hasset, haid, hh⟩ := hassets _ hid
      have hjoins : s.Joins [link] := by
        intro other hother
        rw [List.mem_singleton.1 hother]
        exact ⟨asset, hasset, target, h.known, haid, htarget.symm, hh⟩
      exact h.alike.joins hjoins link (List.mem_singleton_self _)

/-- Without adjustments a move leaves amounts exact where nodes hold what they held. -/
theorem Moved.counted_iff (h : Moved false host target assets rows fresh s s') (hs : s.Sound)
    (hrows : ∀ link ∈ rows, link.1 ∈ assets) (hc : s.Counted other) {u : Store}
    (hnodes : u.nodes = s.nodes) (hholdings : ∀ k top, u.holdings k top = s'.holdings k top) :
    u.Counted other ↔ HoldsSame other s s' := by
  rw [Counted, hnodes]
  simp only [hholdings]
  constructor
  · intro hcounted row hrow hh
    have hcard := (hc row hrow hh).symm.trans (hcounted row hrow hh)
    rw [hh, Int.natCast_inj] at hcard
    rcases h.holdings_subset hs.formed hrows other row.key with hsub | hsub
    · exact (Finset.eq_of_subset_of_card_le hsub hcard.ge).symm
    · exact Finset.eq_of_subset_of_card_le hsub hcard.le
  · intro hsame row hrow hh
    rw [hc row hrow hh, hh, hsame row hrow hh]

/-- Adjustments in the name of another hierarchy miss the rows that a move deletes. -/
theorem Moved.settled_iff (h : Moved propagate host target assets rows fresh s s') (hs : s.Sound)
    (hrows : ∀ link ∈ rows, link.1 ∈ assets) (hw : s.Within target.hierarchy rows)
    (hne : target.hierarchy ≠ host) :
    s'.Settled ↔ target.hierarchy ∈ s.marked ∨
      if propagate then HoldsSame target.hierarchy s (s.minus rows)
      else HoldsSame target.hierarchy s s' := by
  have hcounted := Store.settled_iff.1 hs.settled
  obtain ⟨t, ht, hresult⟩ := h.result
  obtain rfl := ht.foreign (hw.foreign hne.symm)
  -- no other hierarchy has a part in the rows that go or in those that come
  have hother : ∀ k, k ∉ s.marked → k ≠ target.hierarchy →
      ((s.minus rows).adding (fresh.map (·, target.id)) propagate).Counted k := by
    intro k hk hkt
    have hminus : (s.removing rows false).Counted k :=
      counted_removing (hcounted k hk) h.old (Or.inr (hw.foreign hkt))
    rw [removing_false] at hminus
    refine counted_adding hminus (Or.inr fun row hrow hrh asset hlink => ?_)
    obtain ⟨_, -, heq⟩ := List.mem_map.1 hlink
    rw [hs.formed.eq_of_id hrow h.known (Prod.mk.inj heq).2.symm] at hrh
    exact hkt hrh.symm
  have htarget : target.hierarchy ∉ s.marked →
      (((s.minus rows).adding (fresh.map (·, target.id)) propagate).Counted target.hierarchy ↔
        if propagate then HoldsSame target.hierarchy s (s.minus rows)
        else HoldsSame target.hierarchy s s') := by
    intro hk
    cases propagate with
    | true => exact counted_adding_iff.trans (counted_minus_iff (hcounted _ hk))
    | false =>
      refine h.counted_iff hs hrows (hcounted _ hk) ?_ fun _ _ => ?_
      · rw [adding_false]
        rfl
      · rw [hresult]
        rfl
  have hsettled : s'.Settled ↔ ∀ k, k ∉ s.marked → ¬(propagate = false ∧ k = host) →
      ((s.minus rows).adding (fresh.map (·, target.id)) propagate).Counted k := by
    rw [hresult]
    exact settled_marking_iff
  rw [hsettled]
  constructor
  · intro hall
    by_cases hk : target.hierarchy ∈ s.marked
    · exact Or.inl hk
    · exact Or.inr ((htarget hk).1 (hall _ hk fun hhost => hne hhost.2))
  · intro hheld k hk _
    by_cases hkt : k = target.hierarchy
    · subst hkt
      exact (htarget hk).2 (hheld.resolve_left hk)
    · exact hother k hk hkt

/-- A move keeps a store intact if the assets belong to the hierarchy of the target, and if that is
the hierarchy of the move, or is marked, or needs no adjustment. -/
theorem Moved.intact_iff (h : Moved propagate host target assets rows fresh s s') (hs : s.Sound)
    (hrows : ∀ link ∈ rows, link.1 ∈ assets) :
    s'.Intact ↔
      (∀ id ∈ assets, ∃ asset ∈ s.assets, asset.id = id ∧ asset.hierarchy = target.hierarchy) ∧
        (target.hierarchy = host ∨ target.hierarchy ∈ s.marked ∨
          if propagate then HoldsSame target.hierarchy s (s.minus rows)
          else HoldsSame target.hierarchy s s') := by
  rw [← h.joined_iff hs]
  by_cases hjoined : s'.Joined
  · have hassets := (h.joined_iff hs).1 hjoined
    have hw : s.Within target.hierarchy rows :=
      hs.within fun link hlink => ⟨h.old link hlink, hassets _ (hrows link hlink)⟩
    by_cases hhost : target.hierarchy = host
    · refine iff_of_true ?_ ⟨hjoined, Or.inl hhost⟩
      rw [hhost] at hw hassets
      exact (h.sound hs hw hhost hrows hassets).intact
    · have hsettled := h.settled_iff hs hrows hw hhost
      constructor
      · exact fun hintact => ⟨hjoined, Or.inr (hsettled.1 hintact.settled)⟩
      · rintro ⟨-, hheld⟩
        exact ⟨h.placed hrows hs.placed, hjoined, h.alike.parented hs.parented,
          hsettled.2 (hheld.resolve_left hhost)⟩
  · exact iff_of_false (fun hintact => hjoined hintact.joined) fun hall => hjoined hall.1

theorem move_intact_iff (hs : s.Sound) {id : NodeId} (hrows : ∀ link ∈ rows, link.1 ∈ assets)
    {added : Edited AssetId} (h : move host id assets rows propagate s = .ok (added, s')) :
    s'.Intact ↔ ∀ row ∈ s.nodes, row.id = id →
      (∀ id ∈ assets, ∃ asset ∈ s.assets, asset.id = id ∧ asset.hierarchy = row.hierarchy) ∧
        (row.hierarchy = host ∨ row.hierarchy ∈ s.marked ∨
          if propagate then HoldsSame row.hierarchy s (s.minus rows)
          else HoldsSame row.hierarchy s s') := by
  obtain ⟨target, rfl, hmoved⟩ := move_eq_ok hs.toSteady h
  rw [hmoved.intact_iff hs hrows]
  refine ⟨fun hsafe row hrow hid => ?_, fun hall => hall target hmoved.known rfl⟩
  rwa [hs.formed.eq_of_id hrow hmoved.known hid]

end Moved

end Inventory.Store
