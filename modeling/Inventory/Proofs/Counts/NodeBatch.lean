import Inventory.Counts.NodeBatch
import Inventory.Proofs.Counts.Holdings

/-! # Amounts after a batch of assets at one node

The climb from a node adds at each key of its line the number of assets of the batch that are not
held there otherwise. It may end at the first key that holds them all, since so do all above. -/
namespace Inventory
set_option autoImplicit false

namespace Store

/-- How many assets the given attachments bring to a key that does not hold them otherwise. -/
def gain (s : Store) (links : List Attachment) (hierarchy : HierarchyId) (top : String) : Int :=
  (reach s.nodes links hierarchy top \ s.holdings hierarchy top).card

end Store

namespace Counts

/-- The assets of a batch that a key does not see are those it does not hold. -/
theorem toFinset_unseen {s : Store} (hs : s.Keyed) (hierarchy : HierarchyId) (key : Key)
    (assets : List AssetId) :
    (assets.filter (!s.seesAsset hierarchy key ·)).toFinset =
      assets.toFinset \ s.holdings hierarchy key.text := by
  ext asset
  simp only [List.mem_toFinset, List.mem_filter, Finset.mem_sdiff, Bool.not_eq_true',
    ← Store.seesAsset_iff hs, Bool.not_eq_true]

/-! ## The climb to the end of the line -/

/-- A climb that never ends early and asks every key of the line about the whole batch. -/
def climbFully (edit : Edit) (hierarchy : HierarchyId) (assets : List AssetId) :
    List Key → Store → Nat × Store
  | [], s => (0, s)
  | key :: above, s =>
    let unseen := assets.filter (!s.seesAsset hierarchy key ·)
    let (updated, s) := s.addAmount hierarchy [key] (edit.sign * unseen.length)
    let (more, s) := climbFully edit hierarchy assets above s
    (updated + more, s)

theorem climbFully_of_seen (edit : Edit) {hierarchy : HierarchyId} {line : List Key}
    {assets : List AssetId} {s : Store}
    (h : ∀ key ∈ line, assets.filter (!s.seesAsset hierarchy key ·) = []) :
    climbFully edit hierarchy assets line s = (0, s) := by
  induction line with
  | nil => rfl
  | cons key above ih =>
    have hsame : s.addAmount hierarchy [key]
        (edit.sign * (assets.filter (!s.seesAsset hierarchy key ·)).length) = (0, s) := by
      rw [h key List.mem_cons_self, Store.addAmount, if_pos (by simp)]
    rw [climbFully, hsame]
    dsimp only
    rw [ih fun k hk => h k (List.mem_cons_of_mem _ hk)]
    rfl

/-- What has dropped out of a climb is seen at every key that is left, so nothing is missed: neither
by asking about the rest only, nor by ending where no asset is left. -/
theorem climb_eq_climbFully (edit : Edit) {hierarchy : HierarchyId} {line : List Key}
    {assets batch : List AssetId} {s : Store} (hs : s.Keyed)
    (hline : line.Pairwise fun a b => a.isDescendantOrSelf b = true)
    (hleft : ∀ key ∈ line, assets.filter (!s.seesAsset hierarchy key ·) =
      batch.filter (!s.seesAsset hierarchy key ·)) :
    climb edit hierarchy line assets s = climbFully edit hierarchy batch line s := by
  induction line generalizing assets s with
  | nil => rfl
  | cons key above ih =>
    obtain ⟨hkey, habove⟩ := List.pairwise_cons.1 hline
    have hup : ∀ k ∈ above, ∀ asset, s.seesAsset hierarchy key asset = true →
        s.seesAsset hierarchy k asset = true := by
      intro k hk asset hasset
      rw [Store.seesAsset_iff hs] at hasset ⊢
      exact Store.holdings_mono hs (hkey k hk) hasset
    have hfirst := hleft key List.mem_cons_self
    by_cases hempty : assets.filter (!s.seesAsset hierarchy key ·) = []
    · rw [climb, if_pos (by rw [hempty]; rfl), climbFully_of_seen]
      intro k hk
      rw [hfirst] at hempty
      rw [List.filter_eq_nil_iff] at hempty ⊢
      intro asset hasset
      have hseen := hempty asset hasset
      simp only [Bool.not_eq_true', Bool.not_eq_false] at hseen ⊢
      rcases List.mem_cons.1 hk with rfl | hk
      · exact hseen
      · exact hup k hk asset hseen
    · rw [climb, if_neg (by simpa using hempty), climbFully, hfirst]
      dsimp only
      rw [ih (Store.keyed_addAmount hs _ _ _) habove]
      intro k hk
      simp only [Store.seesAsset_addAmount hs, List.filter_filter]
      refine List.filter_congr fun asset _ => ?_
      rw [Bool.and_eq_left_iff_imp]
      simp only [Bool.not_eq_true', ← Bool.not_eq_true]
      exact fun hk' hkey' => hk' (hup k hk asset hkey')

theorem climbFully_eq (edit : Edit) (hierarchy : HierarchyId) (line : List Key)
    {assets : List AssetId} {s : Store} (hs : s.Keyed) (hn : assets.Nodup) (hline : line.Nodup) :
    (climbFully edit hierarchy assets line s).2 = s.shifted fun h k =>
      if h = hierarchy ∧ ∃ key ∈ line, key.text = k
      then edit.sign * (assets.toFinset \ s.holdings hierarchy k).card else 0 := by
  induction line generalizing s with
  | nil =>
    rw [Store.shifted_eq_self (by simp)]
    rfl
  | cons key above ih =>
    obtain ⟨hkey, habove⟩ := List.nodup_cons.1 hline
    have hcard : ((assets.filter (!s.seesAsset hierarchy key ·)).length : Int) =
        (assets.toFinset \ s.holdings hierarchy key.text).card := by
      rw [← toFinset_unseen hs, List.toFinset_card_of_nodup (hn.filter _)]
    rw [climbFully]
    dsimp only
    rw [hcard, Store.addAmount_eq, ih (Store.keyed_shifted _ _ hs) habove, Store.shifted_shifted]
    refine Store.shifted_congr fun row _ => ?_
    rw [Store.holdings_shifted]
    by_cases hh : row.hierarchy = hierarchy
    · by_cases hk : key.text = row.key
      · -- the key itself stands nowhere above
        have hnot : ¬∃ k ∈ above, k.text = row.key := by
          rintro ⟨k, hk', he⟩
          exact hkey (Key.text_injective (hk.trans he.symm) ▸ hk')
        simp [hh, hk, hnot]
      · simp [hh, hk]
    · simp [hh]

theorem climb_eq (edit : Edit) (hierarchy : HierarchyId) (line : List Key) (assets : List AssetId)
    (s : Store) (hs : s.Keyed) (hn : assets.Nodup)
    (hline : line.Pairwise fun a b => a.isDescendantOrSelf b = true ∧ a ≠ b) :
    (climb edit hierarchy line assets s).2 = s.shifted fun h k =>
      if h = hierarchy ∧ ∃ key ∈ line, key.text = k
      then edit.sign * (assets.toFinset \ s.holdings hierarchy k).card else 0 := by
  rw [climb_eq_climbFully edit hs (hline.imp And.left) fun _ _ => rfl]
  exact climbFully_eq edit hierarchy line hs hn (hline.imp And.right)

/-- Attachments of several assets to one node reach exactly the keys of the node's line. -/
theorem reach_node {s : Store} (hid : (s.nodes.map (·.id)).Nodup) {row : NodeRow}
    (hrow : row ∈ s.nodes) (assets : List AssetId) (hierarchy : HierarchyId) (top : String) :
    Store.reach s.nodes (assets.map (·, row.id)) hierarchy top =
      if row.isWithin hierarchy top then assets.toFinset else ∅ := by
  ext asset
  have hlink : ∀ r ∈ s.nodes, ((asset, r.id) ∈ assets.map (·, row.id) ↔ r = row ∧ asset ∈ assets) := by
    intro r hr
    rw [List.mem_map]
    constructor
    · rintro ⟨a, ha, he⟩
      rw [Prod.mk.injEq] at he
      exact ⟨(List.inj_on_of_nodup_map hid hrow hr he.2).symm, he.1 ▸ ha⟩
    · rintro ⟨rfl, ha⟩
      exact ⟨asset, ha, rfl⟩
  rw [Store.mem_reach]
  constructor
  · rintro ⟨r, hr, hwithin, h⟩
    obtain ⟨rfl, ha⟩ := (hlink r hr).1 h
    rw [if_pos hwithin]
    exact List.mem_toFinset.2 ha
  · intro h
    by_cases hwithin : row.isWithin hierarchy top = true
    · rw [if_pos hwithin] at h
      exact ⟨row, hrow, hwithin, (hlink row hrow).2 ⟨rfl, List.mem_toFinset.1 h⟩⟩
    · rw [if_neg hwithin] at h
      exact absurd h (Finset.notMem_empty _)

/-- Each amount changes by the number of assets that the batch brings to its node or takes from it. -/
theorem adjustForNode_eq {s : Store} (hs : s.Indexed) (edit : Edit) {node : Node}
    (hnode : node.IsIn s) {assets : List AssetId} (hn : assets.Nodup) :
    (adjustForNode s edit node.hierarchy node.key assets).2 =
      s.shifted fun h k => edit.sign * s.gain (assets.map (·, node.id)) h k := by
  obtain ⟨row, hrow, hid, hhost, hkey⟩ := hnode
  rw [adjustForNode, climb_eq edit _ _ _ _ hs.keyed hn (Key.pairwise_lineage node.key true), ← hid,
    ← hhost]
  refine Store.shifted_congr fun r hr => ?_
  obtain ⟨k, hk⟩ := hs.keyed r hr
  have hcond : (r.hierarchy = row.hierarchy ∧
      ∃ key ∈ node.key.lineage true .upward, key.text = r.key) ↔
      row.isWithin r.hierarchy r.key = true := by
    rw [hk, Store.isWithin_iff hkey, eq_comm]
    refine and_congr_right fun _ => ?_
    simp only [Key.mem_lineage, Key.text_inj, exists_eq_right]
  rw [Store.gain, reach_node hs.nodeIds hrow]
  by_cases h : row.isWithin r.hierarchy r.key = true
  · rw [if_pos (hcond.2 h), if_pos h, (hcond.2 h).1]
  · rw [if_neg (fun h' => h (hcond.1 h')), if_neg h, Finset.empty_sdiff, Finset.card_empty]
    simp

end Counts
end Inventory
