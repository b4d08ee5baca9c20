import Inventory.Notice
import Mathlib.Data.List.Nodup

/-! # The rows that changes stand for

Grouping rows by asset loses none of them, invents none, and gives each asset one change. -/
namespace Inventory.Change
set_option autoImplicit false

theorem rows_perAsset (assets : List AssetId) (node : NodeId) :
    rows (perAsset assets node) = assets.map (·, node) := by
  rw [rows, perAsset, List.flatMap_map, List.map_eq_flatMap]
  rfl

theorem rows_perNode (asset : AssetId) (nodes : List NodeId) :
    rows (perNode asset nodes) = nodes.map (asset, ·) := by
  rw [perNode]
  cases nodes with
  | nil => rfl
  | cons first rest => simp [rows]

theorem rows_singleton (asset : AssetId) (nodes : List NodeId) :
    rows [⟨asset, nodes⟩] = nodes.map (asset, ·) := List.append_nil _

theorem perNode_eq_nil {asset : AssetId} {nodes : List NodeId} :
    perNode asset nodes = [] ↔ nodes = [] := by
  cases nodes <;> simp [perNode]

theorem rows_cons (change : Change) (changes : List Change) :
    rows (change :: changes) = change.nodes.map (change.asset, ·) ++ rows changes := rfl

/-! ## Grouping -/

theorem rows_addRow (row : AssetId × NodeId) (changes : List Change) :
    (rows (addRow row changes)).Perm (rows changes ++ [row]) := by
  induction changes with
  | nil => exact List.Perm.refl _
  | cons change rest ih =>
    rw [addRow]
    by_cases h : change.asset = row.1
    · rw [if_pos h, rows_cons, rows_cons, List.map_append, List.append_assoc, List.append_assoc]
      refine List.Perm.append_left _ ?_
      rw [List.map_singleton, h]
      exact List.perm_append_comm
    · rw [if_neg h, rows_cons, rows_cons, List.append_assoc]
      exact ih.append_left _

theorem assets_addRow (row : AssetId × NodeId) (changes : List Change) :
    (addRow row changes).map (·.asset) =
      if row.1 ∈ changes.map (·.asset) then changes.map (·.asset)
      else changes.map (·.asset) ++ [row.1] := by
  induction changes with
  | nil => rfl
  | cons change rest ih =>
    rw [addRow]
    by_cases h : change.asset = row.1
    · rw [if_pos h, if_pos (by simp [h])]
      rfl
    · rw [if_neg h, List.map_cons, ih, List.map_cons]
      by_cases hin : row.1 ∈ rest.map (·.asset)
      · rw [if_pos hin, if_pos (List.mem_cons_of_mem _ hin)]
      · rw [if_neg hin, if_neg (by simpa [Ne.symm h] using hin), List.cons_append]

theorem foldl_addRow (rest : List (AssetId × NodeId)) (changes : List Change)
    (hn : (changes.map (·.asset)).Nodup) :
    (rows (rest.foldl (fun changes row => addRow row changes) changes)).Perm (rows changes ++ rest) ∧
      ((rest.foldl (fun changes row => addRow row changes) changes).map (·.asset)).Nodup := by
  induction rest generalizing changes with
  | nil => exact ⟨by simp, hn⟩
  | cons row rest ih =>
    have hn' : ((addRow row changes).map (·.asset)).Nodup := by
      rw [assets_addRow]
      by_cases hin : row.1 ∈ changes.map (·.asset)
      · rwa [if_pos hin]
      · rw [if_neg hin]
        exact hn.append (List.nodup_singleton _) (by simpa using hin)
    obtain ⟨hperm, hnodup⟩ := ih (addRow row changes) hn'
    refine ⟨hperm.trans ?_, hnodup⟩
    rw [List.append_cons]
    exact (rows_addRow row changes).append_right rest

theorem rows_group (links : List (AssetId × NodeId)) : (rows (group links)).Perm links :=
  (foldl_addRow links [] List.nodup_nil).1

theorem nodup_assets_group (links : List (AssetId × NodeId)) :
    ((group links).map (·.asset)).Nodup := (foldl_addRow links [] List.nodup_nil).2

end Inventory.Change
