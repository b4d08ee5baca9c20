import Inventory.Proofs.Counts.Holdings

/-! # Sound stores

A store is well formed when ids are distinct, rows hold canonical keys, and the root number of a
key and its hierarchy determine each other. It is steady when in addition attachments stay within a
hierarchy, parents exist, and unmarked hierarchies have exact amounts, and sound when every asset is
attached as well. Stores that differ in attachments, marks and cached amounts only are alike, and
well-formedness does not tell them apart. -/
namespace Inventory
set_option autoImplicit false

/-- The row that a node is read from. -/
def Node.row (node : Node) : NodeRow :=
  ⟨node.id, node.hierarchy, node.key.text, node.key.parentText, node.value, node.fullValue,
    node.amount⟩

/-- The row without its cached amount. -/
def NodeRow.bare (row : NodeRow) : NodeRow := { row with amount := 0 }

namespace Store

structure Formed (s : Store) : Prop where
  hierarchyIds : (s.hierarchies.map (·.id)).Nodup
  nodeIds : (s.nodes.map (·.id)).Nodup
  assetIds : (s.assets.map (·.id)).Nodup
  canonical : ∀ row ∈ s.nodes, ∃ key : Key, row.key = key.text ∧ row.parentKey = key.parentText
  keys : (s.nodes.map (·.key)).Nodup
  /-- The nodes of a hierarchy are those with one root number. -/
  apart : ∀ row ∈ s.nodes, ∀ other ∈ s.nodes, ∀ key key' : Key, row.key = key.text →
    other.key = key'.text → (row.hierarchy = other.hierarchy ↔ key.root = key'.root)
  hosted : ∀ row ∈ s.nodes, ∃ h ∈ s.hierarchies, h.id = row.hierarchy
  rooted : ∀ h ∈ s.hierarchies, ∃ row ∈ s.nodes, row.hierarchy = h.id ∧ row.parentKey = ""
  owned : ∀ asset ∈ s.assets, ∃ h ∈ s.hierarchies, h.id = asset.hierarchy

/-- Every asset is attached to a node. -/
def Placed (s : Store) : Prop := ∀ asset ∈ s.assets, ∃ node, (asset.id, node) ∈ s.attachments

/-- Each of the attachments joins an asset and a node of one hierarchy. -/
def Joins (s : Store) (links : List Attachment) : Prop :=
  ∀ link ∈ links, ∃ asset ∈ s.assets, ∃ row ∈ s.nodes,
    asset.id = link.1 ∧ row.id = link.2 ∧ asset.hierarchy = row.hierarchy

/-- Every attachment joins an asset and a node of one hierarchy. -/
def Joined (s : Store) : Prop := s.Joins s.attachments

/-- Every node that is no root has its parent in its hierarchy. -/
def Parented (s : Store) : Prop :=
  ∀ row ∈ s.nodes, row.parentKey ≠ "" →
    ∃ parent ∈ s.nodes, parent.hierarchy = row.hierarchy ∧ parent.key = row.parentKey

/-- The cached amounts of every hierarchy without a mark are exact. -/
def Settled (s : Store) : Prop :=
  ∀ row ∈ s.nodes, row.hierarchy ∉ s.marked →
    row.amount = (s.holdings row.hierarchy row.key).card

/-- A well-formed store whose rows fit together. -/
structure Steady (s : Store) : Prop where
  formed : s.Formed
  /-- No attachment stands twice. -/
  single : s.attachments.Nodup
  joined : s.Joined
  parented : s.Parented
  settled : s.Settled

/-- A steady store in which no asset is without a node. -/
structure Sound (s : Store) : Prop extends Steady s where
  placed : s.Placed

/-- The stores differ in attachments, marks and cached amounts at most. -/
structure Alike (s t : Store) : Prop where
  hierarchies : t.hierarchies = s.hierarchies
  assets : t.assets = s.assets
  nodes : t.nodes.map NodeRow.bare = s.nodes.map NodeRow.bare

theorem sound_empty : Sound {} where
  formed := by constructor <;> simp
  single := List.nodup_nil
  joined _ h := absurd h List.not_mem_nil
  parented _ h := absurd h List.not_mem_nil
  settled _ h := absurd h List.not_mem_nil
  placed _ h := absurd h List.not_mem_nil

/-! ## Rows of a well-formed store -/

section Formed
variable {s : Store}

theorem Formed.keyed (h : s.Formed) : s.Keyed := fun row hrow =>
  (h.canonical row hrow).imp fun _ hkey => hkey.1

theorem Formed.indexed (h : s.Formed) : s.Indexed := ⟨h.nodeIds, h.keyed⟩

theorem Formed.eq_of_id (h : s.Formed) {row other : NodeRow} (hrow : row ∈ s.nodes)
    (hother : other ∈ s.nodes) (heq : row.id = other.id) : row = other :=
  List.inj_on_of_nodup_map h.nodeIds hrow hother heq

theorem Formed.eq_of_key (h : s.Formed) {row other : NodeRow} (hrow : row ∈ s.nodes)
    (hother : other ∈ s.nodes) (heq : row.key = other.key) : row = other :=
  List.inj_on_of_nodup_map h.keys hrow hother heq

theorem Formed.asset_eq_of_id (h : s.Formed) {asset other : Asset} (hasset : asset ∈ s.assets)
    (hother : other ∈ s.assets) (heq : asset.id = other.id) : asset = other :=
  List.inj_on_of_nodup_map h.assetIds hasset hother heq

theorem Formed.parentKey_eq (h : s.Formed) {row : NodeRow} (hrow : row ∈ s.nodes) {key : Key}
    (hkey : row.key = key.text) : row.parentKey = key.parentText := by
  obtain ⟨k, hk, hp⟩ := h.canonical row hrow
  rw [hp, Key.text_injective (hk.symm.trans hkey)]

theorem Formed.isRoot_iff (h : s.Formed) {row : NodeRow} (hrow : row ∈ s.nodes) {key : Key}
    (hkey : row.key = key.text) : row.parentKey = "" ↔ key.isRoot = true := by
  rw [h.parentKey_eq hrow hkey, Key.parentText_eq_empty, Key.parent?_eq_none, Key.isRoot,
    List.isEmpty_iff]

theorem Formed.root_unique (h : s.Formed) {row other : NodeRow} (hrow : row ∈ s.nodes)
    (hother : other ∈ s.nodes) (heq : row.hierarchy = other.hierarchy) (hroot : row.parentKey = "")
    (hroot' : other.parentKey = "") : row = other := by
  obtain ⟨key, hkey, -⟩ := h.canonical row hrow
  obtain ⟨key', hkey', -⟩ := h.canonical other hother
  have hnumber := (h.apart row hrow other hother key key' hkey hkey').1 heq
  have hpath := (h.isRoot_iff hrow hkey).1 hroot
  have hpath' := (h.isRoot_iff hother hkey').1 hroot'
  rw [Key.isRoot, List.isEmpty_iff] at hpath hpath'
  have hsame : key = key' := by
    obtain ⟨r, p⟩ := key
    obtain ⟨r', p'⟩ := key'
    simp only at hnumber hpath hpath'
    rw [hnumber, hpath, hpath']
  exact h.eq_of_key hrow hother (by rw [hkey, hkey', hsame])

theorem Formed.hierarchy_of_below (h : s.Formed) {row top : NodeRow} (hrow : row ∈ s.nodes)
    (htop : top ∈ s.nodes) (hbelow : Key.isTextBelow row.key top.key = true) :
    row.hierarchy = top.hierarchy := by
  obtain ⟨key, hkey, -⟩ := h.canonical row hrow
  obtain ⟨key', hkey', -⟩ := h.canonical top htop
  rw [hkey, hkey', Key.isTextBelow_text, Key.isDescendantOrSelf_iff] at hbelow
  refine (h.apart row hrow top htop key key' hkey hkey').2 ?_
  exact (List.cons_prefix_cons.1 hbelow).1.symm

end Formed

/-! ## Alike stores -/

section Alike
variable {s t u : Store}

theorem Alike.refl (s : Store) : Alike s s := ⟨rfl, rfl, rfl⟩

theorem Alike.symm (h : Alike s t) : Alike t s :=
  ⟨h.hierarchies.symm, h.assets.symm, h.nodes.symm⟩

theorem Alike.trans (h : Alike s t) (h' : Alike t u) : Alike s u :=
  ⟨h'.hierarchies.trans h.hierarchies, h'.assets.trans h.assets, h'.nodes.trans h.nodes⟩

theorem alike_shifted (s : Store) (delta : HierarchyId → String → Int) :
    Alike s (s.shifted delta) := by
  refine ⟨rfl, rfl, ?_⟩
  rw [shifted_nodes, List.map_map]
  rfl

theorem alike_setAmount (s : Store) (id : NodeId) (amount : Int) :
    Alike s (s.setAmount id amount) := by
  refine ⟨rfl, rfl, ?_⟩
  rw [setAmount, List.map_map]
  refine List.map_congr_left fun row _ => ?_
  rw [Function.comp_apply]
  by_cases h : (row.id == id) = true
  · rw [if_pos h]
    rfl
  · rw [if_neg h]

/-- Where rows are the same up to their amounts, each of them has its counterpart. -/
theorem exists_of_bare {rows rows' : List NodeRow}
    (h : rows'.map NodeRow.bare = rows.map NodeRow.bare) {row : NodeRow} (hrow : row ∈ rows') :
    ∃ old ∈ rows, old.id = row.id ∧ old.hierarchy = row.hierarchy ∧ old.key = row.key ∧
      old.parentKey = row.parentKey ∧ old.value = row.value ∧ old.fullValue = row.fullValue := by
  have hin : row.bare ∈ rows.map NodeRow.bare := h ▸ List.mem_map_of_mem hrow
  obtain ⟨old, hold, heq⟩ := List.mem_map.1 hin
  rw [NodeRow.bare, NodeRow.bare, NodeRow.mk.injEq] at heq
  obtain ⟨hid, hhost, hkey, hup, hvalue, hfull, -⟩ := heq
  exact ⟨old, hold, hid, hhost, hkey, hup, hvalue, hfull⟩

theorem Alike.exists_row (h : Alike s t) {row : NodeRow} (hrow : row ∈ t.nodes) :
    ∃ old ∈ s.nodes, old.id = row.id ∧ old.hierarchy = row.hierarchy ∧ old.key = row.key ∧
      old.parentKey = row.parentKey := by
  obtain ⟨old, hold, hid, hhost, hkey, hup, -⟩ := exists_of_bare h.nodes hrow
  exact ⟨old, hold, hid, hhost, hkey, hup⟩

theorem map_bare {α : Type} {field : NodeRow → α} (hfield : ∀ row, field row.bare = field row)
    (nodes : List NodeRow) : (nodes.map NodeRow.bare).map field = nodes.map field := by
  rw [List.map_map]
  exact List.map_congr_left fun row _ => hfield row

theorem Alike.map_eq (h : Alike s t) {α : Type} {field : NodeRow → α}
    (hfield : ∀ row, field row.bare = field row) : t.nodes.map field = s.nodes.map field := by
  rw [← map_bare hfield, h.nodes, map_bare hfield]

theorem Alike.formed (h : Alike s t) (hs : s.Formed) : t.Formed := by
  refine ⟨?_, ?_, ?_, ?_, ?_, ?_, ?_, ?_, ?_⟩
  · rw [h.hierarchies]
    exact hs.hierarchyIds
  · rw [h.map_eq fun _ => rfl]
    exact hs.nodeIds
  · rw [h.assets]
    exact hs.assetIds
  · intro row hrow
    obtain ⟨old, hold, -, -, hk, hp⟩ := h.exists_row hrow
    rw [← hk, ← hp]
    exact hs.canonical old hold
  · rw [h.map_eq fun _ => rfl]
    exact hs.keys
  · intro row hrow other hother key key' hkey hkey'
    obtain ⟨old, hold, -, hh, hk, -⟩ := h.exists_row hrow
    obtain ⟨old', hold', -, hh', hk', -⟩ := h.exists_row hother
    rw [← hh, ← hh']
    exact hs.apart old hold old' hold' key key' (hk.trans hkey) (hk'.trans hkey')
  · intro row hrow
    obtain ⟨old, hold, -, hh, -, -⟩ := h.exists_row hrow
    rw [h.hierarchies, ← hh]
    exact hs.hosted old hold
  · intro host hhost
    rw [h.hierarchies] at hhost
    obtain ⟨row, hrow, hh, hroot⟩ := hs.rooted host hhost
    obtain ⟨new, hnew, -, hh', -, hp⟩ := h.symm.exists_row hrow
    exact ⟨new, hnew, hh'.trans hh, hp.trans hroot⟩
  · rw [h.assets, h.hierarchies]
    exact hs.owned

theorem Alike.parented (h : Alike s t) (hs : s.Parented) : t.Parented := by
  intro row hrow hne
  obtain ⟨old, hold, -, hh, -, hp⟩ := h.exists_row hrow
  obtain ⟨parent, hparent, hh', hk⟩ := hs old hold (hp ▸ hne)
  obtain ⟨new, hnew, -, hh'', hk', -⟩ := h.symm.exists_row hparent
  exact ⟨new, hnew, hh''.trans (hh'.trans hh), hk'.trans (hk.trans hp)⟩

theorem Alike.reach_eq (h : Alike s t) (links : List Attachment) (hierarchy : HierarchyId)
    (top : String) : reach t.nodes links hierarchy top = reach s.nodes links hierarchy top := by
  ext asset
  simp only [mem_reach]
  constructor
  · rintro ⟨row, hrow, hwithin, hlink⟩
    obtain ⟨old, hold, hid, hh, hk, -⟩ := h.exists_row hrow
    refine ⟨old, hold, ?_, hid ▸ hlink⟩
    rwa [NodeRow.isWithin, hh, hk]
  · rintro ⟨row, hrow, hwithin, hlink⟩
    obtain ⟨new, hnew, hid, hh, hk, -⟩ := h.symm.exists_row hrow
    refine ⟨new, hnew, ?_, hid ▸ hlink⟩
    rwa [NodeRow.isWithin, hh, hk]

end Alike
end Store
end Inventory
