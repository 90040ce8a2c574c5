import BetterHindsight.Foundations.Forests
import BetterHindsight.MentalModels.Inventory
import Mathlib.Data.Option.Basic

/-! # What a knowledge tree is

The loop of `decode_tree` over its stack against the tree it reads, defined by recursion.

* `NodeSpec`, `Spells`, `ForestSpec`: a node, a tree and a forest that a value spells.
* `decodeNodes_iff`: what is left on the stack is a forest, and the loop returns its pre-order.
* `decodeTree_iff_forest`: the inventory. -/

namespace BetterHindsight.MentalModels
set_option autoImplicit false

/-! ## The specification -/

section Spec

variable (lib : Stdlib) (expectedPage : Option (Text × Text))

/-- The fields of one node, under `parent`. -/
structure NodeSpec (parent : Option PageId) (fields : Payload) (entry : TreeNode)
    (children : List JsonValue) : Prop where
  id : (fields.get? "id").bind JsonValue.text? = some entry.pageId.1
  expected : ∀ page name, expectedPage = some (page, name) → entry.pageId.1 = page →
    (fields.get? "name").bind JsonValue.text? = some name
  parentField : match parent with
    | none => isNone (fields.get? "parent_id") = true
    | some parent => (fields.get? "parent_id").bind JsonValue.text? = some parent.1
  parentId : entry.parentId = parent
  kind : (fields.get? "kind").bind JsonValue.text? = some entry.kind.value
  childList : fields.get? "children" = some (.arr children)
  page : entry.kind = .page → children = [] ∧
    ∃ id, entry.mentalModelId = some id ∧ isBlank id.1 = false ∧ id.1.all isIdChar = true ∧
      (fields.get? "mental_model_id").bind JsonValue.text? = some id.1
  folder : entry.kind = .folder →
    entry.mentalModelId = none ∧ isNone (fields.get? "mental_model_id") = true
  stale : match entry.isStale with
    | none => isNone (fields.get? "is_stale") = true
    | some flag => fields.get? "is_stale" = some (.bool flag)
  name : ∃ name, (fields.get? "name").bind JsonValue.text? = some name ∧
    isBlank name = false ∧ name.length ≤ 100000 ∧ entry.name = shortRedacted lib name 120

mutual

/-- A value spells a tree whose root hangs under `parent`. -/
def Spells (parent : Option PageId) (raw : JsonValue) : RoseTree TreeNode → Prop
  | .node entry children => ∃ fields raws, mapping raw = some fields ∧
      NodeSpec lib expectedPage parent fields entry raws ∧
      SpellsAll (some entry.pageId) raws children

def SpellsAll (parent : Option PageId) : List JsonValue → List (RoseTree TreeNode) → Prop
  | [], [] => True
  | raw :: raws, tree :: trees => Spells parent raw tree ∧ SpellsAll parent raws trees
  | _, _ => False

end

/-- What a value must be for its inventory. -/
structure ForestSpec (value : JsonValue) (forest : List (RoseTree TreeNode)) : Prop where
  roots : ∃ fields raws, mapping value = some fields ∧
    fields.get? "roots" = some (.arr raws) ∧ SpellsAll lib expectedPage none raws forest
  size : (RoseTree.preorderAll forest).length ≤ TREE_MAX_NODES
  depth : RoseTree.heightAll forest ≤ TREE_MAX_DEPTH
  unique : ((RoseTree.preorderAll forest).map TreeNode.pageId).Nodup

end Spec

variable {lib : Stdlib} {expectedPage : Option (Text × Text)}

theorem spellsAll_iff {parent : Option PageId} {raws : List JsonValue}
    {trees : List (RoseTree TreeNode)} :
    SpellsAll lib expectedPage parent raws trees ↔
      List.Forall₂ (Spells lib expectedPage parent) raws trees := by
  induction raws generalizing trees with
  | nil => cases trees <;> simp [SpellsAll]
  | cons raw raws ih => cases trees <;> simp [SpellsAll, ih]

/-! ## One node -/

theorem items?_iff {value : Option JsonValue} {items : List JsonValue} :
    value.bind JsonValue.items? = some items ↔ value = some (.arr items) := by
  rw [Option.bind_eq_some_iff]
  constructor
  · rintro ⟨v, rfl, h⟩
    rw [JsonValue.items?_eq_some h]
  · rintro rfl
    exact ⟨_, rfl, JsonValue.items?_arr items⟩

theorem text_eq_some {value : Option JsonValue} {maximum : ℕ} {t : BoundedText maximum} :
    text value maximum = some t ↔
      value.bind JsonValue.text? = some t.1 ∧ isBlank t.1 = false := by
  obtain ⟨t, ht⟩ := t
  unfold text
  cases value.bind JsonValue.text? with
  | none => simp
  | some u =>
    dsimp only
    by_cases h : isBlank u = false ∧ u.length ≤ maximum
    · rw [dif_pos h, Option.some.injEq, Subtype.mk.injEq, Option.some.injEq]
      exact ⟨fun hu => ⟨hu, hu ▸ h.1⟩, fun hu => hu.1⟩
    · rw [dif_neg h, Option.some.injEq]
      constructor
      · intro hu
        cases hu
      · rintro ⟨hu, hblank⟩
        cases hu
        exact absurd ⟨hblank, ht⟩ h

theorem pageId_eq_some {value : Option JsonValue} {id : PageId} :
    pageId value = some id ↔ value.bind JsonValue.text? = some id.1 := by
  obtain ⟨id, hid⟩ := id
  unfold pageId
  cases value.bind JsonValue.text? with
  | none => simp
  | some t =>
    dsimp only
    by_cases h : isPageId t = true
    · rw [dif_pos h, Option.some.injEq, Subtype.mk.injEq, Option.some.injEq]
    · rw [dif_neg h, Option.some.injEq]
      constructor
      · intro ht
        cases ht
      · intro ht
        cases ht
        exact absurd hid h

theorem nodeKind_eq_some {value : Option JsonValue} {kind : NodeKind} :
    nodeKind value = some kind ↔ value.bind JsonValue.text? = some kind.value := by
  have hne : NodeKind.folder.value ≠ NodeKind.page.value := by decide
  unfold nodeKind
  cases value.bind JsonValue.text? with
  | none => simp
  | some t => cases kind <;> grind

theorem isNone_some {value : JsonValue} : isNone (some value) = true ↔ value = .null := by
  obtain ⟨value, h⟩ := value
  cases value <;> simp [isNone, JsonValue.null]

theorem staleFlag_eq_some {value : Option JsonValue} {stale : Option Bool} :
    staleFlag value = some stale ↔ match stale with
      | none => isNone value = true
      | some flag => value = some (.bool flag) := by
  rcases value with - | ⟨value, h⟩
  · cases stale <;> simp [staleFlag, isNone]
  · cases value <;> cases stale <;> simp [staleFlag, isNone, JsonValue.bool]

theorem hasParent_iff {value : Option JsonValue} {parent : Option PageId} :
    hasParent value parent = true ↔ match parent with
      | none => isNone value = true
      | some parent => value.bind JsonValue.text? = some parent.1 := by
  cases parent <;> simp [hasParent]

theorem backing_eq_some {kind : NodeKind} {value : Option JsonValue} {children : List JsonValue}
    {found : Option (BoundedText 128)} :
    backing kind value children = some found ↔
      (kind = .page → children = [] ∧
        ∃ id, found = some id ∧ isBlank id.1 = false ∧ id.1.all isIdChar = true ∧
          value.bind JsonValue.text? = some id.1) ∧
      (kind = .folder → found = none ∧ isNone value = true) := by
  cases kind with
  | page =>
    rw [backing, Option.bind_eq_some_iff]
    constructor
    · rintro ⟨id, hid, hchildren⟩
      obtain ⟨hempty, hfound⟩ := Option.ite_none_right_eq_some.mp hchildren
      cases hfound
      obtain ⟨hid, hall⟩ := Option.filter_eq_some_iff.mp hid
      obtain ⟨hid, hblank⟩ := text_eq_some.mp hid
      refine ⟨fun _ => ⟨hempty, id, rfl, hblank, hall, hid⟩, fun h => by cases h⟩
    · rintro ⟨hpage, -⟩
      obtain ⟨hchildren, id, rfl, hblank, hall, hid⟩ := hpage rfl
      refine ⟨id, Option.filter_eq_some_iff.mpr ⟨text_eq_some.mpr ⟨hid, hblank⟩, hall⟩, ?_⟩
      rw [if_pos hchildren]
  | folder =>
    simp only [backing, Option.ite_none_right_eq_some, Option.some.injEq, reduceCtorEq,
      false_implies, true_implies, true_and]
    exact ⟨fun ⟨h, hfound⟩ => ⟨hfound.symm, h⟩, fun ⟨hfound, h⟩ => ⟨h, hfound.symm⟩⟩

theorem expected_iff {name : Option JsonValue} {key : PageId} :
    (expectedPage.all fun expected => key.1 ≠ expected.1 ∨
        name.bind JsonValue.text? = some expected.2) = true ↔
      ∀ page expected, expectedPage = some (page, expected) → key.1 = page →
        name.bind JsonValue.text? = some expected := by
  rcases expectedPage with - | ⟨page, expected⟩
  · simp
  · rw [Option.all_some, decide_eq_true_iff]
    constructor
    · rintro h page' expected' heq hkey
      cases heq
      exact h.resolve_left (not_not_intro hkey)
    · intro h
      by_cases hkey : key.1 = page
      · exact .inr (h page expected rfl hkey)
      · exact .inl hkey

/-- `decode_tree` on one node: its fields, and that its id is new. -/
theorem decodeNode_eq_some {seen : List PageId} {raw : JsonValue} {parent : Option PageId}
    {entry : TreeNode} {children : List JsonValue} :
    decodeNode lib expectedPage seen raw parent = some (entry, children) ↔
      ∃ fields, mapping raw = some fields ∧
        NodeSpec lib expectedPage parent fields entry children ∧ entry.pageId ∉ seen := by
  constructor
  · intro h
    simp only [decodeNode, Option.bind_eq_bind] at h
    obtain ⟨fields, hraw, h⟩ := Option.bind_eq_some_iff.mp h
    obtain ⟨key, hkey, h⟩ := Option.bind_eq_some_iff.mp h
    obtain ⟨⟨⟩, hexpected, h⟩ := Option.bind_eq_some_iff.mp h
    obtain ⟨⟨⟩, hnew, h⟩ := Option.bind_eq_some_iff.mp h
    obtain ⟨kind, hkind, h⟩ := Option.bind_eq_some_iff.mp h
    obtain ⟨children', hchildren, h⟩ := Option.bind_eq_some_iff.mp h
    obtain ⟨found, hbacking, h⟩ := Option.bind_eq_some_iff.mp h
    obtain ⟨stale, hstale, h⟩ := Option.bind_eq_some_iff.mp h
    obtain ⟨name, hname, h⟩ := Option.bind_eq_some_iff.mp h
    cases h
    obtain ⟨hnew, hparent⟩ := (Option.guard_eq_some' _).mp hnew
    obtain ⟨hpage, hfolder⟩ := backing_eq_some.mp hbacking
    obtain ⟨hname, hblank⟩ := text_eq_some.mp hname
    exact ⟨fields, hraw,
      { id := pageId_eq_some.mp hkey
        expected := expected_iff.mp ((Option.guard_eq_some' _).mp hexpected)
        parentField := hasParent_iff.mp hparent
        parentId := rfl
        kind := nodeKind_eq_some.mp hkind
        childList := items?_iff.mp hchildren
        page := hpage
        folder := hfolder
        stale := staleFlag_eq_some.mp hstale
        name := ⟨name.1, hname, hblank, name.2, rfl⟩ }, hnew⟩
  · rintro ⟨fields, hraw, hspec, hnew⟩
    obtain ⟨key, kind, name', parent', found, stale⟩ := entry
    obtain ⟨hid, hexpected, hparent, rfl, hkind, hchildren, hpage, hfolder, hstale,
      name, hname, hblank, hlen, rfl⟩ := hspec
    have hname' : text (fields.get? "name".toList) 100000 = some ⟨name, hlen⟩ :=
      text_eq_some.mpr ⟨hname, hblank⟩
    have hnew' : (guard (key ∉ seen ∧ hasParent (fields.get? "parent_id".toList) parent' = true) :
        Option Unit) = some () :=
      (Option.guard_eq_some' _).mpr ⟨hnew, hasParent_iff.mpr hparent⟩
    simp only [decodeNode, Option.bind_eq_bind, hraw, Option.bind_some, pageId_eq_some.mpr hid,
      expected_iff.mpr hexpected, guard_true, hnew', nodeKind_eq_some.mpr hkind,
      items?_iff.mpr hchildren, backing_eq_some.mpr ⟨hpage, hfolder⟩,
      staleFlag_eq_some.mpr hstale, hname']
    rfl

/-! ## The loop -/

/-- What a value on the stack spells. -/
def Stands (lib : Stdlib) (expectedPage : Option (Text × Text)) (pending : Pending)
    (tree : RoseTree TreeNode) : Prop :=
  Spells lib expectedPage pending.2.1 pending.1 tree ∧
    pending.2.2 + tree.height ≤ TREE_MAX_DEPTH + 1

/-- The children of a node on the stack. -/
theorem stands_children {raws : List JsonValue} {parent : Option PageId} {depth : ℕ}
    {trees : List (RoseTree TreeNode)} :
    List.Forall₂ (Stands lib expectedPage) (raws.map fun raw => (raw, parent, depth)) trees ↔
      SpellsAll lib expectedPage parent raws trees ∧
        ∀ tree ∈ trees, depth + tree.height ≤ TREE_MAX_DEPTH + 1 := by
  induction raws generalizing trees with
  | nil => cases trees <;> simp [SpellsAll]
  | cons raw raws ih =>
    cases trees with
    | nil => simp [SpellsAll]
    | cons tree trees =>
      rw [List.map_cons, List.forall₂_cons, ih, SpellsAll, List.forall_mem_cons, Stands]
      tauto

/-- A node on top of the stack stands for a tree where its children do in its place. -/
theorem stands_cons {raw : JsonValue} {parent : Option PageId} {depth : ℕ} {stack : List Pending}
    {trees : List (RoseTree TreeNode)} :
    List.Forall₂ (Stands lib expectedPage) ((raw, parent, depth) :: stack) trees ↔
      depth ≤ TREE_MAX_DEPTH ∧ ∃ fields entry raws kids rest, mapping raw = some fields ∧
        NodeSpec lib expectedPage parent fields entry raws ∧
        List.Forall₂ (Stands lib expectedPage)
          (raws.map fun child => (child, some entry.pageId, depth + 1)) kids ∧
        List.Forall₂ (Stands lib expectedPage) stack rest ∧ trees = .node entry kids :: rest := by
  constructor
  · intro h
    obtain ⟨tree, rest, ⟨hspells, hdepth⟩, hrest, rfl⟩ := List.forall₂_cons_left_iff.mp h
    obtain ⟨entry, kids⟩ := tree
    obtain ⟨fields, raws, hraw, hspec, hkids⟩ := hspells
    dsimp only at hdepth
    rw [RoseTree.height] at hdepth
    refine ⟨by omega, fields, entry, raws, kids, rest, hraw, hspec, ?_, hrest, rfl⟩
    refine stands_children.mpr ⟨hkids, fun kid hkid => ?_⟩
    have hkid := RoseTree.heightAll_le.mp le_rfl kid hkid
    omega
  · rintro ⟨hdepth, fields, entry, raws, kids, rest, hraw, hspec, hkids, hrest, rfl⟩
    obtain ⟨hkids, hheights⟩ := stands_children.mp hkids
    refine .cons ⟨⟨fields, raws, hraw, hspec, hkids⟩, ?_⟩ hrest
    have hheight : RoseTree.heightAll kids ≤ TREE_MAX_DEPTH - depth :=
      RoseTree.heightAll_le.mpr fun kid hkid => by
        have := hheights kid hkid
        omega
    rw [RoseTree.height]
    dsimp only
    omega

theorem forall₂_append_left {α β : Type} {R : α → β → Prop} {as as' : List α} {bs : List β} :
    List.Forall₂ R (as ++ as') bs ↔
      ∃ cs ds, List.Forall₂ R as cs ∧ List.Forall₂ R as' ds ∧ bs = cs ++ ds := by
  constructor
  · intro h
    have htake := List.forall₂_take as.length h
    have hdrop := List.forall₂_drop as.length h
    rw [List.take_left] at htake
    rw [List.drop_left] at hdrop
    exact ⟨_, _, htake, hdrop, (List.take_append_drop _ _).symm⟩
  · rintro ⟨cs, ds, hcs, hds, rfl⟩
    exact List.rel_append hcs hds

theorem decodeNodes_nil (left : ℕ) (result : List TreeNode) :
    decodeNodes lib expectedPage left [] result = some result := by
  cases left <;> rfl

theorem nodup_snoc {result : List TreeNode} {entry : TreeNode} :
    ((result ++ [entry]).map TreeNode.pageId).Nodup ↔
      entry.pageId ∉ result.map TreeNode.pageId ∧ (result.map TreeNode.pageId).Nodup := by
  rw [List.map_append, List.map_singleton, List.nodup_append_comm, List.singleton_append,
    List.nodup_cons]

theorem decodeNodes_iff {left : ℕ} {stack : List Pending} {result nodes : List TreeNode}
    (hleft : left + result.length = TREE_MAX_NODES)
    (hnodup : (result.map TreeNode.pageId).Nodup) :
    decodeNodes lib expectedPage left stack result = some nodes ↔
      ∃ trees, List.Forall₂ (Stands lib expectedPage) stack trees ∧
        (RoseTree.preorderAll trees).length ≤ left ∧
        ((result ++ RoseTree.preorderAll trees).map TreeNode.pageId).Nodup ∧
        nodes = result ++ RoseTree.preorderAll trees := by
  induction left generalizing stack result with
  | zero =>
    cases stack with
    | nil =>
      rw [decodeNodes_nil]
      simp [RoseTree.preorderAll, hnodup, eq_comm]
    | cons pending stack =>
      rw [decodeNodes]
      simp only [reduceCtorEq, false_iff]
      rintro ⟨trees, hstands, hlen, -⟩
      have htrees := RoseTree.length_le_preorderAll trees
      have hlength := hstands.length_eq
      rw [List.length_cons] at hlength
      omega
  | succ left ih =>
    rcases stack with _ | ⟨⟨raw, parent, depth⟩, stack⟩
    · rw [decodeNodes_nil]
      simp [RoseTree.preorderAll, hnodup, eq_comm]
    · have hleft' (entry : TreeNode) : left + (result ++ [entry]).length = TREE_MAX_NODES := by
        rw [List.length_append, List.length_singleton]
        omega
      rw [decodeNodes]
      constructor
      · intro h
        split at h
        · cases h
        next hdepth =>
        obtain ⟨⟨entry, raws⟩, hentry, h⟩ := Option.bind_eq_some_iff.mp h
        obtain ⟨fields, hraw, hspec, hnew⟩ := decodeNode_eq_some.mp hentry
        dsimp only at h
        split at h
        · cases h
        obtain ⟨trees, hstands, hlen, hids, hnodes⟩ :=
          (ih (hleft' entry) (nodup_snoc.mpr ⟨hnew, hnodup⟩)).mp h
        obtain ⟨kids, rest, hkids, hrest, rfl⟩ := forall₂_append_left.mp hstands
        refine ⟨.node entry kids :: rest, stands_cons.mpr ⟨by omega, fields, entry, raws, kids,
          rest, hraw, hspec, hkids, hrest, rfl⟩, ?_⟩
        rw [RoseTree.preorderAll_node_cons, List.length_cons, List.append_cons]
        exact ⟨by omega, hids, hnodes⟩
      · rintro ⟨trees, hstands, hlen, hids, hnodes⟩
        obtain ⟨hdepth, fields, entry, raws, kids, rest, hraw, hspec, hkids, hrest, rfl⟩ :=
          stands_cons.mp hstands
        rw [RoseTree.preorderAll_node_cons] at hlen hids hnodes
        rw [List.append_cons] at hids hnodes
        rw [List.length_cons] at hlen
        have hbefore : ((result ++ [entry]).map TreeNode.pageId).Nodup := by
          rw [List.map_append] at hids
          exact hids.of_append_left
        have hentry := decodeNode_eq_some.mpr ⟨fields, hraw, hspec, (nodup_snoc.mp hbefore).1⟩
        rw [if_neg (by omega), hentry, Option.bind_some]
        dsimp only
        -- every tree that waits has a node of its own
        have hwaiting := RoseTree.length_le_preorderAll (kids ++ rest)
        have hraws := hkids.length_eq
        have hstack := hrest.length_eq
        rw [List.length_map] at hraws
        rw [List.length_append] at hwaiting
        rw [if_neg (by rw [List.length_append, List.length_singleton]; omega)]
        exact (ih (hleft' entry) hbefore).mpr
          ⟨kids ++ rest, forall₂_append_left.mpr ⟨kids, rest, hkids, hrest, rfl⟩, by omega, hids,
            hnodes⟩

theorem decodeNodes_start {stack : List Pending} {nodes : List TreeNode} :
    decodeNodes lib expectedPage TREE_MAX_NODES stack [] = some nodes ↔
      ∃ trees, List.Forall₂ (Stands lib expectedPage) stack trees ∧
        (RoseTree.preorderAll trees).length ≤ TREE_MAX_NODES ∧
        ((RoseTree.preorderAll trees).map TreeNode.pageId).Nodup ∧
        nodes = RoseTree.preorderAll trees :=
  decodeNodes_iff rfl (show (([] : List TreeNode).map TreeNode.pageId).Nodup from List.nodup_nil)

/-! ## The order of the nodes -/

/-- Every node hangs under `base` or under a node before it. -/
def ParentsFirst (base : Option PageId) (nodes : List TreeNode) : Prop :=
  ∀ before node after, nodes = before ++ node :: after →
    node.parentId = base ∨ ∃ p ∈ before, node.parentId = some p.pageId

namespace ParentsFirst

variable {base : Option PageId} {nodes nodes' : List TreeNode}

theorem nil : ParentsFirst base [] := by
  intro before node after h
  cases before <;> cases h

theorem cons {entry : TreeNode} (hentry : entry.parentId = base)
    (h : ParentsFirst (some entry.pageId) nodes) : ParentsFirst base (entry :: nodes) := by
  intro before node after heq
  cases before with
  | nil =>
    cases heq
    exact .inl hentry
  | cons e before =>
    obtain ⟨hhead, htail⟩ := List.cons.inj heq
    obtain hparent | ⟨p, hp, hparent⟩ := h before node after htail
    · exact .inr ⟨e, List.mem_cons_self, hhead ▸ hparent⟩
    · exact .inr ⟨p, List.mem_cons_of_mem _ hp, hparent⟩

theorem append (h : ParentsFirst base nodes) (h' : ParentsFirst base nodes') :
    ParentsFirst base (nodes ++ nodes') := by
  intro before node after heq
  obtain ⟨mid, rfl, htail⟩ | ⟨mid, hnodes, htail⟩ := List.append_eq_append_iff.mp heq
  · obtain hparent | ⟨p, hp, hparent⟩ := h' mid node after htail
    · exact .inl hparent
    · exact .inr ⟨p, List.mem_append_right _ hp, hparent⟩
  · cases mid with
    | nil =>
      obtain hparent | ⟨p, hp, -⟩ := h' [] node after htail.symm
      · exact .inl hparent
      · cases hp
    | cons m mid =>
      obtain ⟨rfl, -⟩ := List.cons.inj htail
      exact h before node mid hnodes

end ParentsFirst

theorem parentsFirst_all {forest : List (RoseTree TreeNode)} {parent : Option PageId}
    {raws : List JsonValue} (h : SpellsAll lib expectedPage parent raws forest)
    (htrees : ∀ tree ∈ forest, ∀ raw, Spells lib expectedPage parent raw tree →
      ParentsFirst parent tree.preorder) :
    ParentsFirst parent (RoseTree.preorderAll forest) := by
  replace h := spellsAll_iff.mp h
  induction h with
  | nil => exact .nil
  | cons htree _ ih =>
    rw [List.forall_mem_cons] at htrees
    exact .append (htrees.1 _ htree) (ih htrees.2)

theorem Spells.parentsFirst {tree : RoseTree TreeNode} {parent : Option PageId} {raw : JsonValue}
    (h : Spells lib expectedPage parent raw tree) : ParentsFirst parent tree.preorder := by
  induction tree using RoseTree.induction generalizing parent raw with
  | node entry children ih =>
    obtain ⟨fields, raws, -, hspec, hchildren⟩ := h
    exact .cons hspec.parentId (parentsFirst_all hchildren fun tree htree _ => ih tree htree)

/-! ## The inventory -/

theorem decodeTree_eq_some {value : JsonValue} {nodes : List TreeNode} :
    decodeTree lib value expectedPage = some nodes ↔
      ∃ forest, ForestSpec lib expectedPage value forest ∧ nodes = RoseTree.preorderAll forest := by
  constructor
  · intro h
    simp only [decodeTree, Option.bind_eq_bind] at h
    obtain ⟨fields, hvalue, h⟩ := Option.bind_eq_some_iff.mp h
    obtain ⟨raws, hraws, h⟩ := Option.bind_eq_some_iff.mp h
    obtain ⟨⟨⟩, -, h⟩ := Option.bind_eq_some_iff.mp h
    obtain ⟨forest, hstands, hlen, hids, hnodes⟩ := decodeNodes_start.mp h
    obtain ⟨hspells, hdepth⟩ := stands_children.mp hstands
    exact ⟨forest, ⟨⟨fields, raws, hvalue, items?_iff.mp hraws, hspells⟩, hlen,
      RoseTree.heightAll_le.mpr fun t ht => by
        have := hdepth t ht
        omega, hids⟩, hnodes⟩
  · rintro ⟨forest, ⟨⟨fields, raws, hvalue, hraws, hspells⟩, hlen, hdepth, hids⟩, rfl⟩
    have hroots : raws.length ≤ TREE_MAX_NODES := by
      rw [(spellsAll_iff.mp hspells).length_eq]
      exact (RoseTree.length_le_preorderAll forest).trans hlen
    simp only [decodeTree, Option.bind_eq_bind, hvalue, Option.bind_some, items?_iff.mpr hraws,
      hroots, guard_true]
    exact decodeNodes_start.mpr ⟨forest, stands_children.mpr ⟨hspells, fun t ht => by
      have := RoseTree.heightAll_le.mp hdepth t ht
      omega⟩, hlen, hids, rfl⟩

/-- `decode_tree` reads exactly the forests of the specification and lists their nodes. -/
theorem decodeTree_iff_forest (lib : Stdlib) (expectedPage : Option (Text × Text))
    (value : JsonValue) :
    ((decodeTree lib value expectedPage).isSome ↔
      ∃ forest, ForestSpec lib expectedPage value forest) ∧
    ∀ nodes, decodeTree lib value expectedPage = some nodes →
      (∃ forest, ForestSpec lib expectedPage value forest ∧
        nodes = RoseTree.preorderAll forest) ∧
      (nodes.map TreeNode.pageId).Nodup ∧
      ∀ before node after, nodes = before ++ node :: after →
        ∀ parent, node.parentId = some parent → ∃ p ∈ before, p.pageId = parent := by
  refine ⟨?_, fun nodes h => ?_⟩
  · rw [Option.isSome_iff_exists]
    simp only [decodeTree_eq_some]
    exact ⟨fun ⟨_, forest, hforest, _⟩ => ⟨forest, hforest⟩,
      fun ⟨forest, hforest⟩ => ⟨_, forest, hforest, rfl⟩⟩
  · obtain ⟨forest, hforest, rfl⟩ := decodeTree_eq_some.mp h
    refine ⟨⟨forest, hforest, rfl⟩, hforest.unique, ?_⟩
    intro before node after heq parent hparent
    obtain ⟨fields, raws, -, -, hspells⟩ := hforest.roots
    have hfirst := parentsFirst_all hspells fun tree _ _ htree => htree.parentsFirst
    obtain hbase | ⟨p, hp, hp'⟩ := hfirst before node after heq
    · rw [hbase] at hparent
      cases hparent
    · rw [hparent] at hp'
      exact ⟨p, hp, (Option.some.inj hp').symm⟩

end BetterHindsight.MentalModels
