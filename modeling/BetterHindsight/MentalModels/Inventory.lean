import BetterHindsight.MentalModels.Render
import BetterHindsight.Redaction

/-! # Mental models and knowledge pages

The inventories that `mental_models.py` and `knowledge_pages.py` show, decoded from the server's
answers. An exception is `none`: the callers answer every one with the same text.

* `project`, `decodePage`: one mental model and one page of the list.
* `decodeTree`: the nodes of the knowledge tree.
* `listModels`, `browse`: the responses of the `list` and `page_browse` actions. -/

namespace BetterHindsight.MentalModels
set_option autoImplicit false

/-! ## Checked values -/

/-- A text of at most `maximum` characters. -/
abbrev BoundedText (maximum : ℕ) := {t : Text // t.length ≤ maximum}

/-- `mapping` -/
def mapping : JsonValue → Option Payload
  | ⟨.obj fields, h⟩ => some
    { entries := fields.attach.map fun f =>
        (f.1.1, ⟨f.1.2, match h with | .obj _ h => h f.1 f.2⟩)
      nodup := by
        cases h with
        | obj hnodup _ =>
          rw [List.map_map]
          exact (List.attach_map_val (f := Prod.fst)).symm ▸ hnodup }
  | _ => none

/-- `text` -/
def text (value : Option JsonValue) (maximum : ℕ) : Option (BoundedText maximum) :=
  match value.bind JsonValue.text? with
  | some t =>
    if h : isBlank t = false ∧ t.length ≤ maximum then some ⟨t, h.2⟩ else none
  | none => none

def isIdChar (c : Char) : Bool := c.isAlphanum || c == '_' || c == '-'

/-- `identifier` -/
def identifier (value : Option JsonValue) : Option (BoundedText 128) :=
  (text value 128).filter fun t => t.1.all isIdChar

/-- `re.fullmatch(r"k[pf]-[0-9a-f]{32}", text)` -/
def isPageId (t : Text) : Bool :=
  (t.take 3 == "kp-".toList || t.take 3 == "kf-".toList) && isHex 32 (t.drop 3)

abbrev PageId := {t : Text // isPageId t = true}

/-- `page_id` -/
def pageId (value : Option JsonValue) : Option PageId :=
  match value.bind JsonValue.text? with
  | some t => if h : isPageId t = true then some ⟨t, h⟩ else none
  | none => none

/-- A key that is absent or null. -/
def isNone : Option JsonValue → Bool
  | none => true
  | some v => match v.1 with
    | .null => true
    | _ => false

/-- A stale flag: nothing or a `bool`. -/
def staleFlag (value : Option JsonValue) : Option (Option Bool) :=
  match value with
  | none => some none
  | some ⟨.null, _⟩ => some none
  | some ⟨.bool b, _⟩ => some (some b)
  | some _ => none

/-- `value == n`; floats are not compared. -/
def equalsInt (value : Option JsonValue) (n : ℤ) : Bool :=
  match value with
  | some ⟨.int m, _⟩ => m == n
  | some ⟨.bool b, _⟩ => (if b then 1 else 0) == n
  | _ => false

/-- A value of type `int` that is not negative. -/
def natural (value : Option JsonValue) : Option ℕ :=
  match value with
  | some ⟨.int n, _⟩ => if 0 ≤ n then some n.toNat else none
  | _ => none

/-- The first `maximum` characters of a redacted text. -/
def shortRedacted (lib : Stdlib) (t : Text) (maximum : ℕ) : BoundedText maximum :=
  ⟨(redactSensitiveText lib t).take maximum, List.length_take_le _ _⟩

def optional {α : Type} (encode : α → JsonValue) : Option α → JsonValue
  | some a => encode a
  | none => .null

/-- A `dict` as a value. -/
def object (payload : Payload) : JsonValue := ⟨payloadJson payload, payloadJson_distinct payload⟩

theorem mapping_object (payload : Payload) : mapping (object payload) = some payload := by
  have hinjective : Function.Injective fun e : Text × JsonValue => (e.1, e.2.val) := by
    rintro ⟨k, v⟩ ⟨k', v'⟩ h
    obtain ⟨hk, hv⟩ := Prod.mk.inj h
    exact Prod.ext hk (Subtype.ext hv)
  have hentries : ∀ found, mapping (object payload) = some found → found = payload := by
    intro found hfound
    cases hfound
    have hmap : ∀ d d' : Payload, d.entries = d'.entries → d = d' := by
      rintro ⟨_, _⟩ ⟨_, _⟩ rfl
      rfl
    apply hmap
    apply List.map_injective_iff.mpr hinjective
    rw [List.map_map]
    exact List.attach_map_subtype_val _
  obtain ⟨found, hfound⟩ : ∃ found, mapping (object payload) = some found := ⟨_, rfl⟩
  rw [hfound, hentries found hfound]

/-! ## Mental models -/

/-- What `project` keeps of a model. -/
structure ModelItem where
  id : BoundedText 128
  name : BoundedText 120
  nameTruncated : Bool
  lastRefreshedAt : Option (BoundedText 64)
  lastMemorySeenAt : Option (BoundedText 64)
  isStale : Option Bool
  /-- Only where the content is asked for. -/
  content : Option Text

def ModelItem.payload (item : ModelItem) : Payload where
  entries := [("id".toList, .str item.id), ("name".toList, .str item.name),
    ("name_truncated".toList, .bool item.nameTruncated),
    ("last_refreshed_at".toList, optional (fun t => .str t.1) item.lastRefreshedAt),
    ("last_memory_seen_at".toList, optional (fun t => .str t.1) item.lastMemorySeenAt),
    ("is_stale".toList, optional .bool item.isStale)] ++
    match item.content with
    | some content => [("content".toList, .str content), ("verification".toList,
        .str "Inspect generated content; existence is not successful generation.")]
    | none => []
  nodup := by
    cases item.content with
    | some content => exact (by decide : ["id".toList, "name".toList, "name_truncated".toList,
        "last_refreshed_at".toList, "last_memory_seen_at".toList, "is_stale".toList,
        "content".toList, "verification".toList].Nodup)
    | none => exact (by decide : ["id".toList, "name".toList, "name_truncated".toList,
        "last_refreshed_at".toList, "last_memory_seen_at".toList, "is_stale".toList].Nodup)

/-- A timestamp with a time zone, or nothing. -/
def freshness (lib : Stdlib) (value : Option JsonValue) : Option (Option (BoundedText 64)) :=
  if isNone value then some none
  else
    (text value 64).bind fun t =>
      if lib.fromIsoformat (replace "Z" "+00:00" t) = some true then some (some t) else none

/-- `value or ""` of a content. -/
def contentText (value : Option JsonValue) : Option Text :=
  if isNone value then some [] else value.bind JsonValue.text?

/-- `project` -/
def project (lib : Stdlib) (bankId : Text) (model : Payload) (content : Bool) :
    Option ModelItem := do
  guard ((model.get? "bank_id").bind JsonValue.text? = some bankId)
  let id ← identifier (model.get? "id")
  let name ← text (model.get? "name") 10000
  let lastRefreshedAt ← freshness lib (model.get? "last_refreshed_at")
  let lastMemorySeenAt ← freshness lib (model.get? "last_memory_seen_at")
  let isStale ← staleFlag (model.get? "is_stale")
  let body ← if content then (contentText (model.get? "content")).map some else some none
  return {
    id := id
    name := shortRedacted lib name 120
    nameTruncated := 120 < (redactSensitiveText lib name).length
    lastRefreshedAt := lastRefreshedAt
    lastMemorySeenAt := lastMemorySeenAt
    isStale := isStale
    content := body.map (redactSensitiveText lib) }

/-- `[self.project(mapping(item)) for item in items]` -/
def projectAll (lib : Stdlib) (bankId : Text) (items : List JsonValue) :
    Option (List ModelItem) :=
  items.mapM fun item => (mapping item).bind fun model => project lib bankId model false

/-- `decode_page`, with the total. -/
def decodePage (lib : Stdlib) (bankId : Text) (value : JsonValue) (offset : ℕ) :
    Option (List ModelItem × ℕ) := do
  let page ← mapping value
  let total ← natural (page.get? "total")
  guard (equalsInt (page.get? "limit") 20 ∧ equalsInt (page.get? "offset") offset)
  let items ← (page.get? "items").bind JsonValue.items?
  guard (items.length = min 20 (total - offset))
  let projected ← projectAll lib bankId items
  guard (projected.map fun item => item.id.1).Nodup
  return (projected, total)

/-- The response of the `list` action before it is cut. -/
def listPayload (items : List ModelItem) (total offset : ℕ) : Payload where
  entries := [("result".toList, .str "ok"),
    ("items".toList, .arr (items.map fun item => object item.payload)),
    ("total".toList, .int total), ("offset".toList, .int offset), ("limit".toList, .int 20),
    ("truncated".toList, .bool false),
    ("next_offset".toList,
      if offset + items.length < total then .int (offset + items.length : ℕ) else .null)]
  nodup := (by decide : ["result".toList, "items".toList, "total".toList, "offset".toList,
    "limit".toList, "truncated".toList, "next_offset".toList].Nodup)

/-- `validate_args` on the offset before an action. -/
def checkedOffset {α : Type} (offset : ℕ) (action : Option α) : Option α :=
  if offset ≤ 100000 then action else none

/-- The `list` action; `page` is the server's answer to the request for an offset. -/
def listModels (lib : Stdlib) (bankId : Text) (page : ℕ → JsonValue) (offset : ℕ) :
    Option (Text × Payload) :=
  (decodePage lib bankId (page offset) offset).bind fun decoded =>
    (render (listPayload decoded.1 decoded.2 offset)).toOption

/-! ## Knowledge pages -/

def TREE_MAX_NODES : ℕ := 200

def TREE_MAX_DEPTH : ℕ := 12

inductive NodeKind where
  | folder
  | page
  deriving DecidableEq

def NodeKind.value : NodeKind → Text
  | folder => "folder"
  | page => "page"

/-- What `decode_tree` keeps of a node. -/
structure TreeNode where
  pageId : PageId
  kind : NodeKind
  name : BoundedText 120
  parentId : Option PageId
  mentalModelId : Option (BoundedText 128)
  isStale : Option Bool

def TreeNode.payload (node : TreeNode) : Payload where
  entries := [("page_id".toList, .str node.pageId), ("kind".toList, .str node.kind.value),
    ("name".toList, .str node.name), ("parent_id".toList, optional (fun t => .str t.1) node.parentId),
    ("mental_model_id".toList, optional (fun t => .str t.1) node.mentalModelId),
    ("is_stale".toList, optional .bool node.isStale)]
  nodup := (by decide : ["page_id".toList, "kind".toList, "name".toList, "parent_id".toList,
    "mental_model_id".toList, "is_stale".toList].Nodup)

def nodeKind (value : Option JsonValue) : Option NodeKind :=
  match value.bind JsonValue.text? with
  | some t =>
    if t = NodeKind.folder.value then some .folder
    else if t = NodeKind.page.value then some .page
    else none
  | none => none

/-- `node.get("parent_id") == parent` -/
def hasParent (value : Option JsonValue) (parent : Option PageId) : Bool :=
  match parent with
  | none => isNone value
  | some parent => value.bind JsonValue.text? = some parent.1

/-- The backing of a node: an identifier for a page, which has no children, nothing for a folder. -/
def backing (kind : NodeKind) (value : Option JsonValue) (children : List JsonValue) :
    Option (Option (BoundedText 128)) :=
  match kind with
  | .page => (identifier value).bind fun id => if children = [] then some (some id) else none
  | .folder => if isNone value then some none else none

/-- One node, with its children, as the loop of `decode_tree` checks it. -/
def decodeNode (lib : Stdlib) (expectedPage : Option (Text × Text)) (seen : List PageId)
    (raw : JsonValue) (parent : Option PageId) : Option (TreeNode × List JsonValue) := do
  let node ← mapping raw
  let key ← pageId (node.get? "id")
  guard (expectedPage.all fun expected => key.1 ≠ expected.1 ∨
    (node.get? "name").bind JsonValue.text? = some expected.2)
  guard (key ∉ seen ∧ hasParent (node.get? "parent_id") parent)
  let kind ← nodeKind (node.get? "kind")
  let children ← (node.get? "children").bind JsonValue.items?
  let mentalModelId ← backing kind (node.get? "mental_model_id") children
  let isStale ← staleFlag (node.get? "is_stale")
  let name ← text (node.get? "name") 100000
  return ({
    pageId := key
    kind := kind
    name := shortRedacted lib name 120
    parentId := parent
    mentalModelId := mentalModelId
    isStale := isStale }, children)

/-- A node that waits on the stack, with its parent and its depth. -/
abbrev Pending := JsonValue × Option PageId × ℕ

/-- The loop of `decode_tree`. The head of the stack is what `stack.pop()` takes; `left` is how many
nodes are left of `TREE_MAX_NODES`. -/
def decodeNodes (lib : Stdlib) (expectedPage : Option (Text × Text)) :
    ℕ → List Pending → List TreeNode → Option (List TreeNode)
  | _, [], result => some result
  | 0, _ :: _, _ => none
  | left + 1, (raw, parent, depth) :: stack, result =>
    if TREE_MAX_DEPTH < depth then none
    else
      (decodeNode lib expectedPage (result.map TreeNode.pageId) raw parent).bind
        fun (node, children) =>
          let result := result ++ [node]
          if TREE_MAX_NODES < stack.length + children.length + result.length then none
          else
            decodeNodes lib expectedPage left
              (children.map (fun child => (child, some node.pageId, depth + 1)) ++ stack) result

/-- `decode_tree` -/
def decodeTree (lib : Stdlib) (value : JsonValue) (expectedPage : Option (Text × Text)) :
    Option (List TreeNode) := do
  let tree ← mapping value
  let roots ← (tree.get? "roots").bind JsonValue.items?
  guard (roots.length ≤ TREE_MAX_NODES)
  decodeNodes lib expectedPage TREE_MAX_NODES (roots.map fun node => (node, none, 1)) []

/-- The response of `browse` before it is cut. -/
def browsePayload (nodes : List TreeNode) (offset : ℕ) : Payload where
  entries := [("result".toList, .str "ok"),
    ("inventory".toList, .str "knowledge_pages_and_folders"),
    ("items".toList, .arr ((nodes.drop offset).map fun node => object node.payload)),
    ("total".toList, .int nodes.length), ("offset".toList, .int offset),
    ("next_offset".toList, .null), ("truncated".toList, .bool false),
    ("verification".toList, .str ("Bounded tree; continue with next_offset while ".toList ++
      "inventory is unchanged. Standalone models are not pages.".toList))]
  nodup := (by decide : ["result".toList, "inventory".toList, "items".toList, "total".toList,
    "offset".toList, "next_offset".toList, "truncated".toList, "verification".toList].Nodup)

/-- The `page_browse` action; `tree` is the server's answer. -/
def browse (lib : Stdlib) (tree : JsonValue) (offset : ℕ) : Option (Text × Payload) :=
  (decodeTree lib tree none).bind fun nodes => (render (browsePayload nodes offset)).toOption

end BetterHindsight.MentalModels
