import BetterHindsight.Config

/-! # Who may use the memory

The principals of a configuration and the authorization of one provider handle.

* `parsePrincipals`, `parsePrincipals_ok_iff`: the lists of principals that are accepted.
* `ProviderConfig.authorize`: what one initialization may do.
* `Permitted`, `authorize_allows_iff`: the same, read off the configuration.
* `identity_authorized_iff`: an identity is the operator's shell, or an entry of the list names it
  exactly. -/

namespace BetterHindsight
set_option autoImplicit false

/-! ## Checks of JSON values -/

/-- `_expect_mapping`; the keys of a JSON object are texts. -/
def expectMapping (value : Json) (fieldName : String) : Except ConfigError (List (Text × Json)) :=
  match value with
  | .obj fields => .ok fields
  | _ => configError (fieldName ++ " must be a JSON object")

/-- `_check_unknown_keys` -/
def checkUnknownKeys (values : List (Text × Json)) (allowed : List Text) (location : String) :
    Except ConfigError Unit :=
  let unknown := ((values.map Prod.fst).filter (· ∉ allowed)).dedup.insertionSort (· ≤ ·)
  let path := if location = "" then "" else location ++ "."
  rejectIf (unknown ≠ [])
    ("unknown key(s): " ++ ", ".intercalate (unknown.map fun key => path ++ String.ofList key))

/-- `_parse_exact_nonempty_string` of a JSON value; a missing key is `none`. -/
def parseExactText (value : Option Json) (fieldName : String) : Except ConfigError Text :=
  match value with
  | some (.str text) => parseExactNonemptyString text fieldName
  | _ => configError (fieldName ++ " must be a non-empty string without outer whitespace")

def Exact (t : Text) : Prop := t ≠ [] ∧ strip t = t ∧ containsControl false t = false

theorem checkUnknownKeys_ok_iff {values : List (Text × Json)} {allowed : List Text}
    {location : String} {u : Unit} :
    checkUnknownKeys values allowed location = .ok u ↔ ∀ f ∈ values, f.1 ∈ allowed := by
  have hperm := List.perm_insertionSort (· ≤ ·)
    ((values.map Prod.fst).filter (· ∉ allowed)).dedup
  rw [checkUnknownKeys, rejectIf_ok, not_not, ← List.isEmpty_iff, hperm.isEmpty_eq,
    List.isEmpty_iff, List.dedup_eq_nil, List.filter_eq_nil_iff]
  simp

theorem parseExactText_ok_iff {value : Option Json} {fieldName : String} {t : Text} :
    parseExactText value fieldName = .ok t ↔ value = some (.str t) ∧ Exact t := by
  unfold parseExactText
  split
  · rename_i text
    constructor
    · intro h
      unfold parseExactNonemptyString at h
      obtain ⟨_, hshape, h⟩ := bind_ok h
      obtain ⟨_, hcontrol, h⟩ := bind_ok h
      rw [rejectIf_ok] at hshape hcontrol
      obtain rfl := Except.ok.inj h
      have hexact : (text ≠ [] ∧ strip text = text) ∧ containsControl false text = false := by
        simpa using And.intro hshape hcontrol
      exact ⟨rfl, hexact.1.1, hexact.1.2, hexact.2⟩
    · rintro ⟨heq, hne, hstrip, hcontrol⟩
      cases heq
      simp [parseExactNonemptyString, rejectIf, hne, hstrip, hcontrol, bind, Except.bind, pure,
        Except.pure]
  · rename_i hvalue
    constructor
    · intro h
      cases h
    · rintro ⟨rfl, -⟩
      exact absurd rfl (hvalue t)

/-! ## Principals -/

inductive IdentifierKind where
  | userId
  | userIdAlt
  deriving DecidableEq

def IdentifierKind.text : IdentifierKind → Text
  | userId => "user_id"
  | userIdAlt => "user_id_alt"

structure AllowedPrincipal where
  platform : Text
  identifierKind : IdentifierKind
  identifier : Text
  deriving DecidableEq

/-- `_parse_literal` with the two kinds. -/
def parseIdentifierKind (value : Option Json) (fieldName : String) :
    Except ConfigError IdentifierKind :=
  match value with
  | some (.str text) =>
    if text = IdentifierKind.userId.text then .ok .userId
    else if text = IdentifierKind.userIdAlt.text then .ok .userIdAlt
    else configError (fieldName ++ " must be one of: user_id, user_id_alt")
  | _ => configError (fieldName ++ " must be one of: user_id, user_id_alt")

def PRINCIPAL_KEYS : List Text := ["platform", "identifier_kind", "identifier"]

/-- One entry of `allowed_principals`. -/
def parsePrincipal (item : Json) (location : String) : Except ConfigError AllowedPrincipal := do
  let values ← expectMapping item location
  checkUnknownKeys values PRINCIPAL_KEYS location
  let platform ← parseExactText (values.lookup "platform".toList) (location ++ ".platform")
  let identifierKind ← parseIdentifierKind (values.lookup "identifier_kind".toList)
    (location ++ ".identifier_kind")
  let identifier ← parseExactText (values.lookup "identifier".toList) (location ++ ".identifier")
  return ⟨platform, identifierKind, identifier⟩

def principalLocation (index : ℕ) : String := "allowed_principals[" ++ toString index ++ "]"

/-- The entries from `index` on, after the principals of the entries before it. -/
def parsePrincipalsFrom (index : ℕ) (principals : List AllowedPrincipal) :
    List Json → Except ConfigError (List AllowedPrincipal)
  | [] => .ok principals
  | item :: items => do
    let principal ← parsePrincipal item (principalLocation index)
    rejectIf (principal ∈ principals)
      (principalLocation index ++ " duplicates an earlier allowed principal")
    parsePrincipalsFrom (index + 1) (principals ++ [principal]) items

/-- `_parse_principals`; an absent list is empty. -/
def parsePrincipals : Option Json → Except ConfigError (List AllowedPrincipal)
  | none => .ok []
  | some (.arr items) => parsePrincipalsFrom 0 [] items
  | some _ => configError "allowed_principals must be a list"

/-- The entry has no other keys than those of a principal, and names this one. -/
structure IsPrincipal (item : Json) (p : AllowedPrincipal) : Prop where
  keys : ∃ fields, item = .obj fields ∧ (∀ f ∈ fields, f.1 ∈ PRINCIPAL_KEYS) ∧
    fields.lookup "platform".toList = some (.str p.platform) ∧
    fields.lookup "identifier_kind".toList = some (.str p.identifierKind.text) ∧
    fields.lookup "identifier".toList = some (.str p.identifier)
  platform : Exact p.platform
  identifier : Exact p.identifier

theorem IdentifierKind.text_injective {a b : IdentifierKind} (h : a.text = b.text) : a = b := by
  have hne : IdentifierKind.userId.text ≠ IdentifierKind.userIdAlt.text := by decide
  cases a with
  | userId =>
    cases b with
    | userId => rfl
    | userIdAlt => exact absurd h hne
  | userIdAlt =>
    cases b with
    | userId => exact absurd h.symm hne
    | userIdAlt => rfl

theorem parseIdentifierKind_ok_iff {value : Option Json} {fieldName : String}
    {kind : IdentifierKind} :
    parseIdentifierKind value fieldName = .ok kind ↔ value = some (.str kind.text) := by
  have hne : IdentifierKind.userIdAlt.text ≠ IdentifierKind.userId.text := by decide
  unfold parseIdentifierKind configError
  constructor
  · intro h
    split at h
    · split at h
      · rename_i huser
        cases h
        rw [huser]
      · split at h
        · rename_i halt
          cases h
          rw [halt]
        · cases h
    · cases h
  · rintro rfl
    cases kind with
    | userId => simp
    | userIdAlt => simp [hne]

theorem parsePrincipal_ok_iff {item : Json} {location : String} {p : AllowedPrincipal} :
    parsePrincipal item location = .ok p ↔ IsPrincipal item p := by
  constructor
  · intro h
    unfold parsePrincipal at h
    obtain ⟨fields, hfields, h⟩ := bind_ok h
    obtain ⟨_, hkeys, h⟩ := bind_ok h
    obtain ⟨platform, hplatform, h⟩ := bind_ok h
    obtain ⟨kind, hkind, h⟩ := bind_ok h
    obtain ⟨identifier, hidentifier, h⟩ := bind_ok h
    obtain rfl := Except.ok.inj h
    rw [checkUnknownKeys_ok_iff] at hkeys
    rw [parseExactText_ok_iff] at hplatform hidentifier
    rw [parseIdentifierKind_ok_iff] at hkind
    have hitem : item = .obj fields := by
      unfold expectMapping configError at hfields
      split at hfields
      · rw [Except.ok.inj hfields]
      · cases hfields
    exact ⟨⟨fields, hitem, hkeys, hplatform.1, hkind, hidentifier.1⟩, hplatform.2, hidentifier.2⟩
  · rintro ⟨⟨fields, rfl, hkeys, hplatform, hkind, hidentifier⟩, hexact, hexact'⟩
    have hunknown := (@checkUnknownKeys_ok_iff fields PRINCIPAL_KEYS location ()).mpr hkeys
    have hplatform' := (@parseExactText_ok_iff _ (location ++ ".platform") _).mpr
      ⟨hplatform, hexact⟩
    have hkind' := (@parseIdentifierKind_ok_iff _ (location ++ ".identifier_kind") _).mpr hkind
    have hidentifier' := (@parseExactText_ok_iff _ (location ++ ".identifier") _).mpr
      ⟨hidentifier, hexact'⟩
    simp only [parsePrincipal, expectMapping, bind, Except.bind, hunknown, hplatform', hkind',
      hidentifier']
    rfl

theorem parsePrincipalsFrom_ok_iff {index : ℕ} {before ps : List AllowedPrincipal}
    {items : List Json} (hbefore : before.Nodup) :
    parsePrincipalsFrom index before items = .ok ps ↔
      ∃ rest, ps = before ++ rest ∧ List.Forall₂ IsPrincipal items rest ∧ ps.Nodup := by
  induction items generalizing index before with
  | nil =>
    rw [parsePrincipalsFrom]
    constructor
    · intro h
      obtain rfl := Except.ok.inj h
      exact ⟨[], by simp, .nil, hbefore⟩
    · rintro ⟨rest, rfl, hrest, -⟩
      cases hrest
      rw [List.append_nil]
  | cons item items ih =>
    constructor
    · intro h
      rw [parsePrincipalsFrom] at h
      obtain ⟨p, hp, h⟩ := bind_ok h
      obtain ⟨_, hnew, h⟩ := bind_ok h
      rw [rejectIf_ok] at hnew
      have hnodup : (before ++ [p]).Nodup := by
        simpa using hbefore.concat hnew
      obtain ⟨rest, rfl, hrest, hall⟩ := (ih hnodup).mp h
      exact ⟨p :: rest, by simp, .cons (parsePrincipal_ok_iff.mp hp) hrest, hall⟩
    · rintro ⟨rest, rfl, hrest, hall⟩
      obtain _ | ⟨hp, hrest⟩ := hrest
      rename_i p rest
      have hsplit : before ++ p :: rest = before ++ [p] ++ rest := by simp
      have hnodup : (before ++ [p]).Nodup :=
        hall.sublist (hsplit ▸ List.sublist_append_left _ _)
      have hnew : p ∉ before := fun hmem =>
        List.disjoint_of_nodup_append hnodup hmem (List.mem_singleton_self p)
      have hreject := (@rejectIf_ok (p ∈ before) _
        (principalLocation index ++ " duplicates an earlier allowed principal") ()).mpr hnew
      have hitem := (@parsePrincipal_ok_iff _ (principalLocation index) _).mpr hp
      rw [parsePrincipalsFrom, hitem]
      simp only [bind, Except.bind, hreject]
      exact (ih hnodup).mpr ⟨rest, hsplit, hrest, hall⟩

/-- The lists that are accepted: every entry names a principal, and no two entries the same. -/
theorem parsePrincipals_ok_iff {value : Option Json} {ps : List AllowedPrincipal} :
    parsePrincipals value = .ok ps ↔
      value = none ∧ ps = [] ∨
        ∃ items, value = some (.arr items) ∧ List.Forall₂ IsPrincipal items ps ∧ ps.Nodup := by
  unfold parsePrincipals
  split
  · simp [eq_comm]
  · rename_i items
    rw [parsePrincipalsFrom_ok_iff List.nodup_nil]
    simp
  · rename_i v hv
    constructor
    · intro h
      cases h
    · rintro (⟨h, -⟩ | ⟨items, h, -⟩)
      · cases h
      · exact absurd (Option.some.inj h) (hv items)

/-! ## Authorization -/

structure MentalModelsConfig where
  enabled : Bool
  createEnabled : Bool
  refreshEnabled : Bool
  pagesEnabled : Bool
  deriving DecidableEq

/-- The configuration with the fields that a provider handle reads beside those of the outbox. -/
structure ProviderConfig extends BetterHindsightConfig where
  allowedPrincipals : List AllowedPrincipal
  recallEnabled : Bool
  reflectEnabled : Bool
  mentalModels : MentalModelsConfig

/-- What the host passes to one `initialize`; a value that is no text is `none`. -/
structure Identity where
  platform : Option Text
  userId : Option Text
  userIdAlt : Option Text
  agentContext : Option Text
  deriving DecidableEq

structure MemoryAuthorization where
  identityAuthorized : Bool
  recallEnabled : Bool
  reflectEnabled : Bool
  retainEnabled : Bool
  mentalModelsEnabled : Bool
  deriving DecidableEq

def MemoryAuthorization.memoryEnabled (a : MemoryAuthorization) : Bool :=
  a.recallEnabled || a.reflectEnabled || a.retainEnabled || a.mentalModelsEnabled

/-- `_optional_string` -/
def optionalString (value : Option Text) : Option Text := value.filter (· ≠ [])

namespace ProviderConfig

/-- `_authorization` -/
def authorization (config : ProviderConfig) (identityAuthorized : Bool)
    (agentContext : Option Text) : MemoryAuthorization where
  identityAuthorized
  recallEnabled := identityAuthorized && config.recallEnabled
  reflectEnabled := identityAuthorized && config.reflectEnabled
  retainEnabled := identityAuthorized && config.retain.enabled &&
    decide (agentContext = some "primary".toList)
  mentalModelsEnabled := identityAuthorized && config.mentalModels.enabled

/-- `as_tuple` of the principals that the values of a gateway could be. -/
def candidates (platform : Text) (userId userIdAlt : Option Text) : List AllowedPrincipal :=
  ((optionalString userId).map fun id => ⟨platform, .userId, id⟩).toList ++
    ((optionalString userIdAlt).map fun id => ⟨platform, .userIdAlt, id⟩).toList

def authorizeGateway (config : ProviderConfig) (platform userId userIdAlt agentContext : Option Text) :
    MemoryAuthorization :=
  let identityAuthorized :=
    match optionalString platform with
    | some platform => config.singlePrincipal &&
        (candidates platform userId userIdAlt).any (· ∈ config.allowedPrincipals)
    | none => false
  config.authorization identityAuthorized agentContext

def authorizeCli (config : ProviderConfig) (agentContext : Option Text) : MemoryAuthorization :=
  config.authorization config.singlePrincipal agentContext

/-- The authorization of `_initialize_locked`. -/
def authorize (config : ProviderConfig) (identity : Identity) : MemoryAuthorization :=
  let platform := optionalString identity.platform
  let agentContext := optionalString identity.agentContext
  if platform = some "cli".toList then config.authorizeCli agentContext
  else config.authorizeGateway platform (optionalString identity.userId)
    (optionalString identity.userIdAlt) agentContext

end ProviderConfig

/-- The value that a principal of this kind has to equal. -/
def Identity.identifier (identity : Identity) : IdentifierKind → Option Text
  | .userId => identity.userId
  | .userIdAlt => identity.userIdAlt

/-- The operator's own shell, or a gateway user that the configuration lists. -/
def Recognized (config : ProviderConfig) (identity : Identity) : Prop :=
  identity.platform = some "cli".toList ∨
    ∃ p ∈ config.allowedPrincipals, p.platform ≠ [] ∧ p.identifier ≠ [] ∧
      identity.platform = some p.platform ∧ identity.identifier p.identifierKind = some p.identifier

theorem optionalString_eq_some {value : Option Text} {t : Text} :
    optionalString value = some t ↔ value = some t ∧ t ≠ [] := by
  simp [optionalString, Option.filter_eq_some_iff]

theorem optionalString_idem (value : Option Text) :
    optionalString (optionalString value) = optionalString value := by
  apply Option.ext
  intro t
  rw [optionalString_eq_some, optionalString_eq_some]
  tauto

theorem ProviderConfig.mem_candidates {platform : Text} {userId userIdAlt : Option Text}
    {p : AllowedPrincipal} :
    p ∈ candidates platform userId userIdAlt ↔ p.platform = platform ∧ p.identifier ≠ [] ∧
      (match p.identifierKind with
        | .userId => userId
        | .userIdAlt => userIdAlt) = some p.identifier := by
  obtain ⟨platform', kind, identifier⟩ := p
  simp only [candidates, List.mem_append, Option.mem_toList, Option.map_eq_some_iff,
    optionalString_eq_some, AllowedPrincipal.mk.injEq]
  cases kind <;> simp <;> tauto

/-- What the flags of a handle switch on. -/
inductive Feature where
  | recall
  | reflect
  | retain
  | mentalModels
  deriving DecidableEq

def MemoryAuthorization.allows (a : MemoryAuthorization) : Feature → Bool
  | .recall => a.recallEnabled
  | .reflect => a.reflectEnabled
  | .retain => a.retainEnabled
  | .mentalModels => a.mentalModelsEnabled

/-- The feature is configured; only a primary agent retains. -/
def Feature.Configured (config : ProviderConfig) (identity : Identity) : Feature → Prop
  | .recall => config.recallEnabled = true
  | .reflect => config.reflectEnabled = true
  | .retain => config.retain.enabled = true ∧ identity.agentContext = some "primary".toList
  | .mentalModels => config.mentalModels.enabled = true

structure Permitted (config : ProviderConfig) (identity : Identity) (feature : Feature) : Prop where
  singlePrincipal : config.singlePrincipal = true
  recognized : Recognized config identity
  configured : feature.Configured config identity

section Authorize
variable {config : ProviderConfig} {identity : Identity}

theorem authorizeGateway_identity_iff {platform userId userIdAlt agentContext : Option Text} :
    (config.authorizeGateway platform userId userIdAlt agentContext).identityAuthorized = true ↔
      config.singlePrincipal = true ∧ ∃ p ∈ config.allowedPrincipals, p.platform ≠ [] ∧
        p.identifier ≠ [] ∧ platform = some p.platform ∧
        (match p.identifierKind with
          | .userId => userId
          | .userIdAlt => userIdAlt) = some p.identifier := by
  simp only [ProviderConfig.authorizeGateway, ProviderConfig.authorization]
  split
  · rename_i t ht
    rw [optionalString_eq_some] at ht
    obtain ⟨rfl, hne⟩ := ht
    simp only [Bool.and_eq_true, List.any_eq_true, decide_eq_true_eq, Option.some.injEq]
    refine and_congr_right fun _ => exists_congr fun p => ?_
    rw [ProviderConfig.mem_candidates]
    constructor
    · rintro ⟨⟨rfl, hid, hvalue⟩, hmem⟩
      exact ⟨hmem, hne, hid, rfl, hvalue⟩
    · rintro ⟨hmem, -, hid, hplatform, hvalue⟩
      exact ⟨⟨hplatform.symm, hid, hvalue⟩, hmem⟩
  · rename_i hnone
    refine iff_of_false (by simp) ?_
    rintro ⟨-, p, -, hne, -, rfl, -⟩
    have hsome : optionalString (some p.platform) = some p.platform :=
      optionalString_eq_some.mpr ⟨rfl, hne⟩
    rw [hnone] at hsome
    cases hsome

theorem optionalString_identifier {kind : IdentifierKind} {t : Text} (hne : t ≠ []) :
    (match kind with
      | .userId => optionalString identity.userId
      | .userIdAlt => optionalString identity.userIdAlt) = some t ↔
        identity.identifier kind = some t := by
  cases kind <;> simp [Identity.identifier, optionalString_eq_some, hne]

theorem authorize_identity_iff :
    (config.authorize identity).identityAuthorized = true ↔
      config.singlePrincipal = true ∧ Recognized config identity := by
  have hcli : "cli".toList ≠ [] := by decide
  unfold ProviderConfig.authorize Recognized
  by_cases hplatform : identity.platform = some "cli".toList
  · have hoptional := optionalString_eq_some.mpr ⟨hplatform, hcli⟩
    rw [if_pos hoptional, or_iff_left_of_imp fun _ => hplatform, and_iff_left hplatform]
    rfl
  · have hoptional : optionalString identity.platform ≠ some "cli".toList :=
      fun h => hplatform (optionalString_eq_some.mp h).1
    rw [if_neg hoptional, authorizeGateway_identity_iff, or_iff_right hplatform]
    refine and_congr_right fun _ => exists_congr fun p => and_congr_right fun _ =>
      and_congr_right fun hne => and_congr_right fun hid => ?_
    rw [optionalString_identifier hid, optionalString_eq_some]
    simp [hne]

/-- What is authorized is what the configuration permits. -/
theorem authorize_allows_iff {feature : Feature} :
    (config.authorize identity).allows feature = true ↔ Permitted config identity feature := by
  have hform : config.authorize identity =
      config.authorization (config.authorize identity).identityAuthorized
        (optionalString identity.agentContext) := by
    by_cases hplatform : optionalString identity.platform = some "cli".toList
    · simp only [ProviderConfig.authorize, if_pos hplatform]
      rfl
    · simp only [ProviderConfig.authorize, if_neg hplatform]
      rfl
  have hprimary : optionalString identity.agentContext = some "primary".toList ↔
      identity.agentContext = some "primary".toList :=
    optionalString_eq_some.trans (and_iff_left (by decide))
  have hidentity := @authorize_identity_iff config identity
  rw [hform]
  constructor
  · intro h
    cases feature with
    | «recall» | reflect | mentalModels =>
      have h' := Bool.and_eq_true_iff.mp h
      exact ⟨(hidentity.mp h'.1).1, (hidentity.mp h'.1).2, h'.2⟩
    | retain =>
      have h' := Bool.and_eq_true_iff.mp h
      have hauthorized := Bool.and_eq_true_iff.mp h'.1
      exact ⟨(hidentity.mp hauthorized.1).1, (hidentity.mp hauthorized.1).2, hauthorized.2,
        hprimary.mp (of_decide_eq_true h'.2)⟩
  · rintro ⟨hsingle, hrecognized, hconfigured⟩
    have hauthorized := hidentity.mpr ⟨hsingle, hrecognized⟩
    cases feature with
    | «recall» | reflect | mentalModels =>
      exact Bool.and_eq_true_iff.mpr ⟨hauthorized, hconfigured⟩
    | retain =>
      exact Bool.and_eq_true_iff.mpr ⟨Bool.and_eq_true_iff.mpr ⟨hauthorized, hconfigured.1⟩,
        decide_eq_true (hprimary.mpr hconfigured.2)⟩

end Authorize

/-- A gateway user is authorized exactly when an entry of the list spells out the platform, the kind
of the identifier and the identifier. -/
theorem identity_authorized_iff {value : Option Json} {config : ProviderConfig}
    (hparse : parsePrincipals value = .ok config.allowedPrincipals) (identity : Identity) :
    (config.authorize identity).identityAuthorized = true ↔
      config.singlePrincipal = true ∧ (identity.platform = some "cli".toList ∨
        ∃ items fields kind platform identifier, value = some (.arr items) ∧
          .obj fields ∈ items ∧
          fields.lookup "platform".toList = some (.str platform) ∧
          fields.lookup "identifier_kind".toList = some (.str (IdentifierKind.text kind)) ∧
          fields.lookup "identifier".toList = some (.str identifier) ∧
          identity.platform = some platform ∧ identity.identifier kind = some identifier) := by
  rw [authorize_identity_iff]
  refine and_congr_right fun _ => or_congr_right ?_
  rcases parsePrincipals_ok_iff.mp hparse with ⟨rfl, hnil⟩ | ⟨items, rfl, hall, -⟩
  · simp [hnil]
  · constructor
    · rintro ⟨p, hmem, -, -, hplatform, hidentifier⟩
      obtain ⟨i, hi, rfl⟩ := List.getElem_of_mem hmem
      have hi' : i < items.length := by rw [hall.length_eq]; exact hi
      obtain ⟨⟨fields, hitem, -, h₁, h₂, h₃⟩, -, -⟩ := (List.forall₂_iff_get.mp hall).2 i hi' hi
      exact ⟨items, fields, _, _, _, rfl, hitem ▸ List.get_mem items ⟨i, hi'⟩, h₁, h₂, h₃,
        hplatform, hidentifier⟩
    · rintro ⟨_, fields, kind, platform, identifier, heq, hmem, h₁, h₂, h₃, hplatform, hid⟩
      cases heq
      obtain ⟨i, hi, hitem⟩ := List.getElem_of_mem hmem
      have hi' : i < config.allowedPrincipals.length := by rw [← hall.length_eq]; exact hi
      obtain ⟨⟨fields', hfields, -, h₁', h₂', h₃'⟩, hexact, hexact'⟩ :=
        (List.forall₂_iff_get.mp hall).2 i hi hi'
      obtain rfl : fields' = fields := by simpa using hfields.symm.trans hitem
      have hplatform' := Option.some.inj (h₁'.symm.trans h₁)
      have hkind := Option.some.inj (h₂'.symm.trans h₂)
      have hidentifier := Option.some.inj (h₃'.symm.trans h₃)
      rw [Json.str.injEq] at hplatform' hkind hidentifier
      obtain rfl := IdentifierKind.text_injective hkind
      refine ⟨_, List.get_mem config.allowedPrincipals ⟨i, hi'⟩, hexact.1, hexact'.1, ?_, ?_⟩
      · exact hplatform.trans (congrArg some hplatform'.symm)
      · exact hid.trans (congrArg some hidentifier.symm)

/-- One gateway user is listed. -/
def listedUser : Json :=
  .arr [.obj [("platform", .str "telegram"), ("identifier_kind", .str "user_id"),
    ("identifier", .str "42")]]

def listedConfig : ProviderConfig where
  toBetterHindsightConfig := { defaultConfig with singlePrincipal := true }
  allowedPrincipals := [⟨"telegram", .userId, "42"⟩]
  recallEnabled := true
  reflectEnabled := false
  mentalModels := ⟨false, false, false, false⟩

def gatewayUser : Identity := ⟨some "telegram".toList, some "42".toList, none, none⟩

/-- The listed user is authorized, and not as `user_id_alt`. -/
theorem identity_authorized_iff_listed :
    parsePrincipals (some listedUser) = .ok listedConfig.allowedPrincipals ∧
      (listedConfig.authorize gatewayUser).identityAuthorized = true ∧
      (listedConfig.authorize { gatewayUser with userId := none, userIdAlt := some "42".toList }
        ).identityAuthorized = false := by
  have hparse : parsePrincipals (some listedUser) = .ok listedConfig.allowedPrincipals := by
    decide +kernel
  refine ⟨hparse, (identity_authorized_iff hparse gatewayUser).mpr ⟨rfl, .inr ?_⟩, rfl⟩
  exact ⟨_, _, .userId, _, _, rfl, List.mem_singleton_self _, rfl, rfl, rfl, rfl, rfl⟩

end BetterHindsight
