import BetterHindsight.MentalModels.Inventory

/-! # Missions

The two mission texts of a bank: what the server answers about them, what the configuration wants,
and what `missions check` and `missions apply` make of the difference.

* `decodeBankConfig`: the snapshot of a response.
* `missionUpdates`, `expectedSnapshot`: what a PATCH has to write, and what a GET has to read after.
* `checkResult`: the report of `missions check`.
* `check_agrees`: the report is clean exactly when there is nothing to write.
* `apply_converges`: a server that stores what it is sent then answers as expected. -/

namespace BetterHindsight.Missions
set_option autoImplicit false

open MentalModels

/-! ## Values -/

inductive MissionField where
  | retainMission
  | observationsMission
  deriving DecidableEq

def MissionField.key : MissionField → Text
  | retainMission => "retain_mission".toList
  | observationsMission => "observations_mission".toList

structure MissionValue where
  present : Bool
  value : Option Text
  deriving DecidableEq

structure MissionSnapshot where
  retainMission : MissionValue
  observationsMission : MissionValue
  deriving DecidableEq

/-- `getattr(snapshot, field)` -/
def MissionSnapshot.get (snapshot : MissionSnapshot) : MissionField → MissionValue
  | .retainMission => snapshot.retainMission
  | .observationsMission => snapshot.observationsMission

/-- The `missions` of a configuration. -/
structure MissionConfig where
  retainMission : Option Text
  observationsMission : Option Text

def MissionConfig.get (config : MissionConfig) : MissionField → Option Text
  | .retainMission => config.retainMission
  | .observationsMission => config.observationsMission

/-- `_parse_optional_text` refuses a blank text. -/
def MissionConfig.Nonblank (config : MissionConfig) : Prop :=
  ∀ field t, config.get field = some t → isBlank t = false

/-! ## Responses of the server -/

/-- `_mission_value` -/
def missionValue (config : Payload) (field : MissionField) : Option MissionValue :=
  match config.get? field.key with
  | none => some ⟨false, none⟩
  | some ⟨.null, _⟩ => some ⟨true, none⟩
  | some ⟨.str t, _⟩ => some ⟨true, some t⟩
  | some _ => none

/-- `_validate_bank_config_response_shape` -/
def validateBankConfigResponseShape (value : JsonValue) : Option (Text × Payload) := do
  let fields ← mapping value
  let bankId ← (fields.get? "bank_id".toList).bind JsonValue.text?
  let config ← (fields.get? "config".toList).bind mapping
  let _ ← (fields.get? "overrides".toList).bind mapping
  return (bankId, config)

/-- `_decode_bank_config` -/
def decodeBankConfig (value : JsonValue) (bankId : Text) : Option MissionSnapshot := do
  let (responseBankId, config) ← validateBankConfigResponseShape value
  guard (responseBankId = bankId)
  let retain ← missionValue config .retainMission
  let observations ← missionValue config .observationsMission
  return ⟨retain, observations⟩

/-! ## Differences -/

/-- `_desired_missions` -/
def desiredMissions (config : MissionConfig) : List (MissionField × Text) :=
  [MissionField.retainMission, .observationsMission].filterMap fun field =>
    (config.get field).map fun t => (field, t)

/-- `_mission_updates` -/
def missionUpdates (desired : List (MissionField × Text)) (before : MissionSnapshot) :
    List (MissionField × Text) :=
  desired.filter fun p => before.get p.1 ≠ ⟨true, some p.2⟩

/-- `_expected_snapshot` -/
def expectedSnapshot (before : MissionSnapshot) (updates : List (MissionField × Text)) :
    MissionSnapshot where
  retainMission := match updates.lookup .retainMission with
    | some t => ⟨true, some t⟩
    | none => before.retainMission
  observationsMission := match updates.lookup .observationsMission with
    | some t => ⟨true, some t⟩
    | none => before.observationsMission

/-- `_validate_mission_updates`, which `update_bank_missions` calls before its request. -/
def validateMissionUpdates (updates : List (MissionField × Text)) :
    Option (List (MissionField × Text)) :=
  if updates = [] then none
  else if updates.any fun p => isBlank p.2 then none else some updates

/-! ## Reports -/

structure ManagementResult where
  payload : List (String × String)
  exitCode : ℕ
  deriving DecidableEq

def fixedError (command error : String) : ManagementResult :=
  ⟨[("command", command), ("error", error), ("result", "error")], 3⟩

inductive MissionState where
  | equal
  | drift
  | missing
  | unmanaged
  deriving DecidableEq

def MissionState.text : MissionState → String
  | equal => "equal"
  | drift => "drift"
  | missing => "missing"
  | unmanaged => "unmanaged"

/-- `_field_state` -/
def fieldState (desired : Option Text) (remote : MissionValue) : MissionState :=
  match desired with
  | none => .unmanaged
  | some desired =>
    match remote.present, remote.value with
    | true, some value =>
      if isBlank value then .missing else if value = desired then .equal else .drift
    | _, _ => .missing

/-- `_check_result` -/
def checkResult (config : MissionConfig) (snapshot : MissionSnapshot) : ManagementResult :=
  let retainState := fieldState config.retainMission snapshot.retainMission
  let observationsState := fieldState config.observationsMission snapshot.observationsMission
  let states := [retainState, observationsState]
  let overall : MissionState :=
    if .missing ∈ states then .missing
    else if .drift ∈ states then .drift
    else if states = [.unmanaged, .unmanaged] then .unmanaged
    else .equal
  ⟨[("command", "missions_check"), ("observations_mission", observationsState.text),
    ("result", overall.text), ("retain_mission", retainState.text)],
    if overall = .equal ∨ overall = .unmanaged then 0 else 1⟩

/-! ## What a write leaves -/

/-- The earlier snapshot with every configured field that drifted replaced by its text. -/
def Replaces (config : MissionConfig) (before after : MissionSnapshot) : Prop :=
  ∀ field, after.get field = match config.get field with
    | some t => ⟨true, some t⟩
    | none => before.get field

theorem lookup_missionUpdates (config : MissionConfig) (before : MissionSnapshot)
    (field : MissionField) : (missionUpdates (desiredMissions config) before).lookup field =
      (config.get field).filter fun t => before.get field ≠ ⟨true, some t⟩ := by
  cases hretain : config.retainMission <;> cases hobservations : config.observationsMission <;>
    cases field <;>
    simp only [missionUpdates, desiredMissions, MissionConfig.get, hretain, hobservations,
      List.filterMap_cons, List.filterMap_nil, Option.map_none, Option.map_some, List.filter_cons,
      List.filter_nil, Option.filter, List.lookup_nil]
  all_goals
    repeat' split
    all_goals rfl

theorem expectedSnapshot_get (before : MissionSnapshot) (updates : List (MissionField × Text))
    (field : MissionField) : (expectedSnapshot before updates).get field =
      match updates.lookup field with
      | some t => ⟨true, some t⟩
      | none => before.get field := by
  cases field <;> rfl

theorem expectedSnapshot_replaces (config : MissionConfig) (before : MissionSnapshot) :
    Replaces config before
      (expectedSnapshot before (missionUpdates (desiredMissions config) before)) := by
  intro field
  rw [expectedSnapshot_get, lookup_missionUpdates]
  cases hget : config.get field with
  | none => rfl
  | some t =>
    by_cases hsame : before.get field = ⟨true, some t⟩
    · simp [Option.filter, hsame]
    · simp [Option.filter, hsame]

theorem mem_desiredMissions {config : MissionConfig} {p : MissionField × Text} :
    p ∈ desiredMissions config ↔ config.get p.1 = some p.2 := by
  obtain ⟨field, t⟩ := p
  have hfield : field ∈ [MissionField.retainMission, .observationsMission] := by
    cases field <;> simp
  simp only [desiredMissions, List.mem_filterMap, Option.map_eq_some_iff, Prod.mk.injEq]
  constructor
  · rintro ⟨field', -, t', hget, rfl, rfl⟩
    exact hget
  · intro hget
    exact ⟨field, hfield, t, hget, rfl, rfl⟩

theorem missionUpdates_eq_nil {config : MissionConfig} {snapshot : MissionSnapshot} :
    missionUpdates (desiredMissions config) snapshot = [] ↔
      ∀ field t, config.get field = some t → snapshot.get field = ⟨true, some t⟩ := by
  rw [missionUpdates, List.filter_eq_nil_iff]
  constructor
  · intro h field t hget
    have hmem := h (field, t) (mem_desiredMissions.mpr hget)
    simpa using hmem
  · intro h p hp
    simpa using h p.1 p.2 (mem_desiredMissions.mp hp)

/-! ## Reports and writes -/

/-- A field is reported as equal exactly when it need not be written. -/
theorem fieldState_equal {t : Text} (ht : isBlank t = false) (remote : MissionValue) :
    fieldState (some t) remote = .equal ↔ remote = ⟨true, some t⟩ := by
  obtain ⟨present, value⟩ := remote
  cases present with
  | false => simp [fieldState]
  | true =>
    cases value with
    | none => simp [fieldState]
    | some value =>
      simp only [fieldState, MissionValue.mk.injEq, true_and, Option.some.injEq]
      constructor
      · intro h
        split at h
        · cases h
        · split at h
          · assumption
          · cases h
      · rintro rfl
        rw [ht]
        simp

theorem fieldState_unmanaged {desired : Option Text} {remote : MissionValue} :
    fieldState desired remote = .unmanaged ↔ desired = none := by
  cases desired with
  | none => simp [fieldState]
  | some t =>
    simp only [fieldState, reduceCtorEq, iff_false]
    split
    · split
      · simp
      · split <;> simp
    · simp

/-- The exit code of a report is zero exactly when every field is equal or unmanaged. -/
theorem exitCode_checkResult (config : MissionConfig) (snapshot : MissionSnapshot) :
    (checkResult config snapshot).exitCode = 0 ↔
      ∀ field, fieldState (config.get field) (snapshot.get field) = .equal ∨
        fieldState (config.get field) (snapshot.get field) = .unmanaged := by
  have hfields : (∀ field, fieldState (config.get field) (snapshot.get field) = .equal ∨
        fieldState (config.get field) (snapshot.get field) = .unmanaged) ↔
      (fieldState config.retainMission snapshot.retainMission = .equal ∨
        fieldState config.retainMission snapshot.retainMission = .unmanaged) ∧
      (fieldState config.observationsMission snapshot.observationsMission = .equal ∨
        fieldState config.observationsMission snapshot.observationsMission = .unmanaged) := by
    constructor
    · intro h
      exact ⟨h .retainMission, h .observationsMission⟩
    · rintro ⟨hretain, hobservations⟩ field
      cases field
      · exact hretain
      · exact hobservations
  rw [hfields]
  simp only [checkResult]
  generalize fieldState config.retainMission snapshot.retainMission = r
  generalize fieldState config.observationsMission snapshot.observationsMission = o
  cases r <;> cases o <;> decide

/-- For texts that are not blank, `missions check` reports no difference exactly when
`missions apply` has nothing to write, and what it writes otherwise is accepted by the client. -/
theorem check_agrees {config : MissionConfig} (hconfig : config.Nonblank)
    (snapshot : MissionSnapshot) :
    let updates := missionUpdates (desiredMissions config) snapshot
    let after := expectedSnapshot snapshot updates
    ((checkResult config snapshot).exitCode = 0 ↔ updates = []) ∧
      (updates ≠ [] → validateMissionUpdates updates = some updates) ∧
      (checkResult config after).exitCode = 0 ∧
      missionUpdates (desiredMissions config) after = [] := by
  intro updates after
  have hclean : ∀ snapshot : MissionSnapshot, (checkResult config snapshot).exitCode = 0 ↔
      missionUpdates (desiredMissions config) snapshot = [] := by
    intro snapshot
    rw [exitCode_checkResult, missionUpdates_eq_nil]
    refine forall_congr' fun field => ?_
    rw [fieldState_unmanaged]
    cases hget : config.get field with
    | none => simp
    | some t => simp [fieldState_equal (hconfig field t hget)]
  have hafter : missionUpdates (desiredMissions config) after = [] := by
    rw [missionUpdates_eq_nil]
    intro field t hget
    have hreplaces := expectedSnapshot_replaces config snapshot field
    rw [hget] at hreplaces
    exact hreplaces
  refine ⟨hclean snapshot, fun hsome => ?_, (hclean after).mpr hafter, hafter⟩
  rw [validateMissionUpdates, if_neg hsome, if_neg]
  rw [List.any_eq_true]
  rintro ⟨p, hp, hblank⟩
  have hdesired := mem_desiredMissions.mp (List.mem_of_mem_filter hp)
  rw [hconfig p.1 p.2 hdesired] at hblank
  cases hblank

/-! ## A server that stores what it is sent -/

/-- The fields of the response of a bank. -/
def bankConfigFields (bankId : Text) (config overrides : Payload) : Payload where
  entries := [("bank_id".toList, .str bankId), ("config".toList, object config),
    ("overrides".toList, object overrides)]
  nodup := (by decide : ["bank_id".toList, "config".toList, "overrides".toList].Nodup)

def bankConfigResponse (bankId : Text) (config overrides : Payload) : JsonValue :=
  object (bankConfigFields bankId config overrides)

/-- The configuration of a bank after a PATCH. -/
def storeUpdates (config : Payload) (updates : List (MissionField × Text)) : Payload :=
  updates.foldl (fun config p => config.set p.1.key (.str p.2)) config

theorem decodeBankConfig_response (bankId : Text) (config overrides : Payload) :
    decodeBankConfig (bankConfigResponse bankId config overrides) bankId =
      (missionValue config .retainMission).bind fun retain =>
        (missionValue config .observationsMission).map fun observations =>
          ⟨retain, observations⟩ := by
  have hbank : (bankConfigFields bankId config overrides).get? "bank_id".toList =
      some (.str bankId) := rfl
  have hconfig : (bankConfigFields bankId config overrides).get? "config".toList =
      some (object config) := rfl
  have hoverrides : (bankConfigFields bankId config overrides).get? "overrides".toList =
      some (object overrides) := rfl
  have htext : (JsonValue.str bankId).text? = some bankId := rfl
  have hshape : validateBankConfigResponseShape (bankConfigResponse bankId config overrides) =
      some (bankId, config) := by
    simp only [validateBankConfigResponseShape, bankConfigResponse, mapping_object,
      Option.bind_eq_bind, Option.bind_some, hbank, hconfig, hoverrides, htext, Option.pure_def]
  simp only [decodeBankConfig, hshape, Option.bind_eq_bind, Option.bind_some, Option.pure_def,
    guard_true, Option.map_eq_bind]
  rfl

theorem missionValue_set (config : Payload) (field field' : MissionField) (t : Text) :
    missionValue (config.set field.key (.str t)) field' =
      if field' = field then some ⟨true, some t⟩ else missionValue config field' := by
  have hkey : field'.key = field.key ↔ field' = field := by
    cases field <;> cases field' <;> decide
  simp only [missionValue, Dict.get?_set, hkey]
  by_cases hfield : field' = field
  · simp only [if_pos hfield]
    rfl
  · simp only [if_neg hfield]

theorem missionValue_storeUpdates {updates : List (MissionField × Text)}
    (hnodup : (updates.map Prod.fst).Nodup) (config : Payload) (field : MissionField) :
    missionValue (storeUpdates config updates) field =
      match updates.lookup field with
      | some t => some ⟨true, some t⟩
      | none => missionValue config field := by
  induction updates generalizing config with
  | nil => rfl
  | cons p updates ih =>
    obtain ⟨field', t⟩ := p
    rw [List.map_cons, List.nodup_cons] at hnodup
    have hstep : storeUpdates config ((field', t) :: updates) =
        storeUpdates (config.set field'.key (.str t)) updates := rfl
    rw [hstep, ih hnodup.2, missionValue_set, List.lookup_cons]
    by_cases hfield : field = field'
    · subst hfield
      have habsent : updates.lookup field = none := by
        rw [List.lookup_eq_none_iff]
        intro p hp
        have hne : p.1 ≠ field := fun h => hnodup.1 (List.mem_map.mpr ⟨p, hp, h⟩)
        simpa using hne.symm
      rw [habsent]
      simp
    · simp only [if_neg hfield, beq_eq_false_iff_ne.mpr hfield]

/-- Where the server stores exactly what the PATCH carries, the GET after it reads the expected
snapshot. -/
theorem readback_of_store {bankId : Text} {config overrides : Payload} {before : MissionSnapshot}
    (h : decodeBankConfig (bankConfigResponse bankId config overrides) bankId = some before)
    {updates : List (MissionField × Text)} (hnodup : (updates.map Prod.fst).Nodup) :
    decodeBankConfig (bankConfigResponse bankId (storeUpdates config updates) overrides) bankId =
      some (expectedSnapshot before updates) := by
  rw [decodeBankConfig_response] at h ⊢
  obtain ⟨retain, hretain, h⟩ := Option.bind_eq_some_iff.mp h
  obtain ⟨observations, hobservations, rfl⟩ := Option.map_eq_some_iff.mp h
  rw [missionValue_storeUpdates hnodup, missionValue_storeUpdates hnodup, hretain, hobservations]
  simp only [expectedSnapshot]
  cases updates.lookup .retainMission <;> cases updates.lookup .observationsMission <;> rfl

theorem nodup_missionUpdates (config : MissionConfig) (before : MissionSnapshot) :
    ((missionUpdates (desiredMissions config) before).map Prod.fst).Nodup := by
  have hfields : ((desiredMissions config).map Prod.fst).Nodup := by
    have hsublist : ((desiredMissions config).map Prod.fst).Sublist
        [MissionField.retainMission, .observationsMission] := by
      cases hretain : config.retainMission <;> cases hobservations : config.observationsMission <;>
        simp [desiredMissions, MissionConfig.get, hretain, hobservations]
    exact hsublist.nodup (by decide)
  exact hfields.sublist (List.filter_sublist.map Prod.fst)

/-- Where the server stores exactly what the PATCH carries, the GET after it reads the expected
snapshot, the report on it is clean and a second apply has nothing to write. -/
theorem apply_converges {config : MissionConfig} (hconfig : config.Nonblank) {bankId : Text}
    {stored overrides : Payload} {before : MissionSnapshot}
    (h : decodeBankConfig (bankConfigResponse bankId stored overrides) bankId = some before) :
    let updates := missionUpdates (desiredMissions config) before
    let after := expectedSnapshot before updates
    ((checkResult config before).exitCode = 0 ↔ updates = []) ∧
      (updates ≠ [] → validateMissionUpdates updates = some updates) ∧
      decodeBankConfig (bankConfigResponse bankId (storeUpdates stored updates) overrides) bankId =
        some after ∧
      (checkResult config after).exitCode = 0 ∧
      missionUpdates (desiredMissions config) after = [] := by
  intro updates after
  obtain ⟨hreport, haccepted, hclean, hnothing⟩ := check_agrees hconfig before
  exact ⟨hreport, haccepted, readback_of_store h (nodup_missionUpdates config before), hclean,
    hnothing⟩

/-- A bank whose mission has drifted and one that is not managed. -/
def driftedBank : Payload where
  entries := [("retain_mission".toList, .str "Tea?".toList)]
  nodup := (by decide : ["retain_mission".toList].Nodup)

theorem apply_converges_drifted :
    let config : MissionConfig := ⟨some "Keep tea.".toList, none⟩
    let before : MissionSnapshot := ⟨⟨true, some "Tea?".toList⟩, ⟨false, none⟩⟩
    let after := expectedSnapshot before (missionUpdates (desiredMissions config) before)
    (checkResult config after).exitCode = 0 := by
  intro config before after
  have hconfig : config.Nonblank := by
    intro field t h
    cases field with
    | retainMission =>
      obtain rfl := Option.some.inj h
      decide +kernel
    | observationsMission => cases h
  have hdecoded : decodeBankConfig (bankConfigResponse "b".toList driftedBank .empty) "b".toList =
      some before := by
    rw [decodeBankConfig_response]
    rfl
  exact (apply_converges hconfig hdecoded).2.2.2.1

end BetterHindsight.Missions
