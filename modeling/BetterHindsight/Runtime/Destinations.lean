import BetterHindsight.Runtime.Delivery

/-! # Destinations

A row is claimed and sent only under configurations with the destination of the one that it was
admitted under, however many configurations share the outbox over time.

* `BelongsTo`: the row carries the fingerprint that a configuration gives to rows of its schema.
* `ComesFrom`: the row was admitted under a configuration, or an older release left it for its
  destination.
* `no_cross_destination`: what a sender under another configuration can do with it. -/

namespace BetterHindsight
set_option autoImplicit false

/-! ## Fingerprints of rows -/

def BelongsTo (lib : Stdlib) (config : BetterHindsightConfig) (row : RowIdentity) : Prop :=
  ∃ digest : HexDigest, row.destinationFingerprint = digest.text ∧
    ((row.payloadSchema = PAYLOAD_SCHEMA_VERSION ∧
        config.destinationFingerprint lib = .ok digest) ∨
      (row.payloadSchema = LEGACY_PAYLOAD_SCHEMA_VERSION ∧
        config.legacyDestinationFingerprint lib = .ok digest) ∨
      (row.payloadSchema = MULTIMODAL_PAYLOAD_SCHEMA ∧
        config.multimodalDestinationFingerprint lib = .ok digest))

/-- A row of this schema that was admitted under `a` may be sent under `b`. -/
def MaySend (a b : BetterHindsightConfig) (payloadSchema : Text) : Prop :=
  a.destination = b.destination ∧ (payloadSchema = MULTIMODAL_PAYLOAD_SCHEMA →
    a.admissionPolicy = b.admissionPolicy ∧ b.multimodal.enabled = true ∧ b.retain.enabled = true)

theorem schemas_ne : PAYLOAD_SCHEMA_VERSION ≠ LEGACY_PAYLOAD_SCHEMA_VERSION ∧
    PAYLOAD_SCHEMA_VERSION ≠ MULTIMODAL_PAYLOAD_SCHEMA ∧
    LEGACY_PAYLOAD_SCHEMA_VERSION ≠ MULTIMODAL_PAYLOAD_SCHEMA := by
  refine ⟨?_, ?_, ?_⟩ <;> decide +kernel

section Fingerprints
variable {lib : Stdlib} {a b : BetterHindsightConfig} {texts : Text → Prop}

/-- A row that is eligible under `b` and belongs to `a` may be sent from `a` to `b`. -/
theorem BelongsTo.maySend (hs : StableUrls lib) (hcf : lib.CollisionFree texts)
    (ha : Accepted lib a) (hb : Accepted lib b) (hta : ∀ t ∈ a.fingerprintTexts lib, texts t)
    (htb : ∀ t ∈ b.fingerprintTexts lib, texts t) {outbox : SQLiteOutbox}
    (hof : outbox.HandleOf lib b) {row : RowIdentity} (hrow : BelongsTo lib a row)
    (hel : outbox.isEligible row = true) : MaySend a b row.payloadSchema := by
  obtain ⟨digest, hdigest, hschema⟩ := hrow
  have hplain : ∀ schema ∈ [PAYLOAD_SCHEMA_VERSION, LEGACY_PAYLOAD_SCHEMA_VERSION],
      ∀ {d e : HexDigest}, a.fingerprintFor lib schema = .ok d →
      b.fingerprintFor lib schema = .ok e → d.text = e.text → a.destination = b.destination := by
    intro schema hmem d e hd he heq
    have hmem' : schema ∈ [PAYLOAD_SCHEMA_VERSION, LEGACY_PAYLOAD_SCHEMA_VERSION,
        MULTIMODAL_PAYLOAD_SCHEMA] := List.mem_append_left [MULTIMODAL_PAYLOAD_SCHEMA] hmem
    have htext : ∀ config : BetterHindsightConfig,
        config.destinationText schema ∈ config.fingerprintTexts lib := by
      intro config
      simp only [List.mem_cons, List.not_mem_nil, or_false] at hmem
      rcases hmem with rfl | rfl <;> simp [BetterHindsightConfig.fingerprintTexts]
    rw [ha.fingerprintFor_eq hs hmem'] at hd
    rw [hb.fingerprintFor_eq hs hmem'] at he
    obtain rfl := Except.ok.inj hd
    obtain rfl := Except.ok.inj he
    exact (destination_eq_of_sha256 hcf (hta _ (htext a)) (htb _ (htext b)) (HexDigest.ext heq)).1
  obtain ⟨hne₁, hne₂, hne₃⟩ := schemas_ne
  have hnonempty : row.destinationFingerprint ≠ [] := by
    rw [hdigest]
    exact digest.ne_nil
  rcases (hof.isEligible_iff hnonempty).mp hel with ⟨hs', heq⟩ | ⟨hs', heq⟩ | ⟨hs', heq, hon⟩
  · rcases hschema with ⟨-, hfp⟩ | ⟨h, -⟩ | ⟨h, -⟩
    · refine ⟨hplain _ (by simp) hfp hof.destination (hdigest ▸ heq), fun h => ?_⟩
      exact absurd (hs'.symm.trans h) hne₂
    · exact absurd (hs'.symm.trans h) hne₁
    · exact absurd (hs'.symm.trans h) hne₂
  · rcases hschema with ⟨h, -⟩ | ⟨-, hfp⟩ | ⟨h, -⟩
    · exact absurd (h.symm.trans hs') hne₁
    · refine ⟨hplain _ (by simp) hfp hof.legacy (hdigest ▸ heq), fun h => ?_⟩
      exact absurd (hs'.symm.trans h) hne₃
    · exact absurd (hs'.symm.trans h) hne₃
  · rcases hschema with ⟨h, -⟩ | ⟨h, -⟩ | ⟨-, hfp⟩
    · exact absurd (h.symm.trans hs') hne₂
    · exact absurd (h.symm.trans hs') hne₃
    · have hof' := hof.multimodal
      rw [ha.multimodalFingerprint_eq hs] at hfp
      rw [hb.multimodalFingerprint_eq hs] at hof'
      rw [hdigest, ← Except.ok.inj hfp, ← Except.ok.inj hof'] at heq
      obtain ⟨hdest, hpolicy⟩ := policy_eq_of_sha256 hcf hta htb (HexDigest.ext heq)
      exact ⟨hdest, fun _ => ⟨hpolicy, hon⟩⟩

/-- An admitted row belongs to the configuration of its handle. -/
theorem belongsTo_admittedRow {outbox : SQLiteOutbox} (hof : outbox.HandleOf lib a)
    {segment : RetainedSegment} (hvalid : outbox.ValidSegment lib segment)
    (timestamp : WallTime) : BelongsTo lib a (outbox.admittedRow timestamp segment).toRowIdentity := by
  show ∃ digest : HexDigest, outbox.fingerprint segment = digest.text ∧ _
  rcases hvalid.schema with hschema | hschema
  · have hne : segment.payloadSchema ≠ MULTIMODAL_PAYLOAD_SCHEMA := by
      rw [hschema]
      exact schemas_ne.2.1
    rw [SQLiteOutbox.fingerprint, if_neg hne]
    exact ⟨_, rfl, .inl ⟨hschema, hof.destination⟩⟩
  · rw [SQLiteOutbox.fingerprint, if_pos hschema]
    exact ⟨_, rfl, .inr (.inr ⟨hschema, hof.multimodal⟩)⟩

end Fingerprints

/-! ## Where rows come from -/

/-- The transition admits the row under the configuration. -/
def AdmittedUnder (lib : Stdlib) (config : BetterHindsightConfig)
    (e : Transition System (ℕ × SystemEvent)) (row : RowIdentity) : Prop :=
  ∃ pid process segments timestamp faults,
    e.label = (pid, .step (.admission segments timestamp faults)) ∧
    e.before.processes pid = .alive process ∧ process.outbox.HandleOf lib config ∧
    ¬ Stored e.before.table row ∧ Stored e.after.table row

/-- After the transitions `tr` from `s` the row is one that the configuration put there. -/
def ComesFrom (lib : Stdlib) (configs : List BetterHindsightConfig) (s : System)
    (tr : List (Transition System (ℕ × SystemEvent))) (config : BetterHindsightConfig)
    (row : RowIdentity) : Prop :=
  (∃ e ∈ tr, AdmittedUnder lib config e row) ∨
    (config ∈ configs ∧ Accepted lib config ∧ Stored s.table row ∧
      row.payloadSchema = LEGACY_PAYLOAD_SCHEMA_VERSION ∧ ∃ digest : HexDigest,
        config.legacyDestinationFingerprint lib = .ok digest ∧
          row.destinationFingerprint = digest.text)

section Tables
variable {t : OutboxTable} {row : RowIdentity}

theorem Stored.of_updateRow {documentId : Text} {f : RowProgress → RowProgress}
    (h : Stored (t.updateRow documentId f) row) : Stored t row := by
  obtain ⟨r, hr, rfl⟩ := h
  rcases OutboxTable.mem_updateRow.mp hr with ⟨hr, -⟩ | ⟨r', hr', -, rfl⟩
  · exact ⟨r, hr, rfl⟩
  · exact ⟨r', hr', rfl⟩

theorem Stored.of_recovered {now : ℚ} (h : Stored (t.recovered now) row) : Stored t row := by
  obtain ⟨r, hr, rfl⟩ := h
  rcases OutboxTable.mem_recovered.mp hr with ⟨hr, -⟩ | ⟨r', hr', -, rfl⟩
  · exact ⟨r, hr, rfl⟩
  · exact ⟨r', hr', rfl⟩

end Tables

def LocalEvent.isRecovery : LocalEvent → Bool
  | recover _ _ _ => true
  | _ => false

section Steps
variable {lib : Stdlib} {configs : List BetterHindsightConfig} {pid : ℕ} {v v' : View}

/-- A row that a step stores is stored already, or the step admits it for the destination of its
handle. -/
theorem LocalStep.stored {event : LocalEvent} (hstep : LocalStep lib pid v event v')
    {row : RowIdentity} (h : Stored v'.table row) : Stored v.table row ∨
      (∃ segments timestamp faults, event = .admission segments timestamp faults) ∧
        ∀ config, v.process.outbox.HandleOf lib config → BelongsTo lib config row := by
  cases hstep with
  | @admission segments timestamp faults result t hrun =>
    obtain ⟨r, hr, rfl⟩ := h
    replace hr : r ∈ t.rows := hr
    have hcases := v.process.outbox.admit_cases lib segments timestamp faults v.table
    rw [hrun] at hcases
    rcases hcases with rfl | ⟨turn, hturn, -, hrows⟩
    · exact .inl ⟨r, hr, rfl⟩
    · rw [hrows, List.mem_append, List.mem_map] at hr
      rcases hr with hr | ⟨segment, hsegment, rfl⟩
      · exact .inl ⟨r, hr, rfl⟩
      · exact .inr ⟨⟨segments, timestamp, faults, rfl⟩, fun config hof =>
          belongsTo_admittedRow hof (hturn.valid segment (SQLiteOutbox.mem_absent.mp hsegment).1) _⟩
  | @recover owner now faults result t pc hrun =>
    rcases v.process.outbox.recoverSending_cases owner now faults v.table with
      heq | ⟨q, -, -, heq⟩
    · obtain ⟨-, rfl⟩ := Prod.mk.inj (hrun.symm.trans heq)
      exact .inl h
    · obtain ⟨-, rfl⟩ := Prod.mk.inj (hrun.symm.trans heq)
      exact .inl h.of_recovered
  | @claim owner now faults result t pc hrun =>
    rcases v.process.outbox.claimDue_cases owner now faults v.table with
      heq | ⟨q, -, ⟨-, heq⟩ | ⟨due, -, -, heq⟩⟩
    · obtain ⟨-, rfl⟩ := Prod.mk.inj (hrun.symm.trans heq)
      exact .inl h
    · obtain ⟨-, rfl⟩ := Prod.mk.inj (hrun.symm.trans heq)
      exact .inl h
    · obtain ⟨-, rfl⟩ := Prod.mk.inj (hrun.symm.trans heq)
      exact .inl h.of_updateRow
  | @complete owner faults claimed id result t pc hrun =>
    rcases v.process.outbox.completeClaim_cases owner claimed.documentId claimed.attemptCount faults
      v.table with heq | ⟨r, -, -, -, -, -, heq⟩
    · obtain ⟨-, rfl⟩ := Prod.mk.inj (hrun.symm.trans heq)
      exact .inl h
    · obtain ⟨-, rfl⟩ := Prod.mk.inj (hrun.symm.trans heq)
      obtain ⟨r', hr', hid⟩ := h
      exact .inl ⟨r', (OutboxTable.mem_deleteRow.mp hr').1, hid⟩
  | @reschedule owner completedAt faults claimed category result t pc hrun =>
    rcases v.process.outbox.rescheduleClaim_cases lib owner claimed.documentId claimed.attemptCount
      category completedAt faults v.table with heq | ⟨r, -, -, -, -, -, q, next, -, -, heq⟩
    · obtain ⟨-, rfl⟩ := Prod.mk.inj (hrun.symm.trans heq)
      exact .inl h
    · obtain ⟨-, rfl⟩ := Prod.mk.inj (hrun.symm.trans heq)
      exact .inl h.of_updateRow
  | _ => exact .inl h

/-- Apart from `recover_sending`, a step leaves the rows alone that its handle may not send. -/
theorem LocalStep.keeps_ineligible {event : LocalEvent} (hinv : ProcessInvariant lib configs pid v)
    (hstep : LocalStep lib pid v event v') (hevent : event.isRecovery = false) {row : OutboxRow}
    (hrow : row ∈ v.table.rows) (hel : v.process.outbox.isEligible row.toRowIdentity = false) :
    row ∈ v'.table.rows := by
  -- the key of a claim is the document id of an eligible row, so never that of this one
  have hkey : ∀ claimed, v.process.pc.claim? = some claimed →
      row.documentId ≠ claimed.documentId := by
    intro claimed hpc hid
    obtain ⟨hmem, -, hclaimed⟩ := hinv.claimed claimed hpc
    obtain rfl := OutboxTable.eq_of_documentId hrow hmem hid
    rw [hel] at hclaimed
    cases hclaimed
  cases hstep with
  | admission hrun => exact admit_keeps hrun hrow
  | recover pc hrun => cases hevent
  | @claim owner now faults result t pc hrun =>
    rcases v.process.outbox.claimDue_cases owner now faults v.table with
      heq | ⟨q, -, ⟨-, heq⟩ | ⟨due, hdue, -, heq⟩⟩
    · obtain ⟨-, rfl⟩ := Prod.mk.inj (hrun.symm.trans heq)
      exact hrow
    · obtain ⟨-, rfl⟩ := Prod.mk.inj (hrun.symm.trans heq)
      exact hrow
    · obtain ⟨-, rfl⟩ := Prod.mk.inj (hrun.symm.trans heq)
      obtain ⟨hmem, hisdue⟩ := SQLiteOutbox.isDue_of_dueRow hdue
      refine OutboxTable.mem_updateRow.mpr (.inl ⟨hrow, fun hid => ?_⟩)
      obtain rfl := OutboxTable.eq_of_documentId hrow hmem hid
      rw [(SQLiteOutbox.isDue_iff.mp hisdue).2.2] at hel
      cases hel
  | @complete owner faults claimed id result t pc hrun =>
    rcases v.process.outbox.completeClaim_cases owner claimed.documentId claimed.attemptCount faults
      v.table with heq | ⟨r, -, -, -, -, -, heq⟩
    · obtain ⟨-, rfl⟩ := Prod.mk.inj (hrun.symm.trans heq)
      exact hrow
    · obtain ⟨-, rfl⟩ := Prod.mk.inj (hrun.symm.trans heq)
      exact OutboxTable.mem_deleteRow.mpr ⟨hrow, hkey claimed (by rw [pc]; rfl)⟩
  | @reschedule owner completedAt faults claimed category result t pc hrun =>
    rcases v.process.outbox.rescheduleClaim_cases lib owner claimed.documentId claimed.attemptCount
      category completedAt faults v.table with heq | ⟨r, -, -, -, -, -, q, next, -, -, heq⟩
    · obtain ⟨-, rfl⟩ := Prod.mk.inj (hrun.symm.trans heq)
      exact hrow
    · obtain ⟨-, rfl⟩ := Prod.mk.inj (hrun.symm.trans heq)
      exact OutboxTable.mem_updateRow.mpr (.inl ⟨hrow, hkey claimed (by rw [pc]; rfl)⟩)
  | _ => exact hrow

end Steps

/-! ## Runs -/

/-- `claim_due` under the configuration returns a row with these columns. -/
def ClaimedUnder (lib : Stdlib) (config : BetterHindsightConfig)
    (e : Transition System (ℕ × SystemEvent)) (row : RowIdentity) : Prop :=
  ∃ pid process owner now faults claimed,
    e.label = (pid, .step (.claim owner now faults)) ∧
    e.before.processes pid = .alive process ∧ process.outbox.HandleOf lib config ∧
    (process.outbox.claimDue owner now faults e.before.table).1 = .claimed claimed ∧
    claimed.toRowIdentity = row

/-- The sender under the configuration starts the retain call for a row with these columns. -/
def SentUnder (lib : Stdlib) (config : BetterHindsightConfig)
    (e : Transition System (ℕ × SystemEvent)) (row : RowIdentity) : Prop :=
  ∃ pid process id claimed, e.label = (pid, .step (.startRetain id)) ∧
    e.before.processes pid = .alive process ∧ process.outbox.HandleOf lib config ∧
    process.pc = .running claimed ∧ claimed.toRowIdentity = row

/-- A process under the configuration makes a step other than `recover_sending`, such as
`claim_due`, `complete_claim` or `reschedule_claim`. -/
def StepsUnder (lib : Stdlib) (config : BetterHindsightConfig)
    (e : Transition System (ℕ × SystemEvent)) : Prop :=
  ∃ pid process event, e.label = (pid, .step event) ∧ event.isRecovery = false ∧
    e.before.processes pid = .alive process ∧ process.outbox.HandleOf lib config

section Runs
variable {lib : Stdlib} {configs : List BetterHindsightConfig} {s s' : System}

theorem OpenedUnder.of_handleOf {outbox : SQLiteOutbox} {config : BetterHindsightConfig}
    (h : OpenedUnder lib configs outbox) (hof : outbox.HandleOf lib config) :
    config ∈ configs ∧ Accepted lib config := by
  obtain ⟨config', hmem, hacc, hof'⟩ := h
  obtain rfl : config' = config := hof'.config_eq.symm.trans hof.config_eq
  exact ⟨hmem, hacc⟩

/-- A row that a step stores is stored already, or the step admits it. -/
theorem SystemInvariant.stored_origin {l : ℕ × SystemEvent} (h : SystemInvariant lib configs s)
    (hstep : SystemStep lib configs s l s') {row : RowIdentity} (hstored : Stored s'.table row) :
    Stored s.table row ∨ ∃ config ∈ configs, AdmittedUnder lib config ⟨s, l, s'⟩ row := by
  by_cases hbefore : Stored s.table row
  · exact .inl hbefore
  · right
    cases hstep with
    | start unborn opened isOpen => exact absurd hstored hbefore
    | crash alive => exact absurd hstored hbefore
    | @step pid process event v alive step =>
      rcases step.stored hstored with hkept | ⟨⟨segments, timestamp, faults, rfl⟩, -⟩
      · exact absurd hkept hbefore
      · obtain ⟨config, hmem, -, hof⟩ := (h pid process alive).opened
        exact ⟨config, hmem, pid, process, segments, timestamp, faults, rfl, alive, hof, hbefore,
          hstored⟩

/-- Every stored row comes from a configuration in use. -/
theorem exists_comesFrom {tr : List (Transition System (ℕ × SystemEvent))}
    (h₀ : s.Initial lib configs) (hrun : Run (SystemStep lib configs) s tr s') {row : RowIdentity}
    (hstored : Stored s'.table row) : ∃ config ∈ configs, ComesFrom lib configs s tr config row := by
  induction hrun with
  | nil =>
    obtain ⟨r, hr, rfl⟩ := hstored
    obtain ⟨-, hschema, config, hmem, hacc, digest, hdigest, hrow⟩ := h₀.table r hr
    exact ⟨config, hmem, .inr ⟨hmem, hacc, ⟨r, hr, rfl⟩, hschema, digest, hdigest, hrow⟩⟩
  | @snoc a b tr' l hr hl ih =>
    have hinv := systemInvariant_of_reachable ⟨s, tr', h₀, hr⟩
    rcases hinv.stored_origin hl hstored with hkept | ⟨config, hmem, hadmitted⟩
    · obtain ⟨config, hmem, ⟨e, he, hadmitted⟩ | holder⟩ := ih hkept
      · exact ⟨config, hmem, .inl ⟨e, List.mem_append_left _ he, hadmitted⟩⟩
      · exact ⟨config, hmem, .inr holder⟩
    · exact ⟨config, hmem, .inl ⟨_, by simp, hadmitted⟩⟩

/-- A configuration that a row comes from is in use, accepted, and the one the row belongs to. -/
theorem ComesFrom.belongsTo {tr : List (Transition System (ℕ × SystemEvent))}
    (h₀ : s.Initial lib configs) (hrun : Run (SystemStep lib configs) s tr s')
    {config : BetterHindsightConfig} {row : RowIdentity}
    (h : ComesFrom lib configs s tr config row) :
    config ∈ configs ∧ Accepted lib config ∧ BelongsTo lib config row := by
  rcases h with ⟨e, he, pid, process, segments, timestamp, faults, hlabel, halive, hof, hnew, hold⟩ |
    ⟨hmem, hacc, -, hschema, digest, hdigest, hrow⟩
  · obtain ⟨hinv, hstep⟩ := hrun.invariant_at h₀.invariant (fun _ _ _ ha hab => ha.step hab) e he
    obtain ⟨hmem, hacc⟩ := (hinv pid process halive).opened.of_handleOf hof
    rw [hlabel] at hstep
    obtain ⟨process', v, halive', hlocal, hafter⟩ := hstep.localStep
    obtain rfl := Lifetime.alive.inj (halive'.symm.trans halive)
    rw [hafter] at hold
    rcases hlocal.stored hold with hkept | ⟨-, hbelongs⟩
    · exact absurd hkept hnew
    · exact ⟨hmem, hacc, hbelongs config hof⟩
  · exact ⟨hmem, hacc, digest, hrow, .inr (.inl ⟨hschema, hdigest⟩)⟩

/-- **No delivery across destinations.** -/
theorem no_cross_destination {tr₁ tr₂ : List (Transition System (ℕ × SystemEvent))}
    {e : Transition System (ℕ × SystemEvent)} (hs : StableUrls lib)
    (hcf : lib.CollisionFree fun text => ∃ config ∈ configs, text ∈ config.fingerprintTexts lib)
    (h₀ : s.Initial lib configs) (hrun : Run (SystemStep lib configs) s (tr₁ ++ e :: tr₂) s') :
    (∀ b row, ClaimedUnder lib b e row ∨ SentUnder lib b e row →
      (∃ a ∈ configs, ComesFrom lib configs s tr₁ a row) ∧
        ∀ a, ComesFrom lib configs s tr₁ a row → MaySend a b row.payloadSchema) ∧
    ∀ b, StepsUnder lib b e → ∀ row ∈ e.before.table.rows, ∀ a,
      ComesFrom lib configs s tr₁ a row.toRowIdentity → ¬ MaySend a b row.payloadSchema →
        row ∈ e.after.table.rows := by
  obtain ⟨hbefore, hstep, -⟩ := hrun.split
  have hinv := systemInvariant_of_reachable ⟨s, tr₁, h₀, hbefore⟩
  have hmaySend : ∀ {pid process b row a}, e.before.processes pid = .alive process →
      process.outbox.HandleOf lib b → process.outbox.isEligible row = true →
      ComesFrom lib configs s tr₁ a row → MaySend a b row.payloadSchema := by
    intro pid process b row a halive hof hel hcomes
    obtain ⟨hmem, hacc, hbelongs⟩ := hcomes.belongsTo h₀ hbefore
    obtain ⟨hmem', hacc'⟩ := (hinv pid process halive).opened.of_handleOf hof
    exact hbelongs.maySend hs hcf hacc hacc' (fun _ ht => ⟨a, hmem, ht⟩)
      (fun _ ht => ⟨b, hmem', ht⟩) hof hel
  constructor
  · rintro b row (⟨pid, process, owner, now, faults, claimed, -, halive, hof, hclaim, rfl⟩ |
      ⟨pid, process, id, claimed, -, halive, hof, hpc, rfl⟩)
    · have hstored : Stored e.before.table claimed.toRowIdentity := by
        rcases process.outbox.claimDue_cases owner now faults e.before.table with
          heq | ⟨q, -, ⟨-, heq⟩ | ⟨due, hdue, -, heq⟩⟩
        · rw [heq] at hclaim
          cases hclaim
        · rw [heq] at hclaim
          cases hclaim
        · rw [heq] at hclaim
          cases hclaim
          exact ⟨due, (SQLiteOutbox.isDue_of_dueRow hdue).1, rfl⟩
      exact ⟨exists_comesFrom h₀ hbefore hstored, fun a hcomes =>
        hmaySend halive hof (SQLiteOutbox.isEligible_of_claimed hclaim) hcomes⟩
    · obtain ⟨hmem, -, hel⟩ := (hinv pid process halive).claimed claimed (by
        show SenderPc.claim? process.pc = _
        rw [hpc]
        rfl)
      exact ⟨exists_comesFrom h₀ hbefore ⟨claimed, hmem, rfl⟩, fun a hcomes =>
        hmaySend halive hof hel hcomes⟩
  · rintro b ⟨pid, process, event, hlabel, hevent, halive, hof⟩ row hrow a hcomes hnot
    rw [hlabel] at hstep
    obtain ⟨process', v, halive', hlocal, hafter⟩ := hstep.localStep
    obtain rfl := Lifetime.alive.inj (halive'.symm.trans halive)
    rw [hafter]
    refine hlocal.keeps_ineligible (hinv pid process' halive) hevent hrow ?_
    by_contra hel
    exact hnot (hmaySend halive hof (by simpa using hel) hcomes)

end Runs

theorem no_cross_destination_legacySystem : ∃ tr e s',
    Run (SystemStep (.ofDigests destinationDigests) [defaultConfig, otherConfig]) legacySystem
      (tr ++ [e]) s' ∧
    ClaimedUnder (.ofDigests destinationDigests) defaultConfig e legacyClaim.toRowIdentity ∧
    (∃ a ∈ [defaultConfig, otherConfig], ComesFrom (.ofDigests destinationDigests)
      [defaultConfig, otherConfig] legacySystem tr a legacyClaim.toRowIdentity) ∧
    legacyTable.rows[1] ∈ e.after.table.rows := by
  obtain ⟨_, hclaiming⟩ := exists_claiming_run
  obtain ⟨tr, hbefore⟩ := exists_legacy_run hclaiming
  have hrun := hbefore.snoc (View.solo_step (.claim rfl claimDue_legacyTable))
  have hclaimed : ∀ after, ClaimedUnder (.ofDigests destinationDigests) defaultConfig
      ⟨(legacyOwner .claiming false .new).solo,
        (0, .step (.claim ⟨true, true⟩ (.finite 1) [])), after⟩ legacyClaim.toRowIdentity :=
    fun after => ⟨0, (legacyOwner .claiming false .new).process, _, _, _, _, rfl, rfl,
      SQLiteOutbox.handleOf_default, congrArg Prod.fst claimDue_legacyTable, rfl⟩
  obtain ⟨horigin, hkept⟩ := no_cross_destination (stableUrls_ofDigests _)
    collisionFree_destinationDigests legacySystem_initial hrun
  have hcomes : ComesFrom (.ofDigests destinationDigests) [defaultConfig, otherConfig] legacySystem
      tr otherConfig legacyTable.rows[1].toRowIdentity :=
    .inr ⟨by simp, accepted_other _, ⟨legacyTable.rows[1], by decide, rfl⟩, rfl, _,
      legacyFingerprint_other, rfl⟩
  have hnot : ¬ MaySend otherConfig defaultConfig legacyTable.rows[1].payloadSchema :=
    fun h => absurd (congrArg (fun d => d.2.1) h.1) (by decide)
  refine ⟨tr, _, _, hrun, hclaimed _, (horigin _ _ (.inl (hclaimed _))).1, ?_⟩
  exact hkept defaultConfig ⟨0, (legacyOwner .claiming false .new).process, _, rfl, rfl, rfl,
    SQLiteOutbox.handleOf_default⟩ _ (List.getElem_mem _) otherConfig hcomes hnot

end BetterHindsight
