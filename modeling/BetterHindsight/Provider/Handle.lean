import BetterHindsight.Foundations.Runs
import BetterHindsight.Provider.Authorization

/-! # One provider handle and the threads that call it

`initialize` and `shutdown` write the fields of a provider one after the other, under the session
lock. The hooks and tools read them one after the other and take no lock.

* `ProviderWorld`, `ProviderStep`: every interleaving of the two.
* `Sound`: an open runtime handle belongs to the last initialization, and a flag that is set is one
  which that initialization was granted.
* `calls_authorized`: what reaches the process runtime was permitted to the identity of the
  initialization whose handle carries it.
* `calls_revoked`: a handle that was closed carries nothing more. -/

namespace BetterHindsight.Provider
set_option autoImplicit false

/-! ## State -/

/-- The actions that `validate_args` lets through. -/
inductive ModelAction where
  | list
  | read
  | status
  | create
  | refresh
  | pageBrowse
  | pageSearch
  | pageRead
  deriving DecidableEq

/-- A call of the runtime handle. -/
inductive Operation where
  /-- `prefetch` and the recall tool -/
  | recall
  | reflect
  /-- `sync_turn` and the retain tool -/
  | admitTurn
  /-- the retain tool with attachments -/
  | admitMultimodal
  | mentalModels (action : ModelAction)
  deriving DecidableEq

def Operation.feature : Operation → Feature
  | .recall => .recall
  | .reflect => .reflect
  | .admitTurn | .admitMultimodal => .retain
  | .mentalModels _ => .mentalModels

/-- What a tool checks in the configuration beside the flag of its feature. -/
def Operation.Gated (config : ProviderConfig) : Operation → Prop
  | .admitMultimodal => config.multimodal.enabled = true
  | .mentalModels .create => config.mentalModels.createEnabled = true
  | .mentalModels .refresh => config.mentalModels.refreshEnabled = true
  | .mentalModels .pageBrowse | .mentalModels .pageSearch | .mentalModels .pageRead =>
    config.mentalModels.pagesEnabled = true
  | _ => True

/-- A `ProcessRuntimeHandle`, with the configuration and the identity it was acquired for. -/
structure RuntimeHandle where
  config : ProviderConfig
  identity : Identity
  closed : Bool

def RuntimeHandle.allows (h : RuntimeHandle) (feature : Feature) : Bool :=
  (h.config.authorize h.identity).allows feature

/-- The fields that a call of the provider reads. -/
structure Fields where
  /-- `_config` -/
  config : Option ProviderConfig
  /-- `_recall_enabled` and its siblings -/
  flags : Feature → Bool
  /-- `_runtime` -/
  runtime : Option ℕ

/-- One assignment. -/
inductive Write where
  | config (config : Option ProviderConfig)
  | flag (feature : Feature) (value : Bool)
  | runtime (runtime : Option ℕ)

def Fields.write (p : Fields) : Write → Fields
  | .config config => { p with config }
  | .flag feature value => { p with flags := Function.update p.flags feature value }
  | .runtime runtime => { p with runtime }

/-- The assignments of `_deactivate_locked`. -/
def deactivation : List Write :=
  [.config none, .flag .recall false, .flag .reflect false, .flag .mentalModels false,
    .flag .retain false, .runtime none]

/-- The assignments of `_initialize_locked`. -/
def activation (config : ProviderConfig) (a : MemoryAuthorization) (handle : ℕ) : List Write :=
  [.config (some config), .flag .recall a.recallEnabled, .flag .reflect a.reflectEnabled,
    .flag .mentalModels a.mentalModelsEnabled, .flag .retain a.retainEnabled,
    .runtime (some handle)]

/-- Where the call that holds the session lock is. -/
inductive Session where
  | free
  /-- in `_deactivate_locked`, which has read `runtime`; a call of `initialize` goes on after it -/
  | deactivating (next : Option Identity) (runtime : Option ℕ) (writes : List Write)
  /-- loads the configuration and acquires the runtime -/
  | loading (identity : Identity)
  | activating (handle : ℕ) (writes : List Write)

/-- Where a thread that uses the provider is. -/
inductive Caller where
  | outside
  | entered (op : Operation)
  /-- has read `_config` -/
  | readConfig (op : Operation) (config : Option ProviderConfig)
  /-- has read `_runtime` -/
  | readRuntime (op : Operation) (config : Option ProviderConfig) (runtime : Option ℕ)
  /-- has read the flag and passed every check -/
  | checked (op : Operation) (config : ProviderConfig) (runtime : ℕ)

structure ProviderWorld where
  fields : Fields
  session : Session
  handles : ℕ → Option RuntimeHandle
  callers : ℕ → Caller
  /-- `_ACTIVE_CONFIG` -/
  active : Option ProviderConfig

namespace ProviderWorld

/-- A constructed provider in a process without a runtime. -/
def start : ProviderWorld where
  fields := ⟨none, fun _ => false, none⟩
  session := .free
  handles _ := none
  callers _ := .outside
  active := none

def setCaller (w : ProviderWorld) (t : ℕ) (caller : Caller) : ProviderWorld :=
  { w with callers := Function.update w.callers t caller }

@[simp] theorem setCaller_self (w : ProviderWorld) (t : ℕ) (caller : Caller) :
    (w.setCaller t caller).callers t = caller := Function.update_self ..

/-- `runtime.close()` -/
def closeHandle (w : ProviderWorld) (runtime : Option ℕ) : ProviderWorld :=
  { w with handles := fun i =>
      if runtime = some i then (w.handles i).map fun h => { h with closed := true }
      else w.handles i }

end ProviderWorld

/-! ## Steps -/

inductive ProviderEvent where
  | initializeLocked (identity : Identity)
  | shutdown
  /-- one assignment under the session lock -/
  | write
  /-- the end of `_deactivate_locked` -/
  | close
  /-- no usable configuration, nothing authorized, or no runtime to be had -/
  | abandon
  | acquire (handle : ℕ) (config : ProviderConfig)
  | finish
  /-- `finalize_process_runtime` -/
  | finalize
  | enter (t : ℕ) (op : Operation)
  | readConfig (t : ℕ)
  | readRuntime (t : ℕ)
  | check (t : ℕ)
  /-- `_require_runtime` lets the call through -/
  | call (t : ℕ) (op : Operation) (config : ProviderConfig) (handle : ℕ)
  /-- any return or raise before that -/
  | giveUp (t : ℕ)

inductive ProviderStep : ProviderWorld → ProviderEvent → ProviderWorld → Prop
  | initializeLocked {w : ProviderWorld} {identity : Identity} (hsession : w.session = .free) :
      ProviderStep w (.initializeLocked identity)
        { w with session := .deactivating (some identity) w.fields.runtime deactivation }
  | shutdown {w : ProviderWorld} (hsession : w.session = .free) :
      ProviderStep w .shutdown
        { w with session := .deactivating none w.fields.runtime deactivation }
  | deactivate {w : ProviderWorld} {next : Option Identity} {runtime : Option ℕ} {write : Write}
      {writes : List Write} (hsession : w.session = .deactivating next runtime (write :: writes)) :
      ProviderStep w .write
        { w with
          fields := w.fields.write write
          session := .deactivating next runtime writes }
  | close {w : ProviderWorld} {next : Option Identity} {runtime : Option ℕ}
      (hsession : w.session = .deactivating next runtime []) :
      ProviderStep w .close
        { w.closeHandle runtime with
          session := match next with
            | some identity => .loading identity
            | none => .free }
  | abandon {w : ProviderWorld} {identity : Identity} (hsession : w.session = .loading identity) :
      ProviderStep w .abandon { w with session := .free }
  | acquire {w : ProviderWorld} {identity : Identity} {handle : ℕ} {config : ProviderConfig}
      (hsession : w.session = .loading identity)
      (hmemory : (config.authorize identity).memoryEnabled = true)
      (hactive : w.active = none ∨ w.active = some config) (hfresh : w.handles handle = none) :
      ProviderStep w (.acquire handle config)
        { w with
          handles := Function.update w.handles handle (some ⟨config, identity, false⟩)
          active := some config
          session := .activating handle (activation config (config.authorize identity) handle) }
  | activate {w : ProviderWorld} {handle : ℕ} {write : Write} {writes : List Write}
      (hsession : w.session = .activating handle (write :: writes)) :
      ProviderStep w .write
        { w with fields := w.fields.write write, session := .activating handle writes }
  | finish {w : ProviderWorld} {handle : ℕ} (hsession : w.session = .activating handle []) :
      ProviderStep w .finish { w with session := .free }
  | finalize {w : ProviderWorld} : ProviderStep w .finalize { w with active := none }
  | enter {w : ProviderWorld} {t : ℕ} {op : Operation} (hcaller : w.callers t = .outside) :
      ProviderStep w (.enter t op) (w.setCaller t (.entered op))
  | readConfig {w : ProviderWorld} {t : ℕ} {op : Operation} (hcaller : w.callers t = .entered op) :
      ProviderStep w (.readConfig t) (w.setCaller t (.readConfig op w.fields.config))
  | readRuntime {w : ProviderWorld} {t : ℕ} {op : Operation} {config : Option ProviderConfig}
      (hcaller : w.callers t = .readConfig op config) :
      ProviderStep w (.readRuntime t) (w.setCaller t (.readRuntime op config w.fields.runtime))
  | check {w : ProviderWorld} {t : ℕ} {op : Operation} {config : ProviderConfig} {runtime : ℕ}
      (hcaller : w.callers t = .readRuntime op (some config) (some runtime))
      (hflag : w.fields.flags op.feature = true) (hgated : op.Gated config) :
      ProviderStep w (.check t) (w.setCaller t (.checked op config runtime))
  | call {w : ProviderWorld} {t : ℕ} {op : Operation} {config : ProviderConfig} {runtime : ℕ}
      {h : RuntimeHandle} (hcaller : w.callers t = .checked op config runtime)
      (hhandle : w.handles runtime = some h) (hopen : h.closed = false) :
      ProviderStep w (.call t op config runtime) (w.setCaller t .outside)
  | giveUp {w : ProviderWorld} {t : ℕ} : ProviderStep w (.giveUp t) (w.setCaller t .outside)

/-! ## Handles that are open -/

/-- The handle is open. -/
def Opened (w : ProviderWorld) (i : ℕ) (h : RuntimeHandle) : Prop :=
  w.handles i = some h ∧ h.closed = false

section Opened
variable {w w' : ProviderWorld} {e : ProviderEvent} {i : ℕ} {h : RuntimeHandle}

theorem opened_closeHandle {runtime : Option ℕ} :
    Opened (w.closeHandle runtime) i h ↔ Opened w i h ∧ runtime ≠ some i := by
  unfold Opened ProviderWorld.closeHandle
  by_cases hsame : runtime = some i
  · simp only [hsame, if_true, ne_eq, not_true, and_false, iff_false]
    rintro ⟨hhandle, hopen⟩
    obtain ⟨h', -, rfl⟩ := Option.map_eq_some_iff.mp hhandle
    cases hopen
  · simp [hsame]

/-- An open handle was open before, or was acquired by the step. -/
theorem Opened.of_step (hstep : ProviderStep w e w') (hopen : Opened w' i h) :
    Opened w i h ∨ ∃ identity, w.session = .loading identity ∧ e = .acquire i h.config ∧
      h.identity = identity := by
  cases hstep with
  | close => exact .inl (opened_closeHandle.mp hopen).1
  | @acquire identity handle config hsession hmemory hactive hfresh =>
    obtain ⟨hhandle, hclosed⟩ := hopen
    by_cases hsame : i = handle
    · subst hsame
      simp only [Function.update_self, Option.some.injEq] at hhandle
      subst hhandle
      exact .inr ⟨identity, hsession, rfl, rfl⟩
    · simp only [Function.update_of_ne hsame] at hhandle
      exact .inl ⟨hhandle, hclosed⟩
  | _ => exact .inl hopen

/-- No step forgets a handle. -/
theorem handles_ne_none (hstep : ProviderStep w e w') (hne : w.handles i ≠ none) :
    w'.handles i ≠ none := by
  cases hstep with
  | close =>
    simp only [ProviderWorld.closeHandle]
    split <;> simpa using hne
  | @acquire identity handle config hsession hmemory hactive hfresh =>
    by_cases hsame : i = handle
    · subst hsame
      simp
    · simpa [Function.update_of_ne hsame] using hne
  | _ => exact hne

end Opened

theorem Opened.of_known {w w' : ProviderWorld} {e : ProviderEvent} {i : ℕ} {h : RuntimeHandle}
    (hstep : ProviderStep w e w') (hopen : Opened w' i h) (hknown : w.handles i ≠ none) :
    Opened w i h := by
  rcases hopen.of_step hstep with hopen | ⟨identity, hsession, rfl, -⟩
  · exact hopen
  · cases hstep with
    | acquire _ _ _ hfresh => exact absurd hfresh hknown

/-! ## Invariants -/

/-- What holds while the session lock is held for this long. -/
def Progress (w : ProviderWorld) : Session → Prop
  | .free => ∀ i h, Opened w i h → w.fields.runtime = some i
  | .deactivating _ runtime writes =>
    (∀ i h, Opened w i h → runtime = some i) ∧
      (∀ feature value, Write.flag feature value ∈ writes → value = false) ∧
      ∀ feature, (writes.foldl Fields.write w.fields).flags feature = false
  | .loading _ => (∀ i h, ¬ Opened w i h) ∧ ∀ feature, w.fields.flags feature = false
  | .activating handle writes =>
    (∀ i h, Opened w i h → i = handle ∧
      ∀ feature value, Write.flag feature value ∈ writes → value = h.allows feature) ∧
      (writes.foldl Fields.write w.fields).runtime = some handle

/-- The assignments that the holder of the lock has still to make. -/
def Session.writes : Session → List Write
  | .deactivating _ _ writes | .activating _ writes => writes
  | .free | .loading _ => []

/-- What a thread relies on. -/
def Holds (w : ProviderWorld) : Caller → Prop
  | .readRuntime _ _ (some runtime) => w.handles runtime ≠ none
  | .checked op config runtime =>
    w.handles runtime ≠ none ∧ op.Gated config ∧
      ∀ h, Opened w runtime h → h.allows op.feature = true
  | _ => True

structure Sound (w : ProviderWorld) : Prop where
  progress : Progress w w.session
  flags : ∀ feature, w.fields.flags feature = true →
    ∀ i h, Opened w i h → h.allows feature = true
  runtime : ∀ i, w.fields.runtime = some i → w.handles i ≠ none
  pending : ∀ i, Write.runtime (some i) ∈ w.session.writes → w.handles i ≠ none
  callers : ∀ t, Holds w (w.callers t)

theorem sound_start : Sound .start where
  progress i h hopen := by cases hopen.1
  flags feature hflag := by cases hflag
  runtime i hruntime := by cases hruntime
  pending i hpending := by simp [ProviderWorld.start, Session.writes] at hpending
  callers t := trivial

section Steps
variable {w w' : ProviderWorld} {e : ProviderEvent}

/-- The assignment of a flag that the last initialization was not granted is never made. -/
theorem Sound.flags_write (hs : Sound w) {write : Write} {writes : List Write}
    (hwrites : w.session.writes = write :: writes) {feature : Feature}
    (hflag : (w.fields.write write).flags feature = true) {i : ℕ} {h : RuntimeHandle}
    (hopen : Opened w i h) : h.allows feature = true := by
  have hkept : w.fields.flags feature = true → h.allows feature = true :=
    fun hold => hs.flags feature hold i h hopen
  cases write with
  | config | runtime => exact hkept hflag
  | flag feature' value =>
    by_cases hsame : feature = feature'
    · subst hsame
      have hvalue : value = true := by simpa [Fields.write] using hflag
      have hmem : Write.flag feature value ∈ w.session.writes := by simp [hwrites]
      have hprogress := hs.progress
      cases hsession : w.session with
      | free | loading =>
        rw [hsession] at hwrites
        cases hwrites
      | deactivating next runtime pending =>
        rw [hsession] at hmem hprogress
        have hfalse := hprogress.2.1 feature value hmem
        rw [hvalue] at hfalse
        cases hfalse
      | activating handle pending =>
        rw [hsession] at hmem hprogress
        exact ((hprogress.1 i h hopen).2 feature value hmem).symm.trans hvalue
    · exact hkept (by simpa [Fields.write, Function.update_of_ne hsame] using hflag)

theorem deactivation_flags (p : Fields) (feature : Feature) :
    (deactivation.foldl Fields.write p).flags feature = false := by
  cases feature <;> rfl

theorem activation_flag {config : ProviderConfig} {a : MemoryAuthorization} {handle : ℕ}
    {feature : Feature} {value : Bool} (h : Write.flag feature value ∈ activation config a handle) :
    value = a.allows feature := by
  simp only [activation, List.mem_cons, Write.flag.injEq, reduceCtorEq, List.not_mem_nil,
    or_false, false_or] at h
  rcases h with ⟨rfl, rfl⟩ | ⟨rfl, rfl⟩ | ⟨rfl, rfl⟩ | ⟨rfl, rfl⟩ <;> rfl

theorem Sound.progress_step (hs : Sound w) (hstep : ProviderStep w e w') :
    Progress w' w'.session := by
  have hprogress := hs.progress
  cases hstep with
  | initializeLocked hsession | shutdown hsession =>
    rw [hsession] at hprogress
    refine ⟨hprogress, fun feature value hmem => ?_, deactivation_flags _⟩
    simp [deactivation] at hmem
    tauto
  | deactivate hsession =>
    rw [hsession] at hprogress
    exact ⟨hprogress.1, fun feature value hmem =>
      hprogress.2.1 feature value (List.mem_cons_of_mem _ hmem), hprogress.2.2⟩
  | @close next runtime hsession =>
    rw [hsession] at hprogress
    have hnone : ∀ i h, ¬ Opened (w.closeHandle runtime) i h := by
      intro i h hopen
      rw [opened_closeHandle] at hopen
      exact hopen.2 (hprogress.1 i h hopen.1)
    cases next with
    | none => exact fun i h hopen => absurd hopen (hnone i h)
    | some identity => exact ⟨hnone, hprogress.2.2⟩
  | abandon hsession =>
    rw [hsession] at hprogress
    exact fun i h hopen => absurd hopen (hprogress.1 i h)
  | @acquire identity handle config hsession hmemory hactive hfresh =>
    rw [hsession] at hprogress
    refine ⟨fun i h hopen => ?_, rfl⟩
    by_cases hsame : i = handle
    · subst hsame
      obtain ⟨hhandle, -⟩ := hopen
      simp only [Function.update_self, Option.some.injEq] at hhandle
      subst hhandle
      exact ⟨rfl, fun feature value hmem => activation_flag hmem⟩
    · have hold : Opened w i h := by
        obtain ⟨hhandle, hclosed⟩ := hopen
        simp only [Function.update_of_ne hsame] at hhandle
        exact ⟨hhandle, hclosed⟩
      exact absurd hold (hprogress.1 i h)
  | activate hsession =>
    rw [hsession] at hprogress
    refine ⟨fun i h hopen => ⟨(hprogress.1 i h hopen).1, fun feature value hmem => ?_⟩,
      hprogress.2⟩
    exact (hprogress.1 i h hopen).2 feature value (List.mem_cons_of_mem _ hmem)
  | @finish handle hsession =>
    rw [hsession] at hprogress
    intro i h hopen
    rw [(hprogress.1 i h hopen).1]
    exact hprogress.2
  | _ => exact hprogress

theorem Sound.flags_step (hs : Sound w) (hstep : ProviderStep w e w') (feature : Feature)
    (hflag : w'.fields.flags feature = true) (i : ℕ) (h : RuntimeHandle) (hopen : Opened w' i h) :
    h.allows feature = true := by
  cases hstep with
  | deactivate hsession | activate hsession =>
    exact hs.flags_write (by rw [hsession]; rfl) hflag hopen
  | close => exact hs.flags feature hflag i h (opened_closeHandle.mp hopen).1
  | acquire hsession =>
    have hprogress := hs.progress
    rw [hsession] at hprogress
    have hfalse := hprogress.2 feature
    rw [hfalse] at hflag
    cases hflag
  | _ => exact hs.flags feature hflag i h hopen

/-- The handle of the field, and of a field that is about to be written, exists. -/
theorem Sound.runtime_step (hs : Sound w) (hstep : ProviderStep w e w') (i : ℕ)
    (hruntime : w'.fields.runtime = some i) : w'.handles i ≠ none := by
  have hwrite : ∀ {write : Write} {writes : List Write}, w.session.writes = write :: writes →
      (w.fields.write write).runtime = some i → w.handles i ≠ none := by
    intro write writes hwrites hfield
    cases write with
    | config | flag => exact hs.runtime i hfield
    | runtime runtime =>
      have hsome : runtime = some i := hfield
      exact hs.pending i (by simp [hwrites, hsome])
  cases hstep with
  | deactivate hsession | activate hsession => exact hwrite (by rw [hsession]; rfl) hruntime
  | close hsession => exact handles_ne_none (.close hsession) (hs.runtime i hruntime)
  | acquire hsession hmemory hactive hfresh =>
    exact handles_ne_none (.acquire hsession hmemory hactive hfresh) (hs.runtime i hruntime)
  | _ => exact hs.runtime i hruntime

theorem Sound.pending_step (hs : Sound w) (hstep : ProviderStep w e w') (i : ℕ)
    (hpending : Write.runtime (some i) ∈ w'.session.writes) : w'.handles i ≠ none := by
  cases hstep with
  | initializeLocked | shutdown => simp [Session.writes, deactivation] at hpending
  | deactivate hsession | activate hsession =>
    exact hs.pending i (by rw [hsession]; exact List.mem_cons_of_mem _ hpending)
  | @close next =>
    cases next <;> simp [Session.writes] at hpending
  | abandon | finish => simp [Session.writes] at hpending
  | acquire =>
    simp only [Session.writes, activation, List.mem_cons, reduceCtorEq, List.not_mem_nil,
      Write.runtime.injEq, Option.some.injEq, or_false, false_or] at hpending
    simp [hpending]
  | _ => exact hs.pending i hpending

theorem Holds.step {caller : Caller} (h : Holds w caller) (hstep : ProviderStep w e w') :
    Holds w' caller := by
  cases caller with
  | outside | entered | readConfig => trivial
  | readRuntime op config runtime =>
    cases runtime with
    | none => trivial
    | some runtime => exact handles_ne_none hstep h
  | checked op config runtime =>
    obtain ⟨hknown, hgated, hallows⟩ := h
    exact ⟨handles_ne_none hstep hknown, hgated,
      fun handle hopen => hallows handle (hopen.of_known hstep hknown)⟩

theorem Sound.callers_step (hs : Sound w) (hstep : ProviderStep w e w') (t : ℕ) :
    Holds w' (w'.callers t) := by
  -- a thread that moves leaves the others and all they rely on as it is
  have hmove : ∀ {t' : ℕ} {caller : Caller}, Holds w caller →
      Holds w ((w.setCaller t' caller).callers t) := by
    intro t' caller hcaller
    by_cases hsame : t = t'
    · subst hsame
      simpa [ProviderWorld.setCaller] using hcaller
    · simpa [ProviderWorld.setCaller, Function.update_of_ne hsame] using hs.callers t
  cases hstep with
  | enter | readConfig | call | giveUp => exact hmove trivial
  | @readRuntime t' op config hcaller =>
    refine hmove ?_
    cases hruntime : w.fields.runtime with
    | none => trivial
    | some runtime => exact hs.runtime runtime hruntime
  | @check t' op config runtime hcaller hflag hgated =>
    have hknown := hs.callers t'
    rw [hcaller] at hknown
    exact hmove ⟨hknown, hgated, fun h hopen => hs.flags op.feature hflag runtime h hopen⟩
  | initializeLocked hsession => exact (hs.callers t).step (.initializeLocked hsession)
  | shutdown hsession => exact (hs.callers t).step (.shutdown hsession)
  | deactivate hsession => exact (hs.callers t).step (.deactivate hsession)
  | close hsession => exact (hs.callers t).step (.close hsession)
  | abandon hsession => exact (hs.callers t).step (.abandon hsession)
  | acquire hsession hmemory hactive hfresh =>
    exact (hs.callers t).step (.acquire hsession hmemory hactive hfresh)
  | activate hsession => exact (hs.callers t).step (.activate hsession)
  | finish hsession => exact (hs.callers t).step (.finish hsession)
  | finalize => exact (hs.callers t).step .finalize

theorem Sound.step (hs : Sound w) (hstep : ProviderStep w e w') : Sound w' :=
  ⟨hs.progress_step hstep, hs.flags_step hstep, hs.runtime_step hstep, hs.pending_step hstep,
    hs.callers_step hstep⟩

end Steps

/-! ## Where a handle comes from -/

/-- The identity that the holder of the lock was called with. -/
def Session.identity? : Session → Option Identity
  | .deactivating next _ _ => next
  | .loading identity => some identity
  | .free | .activating .. => none

section Runs
variable {w w' : ProviderWorld} {e : ProviderEvent}
  {tr : List (Transition ProviderWorld ProviderEvent)}

theorem identity?_step (hstep : ProviderStep w e w') {identity : Identity}
    (h : w'.session.identity? = some identity) :
    w.session.identity? = some identity ∨ e = .initializeLocked identity := by
  cases hstep with
  | initializeLocked =>
    obtain rfl := Option.some.inj h
    exact .inr rfl
  | shutdown | abandon | acquire | activate | finish => cases h
  | deactivate hsession =>
    rw [hsession]
    exact .inl h
  | @close next runtime hsession =>
    cases next with
    | none => cases h
    | some identity' =>
      rw [hsession]
      exact .inl h
  | _ => exact .inl h

/-- Every open handle was asked for by an `initialize` with its identity. -/
theorem requested (hrun : Run ProviderStep .start tr w) :
    (∀ identity, w.session.identity? = some identity →
      ∃ e ∈ tr, e.label = .initializeLocked identity) ∧
    ∀ i h, Opened w i h → ∃ e ∈ tr, e.label = .initializeLocked h.identity := by
  induction hrun with
  | nil => exact ⟨nofun, fun i h hopen => by cases hopen.1⟩
  | @snoc v w tr l _ hstep ih =>
    have hlater : ∀ {identity : Identity}, (∃ e ∈ tr, e.label = .initializeLocked identity) →
        ∃ e ∈ tr ++ [⟨v, l, w⟩], e.label = .initializeLocked identity := by
      rintro identity ⟨e, he, hlabel⟩
      exact ⟨e, List.mem_append_left _ he, hlabel⟩
    constructor
    · intro identity hidentity
      rcases identity?_step hstep hidentity with hold | hnew
      · exact hlater (ih.1 identity hold)
      · exact ⟨_, List.mem_append_right _ (List.mem_singleton_self _), hnew⟩
    · intro i h hopen
      rcases hopen.of_step hstep with hold | ⟨identity, hsession, -, hidentity⟩
      · exact hlater (ih.2 i h hold)
      · refine hlater (ih.1 h.identity ?_)
        rw [hsession, hidentity]
        rfl

/-! ## One configuration for one process runtime -/

def Caller.config? : Caller → Option ProviderConfig
  | .readConfig _ config | .readRuntime _ config _ => config
  | .checked _ config _ => some config
  | .outside | .entered _ => none

/-- Somebody has, or is about to have, this configuration. -/
def Loaded (w : ProviderWorld) (config : ProviderConfig) : Prop :=
  w.fields.config = some config ∨ Write.config (some config) ∈ w.session.writes ∨
    (∃ i h, w.handles i = some h ∧ h.config = config) ∨
    ∃ t, (w.callers t).config? = some config

/-- Every configuration around is the one of the process runtime. -/
def Uniform (w : ProviderWorld) : Prop := ∀ config, Loaded w config → w.active = some config

theorem Loaded.of_write {write : Write} {session : Session} {config : ProviderConfig}
    (hwrites : w.session.writes = write :: session.writes)
    (h : Loaded { w with fields := w.fields.write write, session } config) : Loaded w config := by
  rcases h with h | h | h
  · cases write with
    | config written =>
      have hwritten : written = some config := h
      exact .inr (.inl (by simp [hwrites, hwritten]))
    | flag | runtime => exact .inl h
  · exact .inr (.inl (by simp [hwrites, h]))
  · exact .inr (.inr h)

theorem Loaded.of_caller {t : ℕ} {caller : Caller} {config : ProviderConfig}
    (hcaller : caller.config? = some config → Loaded w config)
    (h : Loaded (w.setCaller t caller) config) : Loaded w config := by
  rcases h with h | h | h | ⟨t', h⟩
  · exact .inl h
  · exact .inr (.inl h)
  · exact .inr (.inr (.inl h))
  · simp only [ProviderWorld.setCaller, Function.update_apply] at h
    split at h
    · exact hcaller h
    · exact .inr (.inr (.inr ⟨t', h⟩))

theorem Loaded.of_step (hstep : ProviderStep w e w') {config : ProviderConfig}
    (h : Loaded w' config) : Loaded w config ∨ ∃ i, e = .acquire i config := by
  cases hstep with
  | initializeLocked | shutdown =>
    refine .inl ?_
    rcases h with h | h | h
    · exact .inl h
    · simp [Session.writes, deactivation] at h
    · exact .inr (.inr h)
  | deactivate hsession | activate hsession =>
    exact .inl (.of_write (by rw [hsession]; rfl) h)
  | @close next runtime hsession =>
    refine .inl ?_
    rcases h with h | h | ⟨i, handle, h, hconfig⟩ | h
    · exact .inl h
    · cases next <;> simp [Session.writes] at h
    · simp only [ProviderWorld.closeHandle] at h
      split at h
      · obtain ⟨handle', hold, rfl⟩ := Option.map_eq_some_iff.mp h
        exact .inr (.inr (.inl ⟨i, handle', hold, hconfig⟩))
      · exact .inr (.inr (.inl ⟨i, handle, h, hconfig⟩))
    · exact .inr (.inr (.inr h))
  | abandon | finish =>
    refine .inl ?_
    rcases h with h | h | h
    · exact .inl h
    · simp [Session.writes] at h
    · exact .inr (.inr h)
  | @acquire identity handle acquired hsession hmemory hactive hfresh =>
    rcases h with h | h | ⟨i, found, h, hconfig⟩ | h
    · exact .inl (.inl h)
    · have hsame : config = acquired := by simpa [Session.writes, activation] using h
      exact .inr ⟨handle, by rw [hsame]⟩
    · simp only [Function.update_apply] at h
      split at h
      · rw [← Option.some.inj h] at hconfig
        exact .inr ⟨handle, by rw [← hconfig]⟩
      · exact .inl (.inr (.inr (.inl ⟨i, found, h, hconfig⟩)))
    · exact .inl (.inr (.inr (.inr h)))
  | finalize => exact .inl h
  | enter | giveUp | call => exact .inl (h.of_caller fun hread => by cases hread)
  | readConfig => exact .inl (h.of_caller .inl)
  | @readRuntime t op read hcaller =>
    refine .inl (h.of_caller fun hread => .inr (.inr (.inr ⟨t, ?_⟩)))
    rw [hcaller]
    exact hread
  | @check t op read runtime hcaller =>
    refine .inl (h.of_caller fun hread => .inr (.inr (.inr ⟨t, ?_⟩)))
    rw [hcaller]
    exact hread

theorem Uniform.step (h : Uniform w) (hstep : ProviderStep w e w') :
    Uniform w' ∨ e = .finalize := by
  by_cases hfinalize : e = .finalize
  · exact .inr hfinalize
  · refine .inl fun config hloaded => ?_
    rcases hloaded.of_step hstep with hold | ⟨i, rfl⟩
    · have hactive := h config hold
      cases hstep with
      | acquire hsession hmemory hacquired =>
        rcases hacquired with hnone | hsame
        · rw [hactive] at hnone
          cases hnone
        · exact hsame.symm.trans hactive
      | finalize => exact absurd rfl hfinalize
      | _ => exact hactive
    · cases hstep with
      | acquire => rfl

theorem uniform_start : Uniform .start := by
  rintro config (h | h | ⟨i, h, hnone, -⟩ | ⟨t, h⟩)
  · cases h
  · simp [ProviderWorld.start, Session.writes] at h
  · cases hnone
  · cases h

/-! ## What reaches the process runtime -/

theorem sound_run (hrun : Run ProviderStep .start tr w) : Sound w :=
  hrun.invariant sound_start fun _ _ _ hs hstep => hs.step hstep

/-- A call that reaches the process runtime was permitted to the identity of an `initialize` whose
handle is still open. The configuration its caller has checked is that handle's, unless the process
runtime has been replaced. -/
theorem calls_authorized {tr₁ tr₂ : List (Transition ProviderWorld ProviderEvent)}
    {a b : ProviderWorld} {t i : ℕ} {op : Operation} {config : ProviderConfig}
    (hrun : Run ProviderStep .start (tr₁ ++ ⟨a, .call t op config i, b⟩ :: tr₂) w) :
    ∃ h, Opened a i h ∧ (∃ e ∈ tr₁, e.label = .initializeLocked h.identity) ∧
      Permitted h.config h.identity op.feature ∧ op.Gated config ∧
      (config = h.config ∨ ∃ e ∈ tr₁, e.label = .finalize) := by
  obtain ⟨hbefore, hcall, -⟩ := hrun.split
  have hstep : ProviderStep a (.call t op config i) b := hcall
  have hcallers := (sound_run hbefore).callers t
  have huniform : Uniform a ∨ ∃ e ∈ tr₁, e.label = .finalize :=
    hbefore.persists_or (I := Sound) sound_start (fun _ _ _ hs hstep => hs.step hstep)
      (fun _ _ _ _ hstep h => h.step hstep) uniform_start
  cases hstep with
  | @call _ _ _ _ h hcaller hhandle hopen =>
    rw [hcaller] at hcallers
    obtain ⟨-, hgated, hallows⟩ := hcallers
    refine ⟨h, ⟨hhandle, hopen⟩, (requested hbefore).2 i h ⟨hhandle, hopen⟩,
      authorize_allows_iff.mp (hallows h ⟨hhandle, hopen⟩), hgated, ?_⟩
    refine huniform.imp_left fun hsame => ?_
    have hread := hsame config (.inr (.inr (.inr ⟨t, by rw [hcaller]; rfl⟩)))
    have hheld := hsame h.config (.inr (.inr (.inl ⟨i, h, hhandle, rfl⟩)))
    exact Option.some.inj (hread.symm.trans hheld)

theorem closed_step {a b : ProviderWorld} (hs : Sound a) (hstep : ProviderStep a .close b) (i : ℕ)
    (h : RuntimeHandle) : ¬ Opened b i h := by
  cases hstep with
  | close hsession =>
    have hprogress := hs.progress
    rw [hsession] at hprogress
    intro hopen
    have hopen' := opened_closeHandle.mp hopen
    exact hopen'.2 (hprogress.1 i h hopen'.1)

theorem acquired (hrun : Run ProviderStep w tr w') (hnone : ∀ i h, ¬ Opened w i h) :
    ∀ i h, Opened w' i h → ∃ e ∈ tr, e.label = .acquire i h.config := by
  induction hrun with
  | nil => exact fun i h hopen => absurd hopen (hnone i h)
  | snoc _ hstep ih =>
    intro i h hopen
    rcases hopen.of_step hstep with hold | ⟨identity, -, hlabel, -⟩
    · obtain ⟨e, he, hlabel⟩ := ih i h hold
      exact ⟨e, List.mem_append_left _ he, hlabel⟩
    · exact ⟨_, List.mem_append_right _ (List.mem_singleton_self _), hlabel⟩

theorem run_deactivating {next : Option Identity} {runtime : Option ℕ} (writes : List Write)
    (w : ProviderWorld) (hsession : w.session = .deactivating next runtime writes) :
    ∃ tr, Run ProviderStep w tr
      { w with
        fields := writes.foldl Fields.write w.fields
        session := .deactivating next runtime [] } := by
  induction writes generalizing w with
  | nil =>
    refine ⟨[], ?_⟩
    rw [List.foldl_nil, ← hsession]
    exact .nil
  | cons write writes ih =>
    have hstep := ProviderStep.deactivate hsession
    obtain ⟨tr, hrun⟩ := ih
      { w with
        fields := w.fields.write write
        session := .deactivating next runtime writes } rfl
    exact ⟨_, (Run.single hstep).append hrun⟩

theorem run_activating {handle : ℕ} (writes : List Write) (w : ProviderWorld)
    (hsession : w.session = .activating handle writes) :
    ∃ tr, Run ProviderStep w tr
      { w with
        fields := writes.foldl Fields.write w.fields
        session := .activating handle [] } := by
  induction writes generalizing w with
  | nil =>
    refine ⟨[], ?_⟩
    rw [List.foldl_nil, ← hsession]
    exact .nil
  | cons write writes ih =>
    have hstep := ProviderStep.activate hsession
    obtain ⟨tr, hrun⟩ := ih
      { w with fields := w.fields.write write, session := .activating handle writes } rfl
    exact ⟨_, (Run.single hstep).append hrun⟩

/-- An `initialize` that is granted something, from a free provider whose handle is closed. -/
theorem run_initialized {config : ProviderConfig} {identity : Identity} {i : ℕ}
    (hsession : w.session = .free) (hmemory : (config.authorize identity).memoryEnabled = true)
    (hactive : w.active = none ∨ w.active = some config) (hfresh : w.handles i = none) :
    ∃ tr₁ a b tr₂ w', Run ProviderStep w (tr₁ ++ ⟨a, .close, b⟩ :: tr₂) w' ∧
      w'.fields = ⟨some config, (config.authorize identity).allows, some i⟩ ∧
      w'.handles i = some ⟨config, identity, false⟩ ∧ w'.callers = w.callers := by
  have hbegin := Run.single (@ProviderStep.initializeLocked w identity hsession)
  obtain ⟨tr₁, hwrites⟩ := run_deactivating deactivation
    { w with session := .deactivating (some identity) w.fields.runtime deactivation } rfl
  have hclose := Run.single (@ProviderStep.close
    { w with
      fields := deactivation.foldl Fields.write w.fields
      session := .deactivating (some identity) w.fields.runtime [] } _ _ rfl)
  have hunknown : (w.closeHandle w.fields.runtime).handles i = none := by
    simp [ProviderWorld.closeHandle, hfresh]
  have hacquire := Run.single (@ProviderStep.acquire
    { w.closeHandle w.fields.runtime with
      fields := deactivation.foldl Fields.write w.fields
      session := .loading identity } identity i config rfl hmemory hactive hunknown)
  obtain ⟨tr₂, hwrites'⟩ := run_activating (activation config (config.authorize identity) i)
    { w.closeHandle w.fields.runtime with
      fields := deactivation.foldl Fields.write w.fields
      handles := Function.update (w.closeHandle w.fields.runtime).handles i
        (some ⟨config, identity, false⟩)
      active := some config
      session := .activating i (activation config (config.authorize identity) i) } rfl
  have hgranted := (hacquire.append hwrites').append (Run.single (.finish rfl))
  refine ⟨_, _, _, _, _, (hbegin.append hwrites).append (hclose.append hgranted), ?_, ?_, rfl⟩
  · have hflags : ((activation config (config.authorize identity) i).foldl Fields.write
        (deactivation.foldl Fields.write w.fields)).flags = (config.authorize identity).allows := by
      funext feature
      cases feature <;> rfl
    rw [← hflags]
    rfl
  · simp

/-- What is permitted can be called, from a new provider in a new process. -/
theorem permitted_call {config : ProviderConfig} {identity : Identity} {op : Operation}
    (hpermitted : Permitted config identity op.feature) (hgated : op.Gated config) :
    ∃ tr₁ a b tr₂ c d, Run ProviderStep .start
      (tr₁ ++ ⟨a, .close, b⟩ :: (tr₂ ++ ⟨c, .call 0 op config 0, d⟩ :: [])) d := by
  have hallows := authorize_allows_iff.mpr hpermitted
  have hmemory : (config.authorize identity).memoryEnabled = true := by
    unfold MemoryAuthorization.memoryEnabled
    cases hfeature : op.feature <;> rw [hfeature] at hallows <;>
      simp only [MemoryAuthorization.allows] at hallows <;> simp [hallows]
  obtain ⟨tr₁, a, b, tr₂, w, hrun, hfields, hhandle, hcallers⟩ :=
    @run_initialized .start config identity 0 rfl hmemory (.inl rfl) rfl
  have hidle : w.callers 0 = .outside := by rw [hcallers]; rfl
  have henter := Run.single (@ProviderStep.enter w 0 op hidle)
  have hconfig := Run.single (ProviderStep.readConfig
    (ProviderWorld.setCaller_self w 0 (.entered op)))
  have hruntime := Run.single (ProviderStep.readRuntime (ProviderWorld.setCaller_self
    (w.setCaller 0 (.entered op)) 0 (.readConfig op w.fields.config)))
  have hread : (((w.setCaller 0 (.entered op)).setCaller 0
      (.readConfig op w.fields.config)).setCaller 0
      (.readRuntime op w.fields.config w.fields.runtime)).callers 0 =
      .readRuntime op (some config) (some 0) := by
    simp [ProviderWorld.setCaller, hfields]
  have hflag : w.fields.flags op.feature = true := by
    rw [hfields]
    exact hallows
  have hcheck := Run.single (ProviderStep.check hread hflag hgated)
  have hcall := (henter.append (hconfig.append (hruntime.append hcheck))).snoc
    (.call (ProviderWorld.setCaller_self ..) hhandle rfl)
  have hall := hrun.append hcall
  rw [List.append_assoc, List.cons_append, ← List.append_assoc] at hall
  exact ⟨_, _, _, _, _, _, hall⟩

end Runs

theorem permitted_gatewayUser : Permitted listedConfig gatewayUser .recall where
  singlePrincipal := rfl
  recognized := .inr ⟨_, List.mem_singleton_self _, by decide, by decide, rfl, rfl⟩
  configured := rfl

theorem calls_authorized_gateway : ∃ tr a b, ∃ h, Opened a 0 h ∧
    (∃ e ∈ tr, e.label = .initializeLocked h.identity) ∧
    Permitted h.config h.identity .recall ∧ Operation.Gated listedConfig .recall ∧
    (listedConfig = h.config ∨ ∃ e ∈ tr, e.label = .finalize) ∧
    Run ProviderStep .start (tr ++ ⟨a, .call 0 .recall listedConfig 0, b⟩ :: []) b := by
  obtain ⟨tr₁, a, b, tr₂, c, d, hrun⟩ := @permitted_call listedConfig gatewayUser .recall
    permitted_gatewayUser trivial
  rw [← List.cons_append, ← List.append_assoc] at hrun
  obtain ⟨h, hopen, hrequested, hpermitted, hgated, hsame⟩ := calls_authorized hrun
  exact ⟨_, c, d, h, hopen, hrequested, hpermitted, hgated, hsame, hrun⟩

end BetterHindsight.Provider
