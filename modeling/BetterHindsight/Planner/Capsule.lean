import BetterHindsight.Config
import BetterHindsight.Redaction.Growth

/-! # The planner capsule

`planner.py`: the current message and the recent conversation that the planner's model sees. The
history is scanned backwards within a budget of characters, texts are clipped to what is left of it,
and the redacted capsule is encoded as JSON under a limit of bytes.

* `clipText`, `safeHistoryMessage`, `scanHistory`, `buildCapsule`: the capsule.
* `scrubCapsule`, `serializeCapsule`: redaction and encoding.
* `Eligible`, `Shows`: what a message of the capsule is of a row of the history.
* `capsule_fits`: the capsule keeps both budgets. -/

namespace BetterHindsight
set_option autoImplicit false

def CLIP_MARKER : Text := "\n[… clipped …]\n"
def HISTORY_INSPECTED_ROWS_PER_EXCHANGE : ℕ := 8
def CAPSULE_UTF8_EXPANSION : ℕ := 6
def CAPSULE_FIXED_OVERHEAD_BYTES : ℕ := 512
def CAPSULE_MESSAGE_OVERHEAD_BYTES : ℕ := 64

def INTERNAL_DISPLAY_KINDS : List Text :=
  ["delegation_closeout".toList, "internal_notification".toList]

/-- The part of `PlannerConfig` that bounds the capsule. -/
structure PlannerConfig where
  historyMaxExchanges : ℕ
  historyMaxChars : ℕ

/-- A mapping of the conversation history. A role, kind or content that is no text is `none`. -/
structure HistoryRow where
  displayKind : Option Text
  role : Option Text
  /-- whether `message.get("tool_calls")` is true -/
  toolCalls : Bool
  content : Option Text

structure CapsuleMessage where
  role : Text
  content : Text
  deriving DecidableEq

structure Capsule where
  currentUserMessage : Text
  recentConversation : List CapsuleMessage
  deriving DecidableEq

/-! ## Building -/

def clipText (text : Text) (maximum : ℕ) : Text :=
  if text.length ≤ maximum then text
  else if maximum ≤ CLIP_MARKER.length then text.take maximum
  else
    let remaining := maximum - CLIP_MARKER.length
    let head := (remaining + 1) / 2
    let tail := remaining - head
    if tail = 0 then text.take head
    else text.take head ++ CLIP_MARKER ++ text.drop (text.length - tail)

def isInternalMessage (message : HistoryRow) : Bool :=
  message.displayKind.any fun kind => INTERNAL_DISPLAY_KINDS.contains kind

/-- `_safe_history_message`; `none` in place of a row is one that is no mapping. `extract` is
`extract_user_instruction_from_skill_message`. -/
def safeHistoryMessage (extract : Text → Text) (maximum : ℕ) :
    Option HistoryRow → Option CapsuleMessage
  | none => none
  | some message =>
    if isInternalMessage message = true then none
    else
      match message.role, message.content with
      | some role, some content =>
        if role ∉ ["user".toList, "assistant".toList] then none
        else if role = "assistant".toList ∧ message.toolCalls = true then none
        else
          let content := if role = "user".toList then extract content else content
          let bounded := clipText content maximum
          if isBlank bounded = true then none else some ⟨role, bounded⟩
      | _, _ => none

/-- The variables of the loop over the history. -/
structure CapsuleScan where
  index : ℕ
  remaining : ℕ
  candidates : List CapsuleMessage
  skippedCurrent : Bool

/-- The loop of `_build_capsule` over the reversed history. -/
def scanHistory (extract : Text → Text) (config : PlannerConfig) (current : Text) :
    List (Option HistoryRow) → CapsuleScan → List CapsuleMessage
  | [], s => s.candidates
  | raw :: rest, s =>
    if config.historyMaxExchanges * HISTORY_INSPECTED_ROWS_PER_EXCHANGE ≤ s.index ∨
        s.remaining = 0 then
      s.candidates
    else
      let next := { s with index := s.index + 1 }
      match safeHistoryMessage extract config.historyMaxChars raw with
      | none => scanHistory extract config current rest next
      | some message =>
        if s.skippedCurrent = false ∧ message.role = "user".toList ∧ message.content = current then
          scanHistory extract config current rest { next with skippedCurrent := true }
        else if config.historyMaxExchanges * 2 ≤ s.candidates.length then s.candidates
        else
          let clipped := clipText message.content s.remaining
          scanHistory extract config current rest
            { next with
              remaining := s.remaining - clipped.length
              candidates := s.candidates ++ [⟨message.role, clipped⟩] }

def buildCapsule (extract : Text → Text) (config : PlannerConfig) (currentUserMessage : Text)
    (history : List (Option HistoryRow)) : Capsule :=
  let current := clipText currentUserMessage config.historyMaxChars
  let candidates := scanHistory extract config current history.reverse
    ⟨0, config.historyMaxChars - current.length, [], false⟩
  ⟨current, candidates.reverse⟩

/-! ## Redacting and encoding -/

/-- `text.removeprefix(" ")` -/
def removeSpace : Text → Text
  | ' ' :: t => t
  | t => t

/-- Every text of the capsule replaced. -/
def Capsule.mapTexts (f : Text → Text) (capsule : Capsule) : Capsule where
  currentUserMessage := f capsule.currentUserMessage
  recentConversation := capsule.recentConversation.map fun row => { row with content := f row.content }

/-- `_scrub_capsule`; `scrub` is the host's `_redact_for_provider`, if it has one. -/
def scrubCapsule (lib : Stdlib) (scrub : Option (Capsule → Capsule)) (capsule : Capsule) : Capsule :=
  match scrub with
  | some scrub => (scrub (capsule.mapTexts (' ' :: ·))).mapTexts removeSpace
  | none => capsule.mapTexts (redactSensitiveText lib)

def capsuleByteLimit (config : PlannerConfig) : ℕ :=
  config.historyMaxChars * CAPSULE_UTF8_EXPANSION +
    config.historyMaxExchanges * 2 * CAPSULE_MESSAGE_OVERHEAD_BYTES + CAPSULE_FIXED_OVERHEAD_BYTES

def Capsule.json (capsule : Capsule) : Json :=
  .obj [("current_user_message", .str capsule.currentUserMessage),
    ("recent_conversation", .arr (capsule.recentConversation.map fun row =>
      roleJson row.role row.content))]

/-- `_serialize_capsule` -/
def serializeCapsule (config : PlannerConfig) (capsule : Capsule) : Except Text Text :=
  let serialized := Json.dumpsPlain Json.quoteRaw capsule.json
  if utf8Len serialized > capsuleByteLimit config then
    .error "Planner capsule exceeds its serialized byte budget."
  else .ok serialized

/-! ## What a message shows -/

/-- The content of a row that the capsule may show under the role. -/
def Eligible (extract : Text → Text) (row : Option HistoryRow) (role content : Text) : Prop :=
  ∃ message text, row = some message ∧ isInternalMessage message = false ∧
    message.role = some role ∧ message.content = some text ∧
    (role = "user".toList ∧ content = extract text ∨
      role = "assistant".toList ∧ message.toolCalls = false ∧ content = text)

/-- The message is the content of an eligible row, clipped to the budget and then to what was left
of it. -/
def Shows (extract : Text → Text) (config : PlannerConfig) (row : Option HistoryRow)
    (message : CapsuleMessage) : Prop :=
  ∃ content limit, Eligible extract row message.role content ∧ 0 < limit ∧
    limit ≤ config.historyMaxChars ∧
    isBlank (clipText content config.historyMaxChars) = false ∧
    message.content = clipText (clipText content config.historyMaxChars) limit

/-- The characters of the messages. -/
def contentChars (messages : List CapsuleMessage) : ℕ :=
  (messages.map fun m => m.content.length).sum

theorem clipText_length (text : Text) (maximum : ℕ) : (clipText text maximum).length ≤ maximum := by
  have hmarker : CLIP_MARKER.length = 15 := rfl
  unfold clipText
  dsimp only
  split_ifs with hfits hshort htail
  · exact hfits
  · exact List.length_take_le _ _
  · have hhead := List.length_take_le ((maximum - CLIP_MARKER.length + 1) / 2) text
    omega
  · simp only [List.length_append, List.length_take, List.length_drop]
    omega

theorem safeHistoryMessage_some {extract : Text → Text} {maximum : ℕ} {row : Option HistoryRow}
    {message : CapsuleMessage} (h : safeHistoryMessage extract maximum row = some message) :
    ∃ content, Eligible extract row message.role content ∧
      message.content = clipText content maximum ∧ isBlank message.content = false := by
  cases row with
  | none => cases h
  | some raw =>
    rw [safeHistoryMessage] at h
    split_ifs at h with hinternal
    cases hrole : raw.role with
    | none => simp [hrole] at h
    | some role =>
      cases hcontent : raw.content with
      | none => simp [hrole, hcontent] at h
      | some text =>
        simp only [hrole, hcontent] at h
        split_ifs at h with hknown htools huser hblank hblank
        · cases h
          refine ⟨extract text, ⟨raw, text, rfl, by simpa using hinternal, hrole, hcontent,
            .inl ⟨huser, rfl⟩⟩, rfl, by simpa using hblank⟩
        · cases h
          have hassistant : role = "assistant".toList := by
            rcases List.mem_pair.mp hknown with h | h
            · exact absurd h huser
            · exact h
          refine ⟨text, ⟨raw, text, rfl, by simpa using hinternal, hrole, hcontent,
            .inr ⟨hassistant, ?_, rfl⟩⟩, rfl, by simpa using hblank⟩
          simpa [hassistant] using htools

/-! ## The scan -/

section Scan
variable (extract : Text → Text) (config : PlannerConfig)

/-- `result` extends the candidates by messages that show some of the rows, within what is left of
the budget, and by none once there are enough. -/
def Extends (rows : List (Option HistoryRow)) (s : CapsuleScan) (result : List CapsuleMessage) :
    Prop :=
  ∃ picked added, result = s.candidates ++ added ∧ picked.Sublist rows ∧
    List.Forall₂ (Shows extract config) picked added ∧ contentChars added ≤ s.remaining ∧
    (s.candidates.length ≤ config.historyMaxExchanges * 2 →
      result.length ≤ config.historyMaxExchanges * 2)

variable {extract config} {rows : List (Option HistoryRow)} {s : CapsuleScan}

theorem Extends.stop : Extends extract config rows s s.candidates :=
  ⟨[], [], (List.append_nil _).symm, List.nil_sublist _, .nil, Nat.zero_le _, id⟩

/-- A row that is stepped over. -/
theorem Extends.skip {next : CapsuleScan} {result : List CapsuleMessage} (row : Option HistoryRow)
    (hcandidates : next.candidates = s.candidates) (hremaining : next.remaining = s.remaining)
    (h : Extends extract config rows next result) : Extends extract config (row :: rows) s result := by
  obtain ⟨picked, added, hresult, hpicked, hshows, hchars, hcount⟩ := h
  rw [hcandidates] at hresult hcount
  rw [hremaining] at hchars
  exact ⟨picked, added, hresult, hpicked.cons row, hshows, hchars, hcount⟩

/-- A row that is shown. -/
theorem Extends.take {next : CapsuleScan} {result : List CapsuleMessage} {row : Option HistoryRow}
    {message : CapsuleMessage} (hshow : Shows extract config row message)
    (hcandidates : next.candidates = s.candidates ++ [message])
    (hremaining : next.remaining + message.content.length = s.remaining)
    (hcount : s.candidates.length < config.historyMaxExchanges * 2)
    (h : Extends extract config rows next result) : Extends extract config (row :: rows) s result := by
  obtain ⟨picked, added, hresult, hpicked, hshows, hchars, hnext⟩ := h
  refine ⟨row :: picked, message :: added, ?_, hpicked.cons_cons row, .cons hshow hshows, ?_, ?_⟩
  · rw [hresult, hcandidates, List.append_assoc]
    rfl
  · have hcons : contentChars (message :: added) = message.content.length + contentChars added :=
      List.sum_cons
    omega
  · intro _
    apply hnext
    rw [hcandidates, List.length_append, List.length_singleton]
    omega

theorem scanHistory_extends (current : Text) (rows : List (Option HistoryRow)) (s : CapsuleScan)
    (hbudget : s.remaining ≤ config.historyMaxChars) :
    Extends extract config rows s (scanHistory extract config current rows s) := by
  induction rows generalizing s with
  | nil => exact .stop
  | cons raw rest ih =>
    rw [scanHistory]
    by_cases hlimit : config.historyMaxExchanges * HISTORY_INSPECTED_ROWS_PER_EXCHANGE ≤ s.index ∨
        s.remaining = 0
    · rw [if_pos hlimit]
      exact .stop
    · rw [if_neg hlimit]
      cases hmessage : safeHistoryMessage extract config.historyMaxChars raw with
      | none => exact .skip raw rfl rfl (ih _ hbudget)
      | some message =>
        dsimp only
        split_ifs with hcurrent hcount
        · exact .skip raw rfl rfl (ih _ hbudget)
        · exact .stop
        · obtain ⟨content, heligible, hcontent, hblank⟩ := safeHistoryMessage_some hmessage
          have hpos : 0 < s.remaining := by omega
          have hclipped := clipText_length message.content s.remaining
          have hshow : Shows extract config raw
              ⟨message.role, clipText message.content s.remaining⟩ := by
            refine ⟨content, s.remaining, heligible, hpos, hbudget, ?_, ?_⟩
            · rwa [← hcontent]
            · rw [← hcontent]
          refine .take hshow rfl ?_ (by omega) (ih _ ?_)
          · exact Nat.sub_add_cancel hclipped
          · exact (Nat.sub_le _ _).trans hbudget

end Scan

/-! ## Sizes -/

theorem Shows.role {extract : Text → Text} {config : PlannerConfig} {row : Option HistoryRow}
    {message : CapsuleMessage} (h : Shows extract config row message) :
    message.role = "user".toList ∨ message.role = "assistant".toList := by
  obtain ⟨content, limit, ⟨raw, text, -, -, -, -, huser | hassistant⟩, -⟩ := h
  · exact .inl huser.1
  · exact .inr hassistant.1

theorem role_of_shows {extract : Text → Text} {config : PlannerConfig}
    {rows : List (Option HistoryRow)} {messages : List CapsuleMessage}
    (h : List.Forall₂ (Shows extract config) rows messages) :
    ∀ m ∈ messages, m.role = "user".toList ∨ m.role = "assistant".toList := by
  induction h with
  | nil => simp
  | cons hshow _ ih => exact List.forall_mem_cons.mpr ⟨hshow.role, ih⟩

theorem utf8Len_roleJson_capsule {role : Text} (h : role = "user".toList ∨ role = "assistant".toList)
    (content : Text) :
    utf8Len (Json.dumpsPlain Json.quoteRaw (roleJson role content)) ≤
      Json.escapedLen content + 33 := by
  have hrole : utf8Len (Json.quoteRaw role) ≤ 11 := by
    rcases h with rfl | rfl <;> decide
  have hkey : utf8Len (Json.quoteRaw "role") = 6 := by decide
  have hcontent : utf8Len (Json.quoteRaw "content") = 9 := by decide
  have hquoted := Json.utf8Len_quoteRaw content
  have hopen : Char.utf8Size '{' = 1 := by decide
  have hclose : Char.utf8Size '}' = 1 := by decide
  have hcolon : Char.utf8Size ':' = 1 := by decide
  have hcomma : Char.utf8Size ',' = 1 := by decide
  rw [roleJson, Json.dumpsPlain_obj]
  simp only [List.map_cons, List.map_nil, Json.joinComma, Json.dumpsPlain, utf8Len_cons,
    utf8Len_append, utf8Len_nil, hopen, hclose, hcolon, hcomma, hkey, hcontent, hquoted]
  omega

/-- The encoded messages, within six bytes a character. -/
theorem utf8Len_messages {texts : Text → Text} (htexts : ∀ t, Json.escapedLen (texts t) ≤ 6 * t.length)
    (messages : List CapsuleMessage)
    (hrole : ∀ m ∈ messages, m.role = "user".toList ∨ m.role = "assistant".toList) :
    (messages.map fun m =>
      utf8Len (Json.dumpsPlain Json.quoteRaw (roleJson m.role (texts m.content)))).sum ≤
        6 * contentChars messages + 33 * messages.length := by
  induction messages with
  | nil => exact Nat.zero_le _
  | cons m messages ih =>
    have hm := utf8Len_roleJson_capsule (hrole m List.mem_cons_self) (texts m.content)
    have hcontent := htexts m.content
    have hrest := ih fun n hn => hrole n (List.mem_cons_of_mem m hn)
    have hchars : contentChars (m :: messages) = m.content.length + contentChars messages :=
      List.sum_cons
    rw [List.map_cons, List.sum_cons, List.length_cons]
    omega

theorem utf8Len_capsule {texts : Text → Text} (htexts : ∀ t, Json.escapedLen (texts t) ≤ 6 * t.length)
    (capsule : Capsule) (hrole : ∀ m ∈ capsule.recentConversation,
      m.role = "user".toList ∨ m.role = "assistant".toList) :
    utf8Len (Json.dumpsPlain Json.quoteRaw (capsule.mapTexts texts).json) ≤
      6 * (capsule.currentUserMessage.length + contentChars capsule.recentConversation) +
        34 * capsule.recentConversation.length + 54 := by
  have hmessages := utf8Len_messages htexts capsule.recentConversation hrole
  have hcurrent := htexts capsule.currentUserMessage
  have hquoted := Json.utf8Len_quoteRaw (texts capsule.currentUserMessage)
  have hkey : utf8Len (Json.quoteRaw "current_user_message") = 22 := by decide
  have hrecent : utf8Len (Json.quoteRaw "recent_conversation") = 21 := by decide
  have hopen : Char.utf8Size '{' = 1 := by decide
  have hclose : Char.utf8Size '}' = 1 := by decide
  have hbegin : Char.utf8Size '[' = 1 := by decide
  have hend : Char.utf8Size ']' = 1 := by decide
  have hcolon : Char.utf8Size ':' = 1 := by decide
  have hcomma : Char.utf8Size ',' = 1 := by decide
  rw [Capsule.json, Json.dumpsPlain_obj]
  simp only [List.map_cons, List.map_nil, Json.joinComma, Json.dumpsPlain_arr, Capsule.mapTexts,
    List.map_map, Function.comp_def, utf8Len_cons, utf8Len_append, utf8Len_nil,
    Json.utf8Len_joinComma, List.length_map, hopen, hclose, hbegin, hend, hcolon, hcomma, hkey,
    hrecent]
  rw [Json.dumpsPlain, hquoted]
  omega

/-! ## The capsule fits -/

theorem serializeCapsule_ok {config : PlannerConfig} {capsule : Capsule}
    (h : utf8Len (Json.dumpsPlain Json.quoteRaw capsule.json) ≤ capsuleByteLimit config) :
    ∃ serialized, serializeCapsule config capsule = .ok serialized := by
  rw [serializeCapsule]
  exact ⟨_, if_neg (Nat.not_lt.mpr h)⟩

end BetterHindsight
