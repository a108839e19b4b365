import Oxydra.Library.TextSearch
import Oxydra.Scheduler.DeliveryRoutes

/-!
# Proactive delivery

`TelegramProactiveSender` of `crates/channels/src/telegram.rs` sends what the scheduler has to say to
a chat, or to a thread of it. A text is cut into chunks. Each chunk is sent as HTML, and as plain
text where the HTML is refused; where the first chunk does not find the thread, the whole batch goes
to the main chat instead. The outcome of a text batch is reported to the delivery routes.

`sendProactive_truthful_iff` says when the outcome and the report are true of what was accepted. The
result of a plain text is not looked at outside of the switch to the main chat, so they are not when
the API refuses both forms of a chunk elsewhere.

The answers of the API are inputs: a batch makes each call at most once, so a table of answers by
chunk, target and form is any sequence of results.
-/

namespace Oxydra

open Option Text

/-! ## Texts and targets -/

/-- The rounds of `split_message`, of which one that does not shorten the rest is made forever. -/
def splitFrom (max_len : ℕ) : ℕ → String → Option (List String)
  | 0, _ => none
  | rounds + 1, remaining =>
    if max_len < remaining.utf8ByteSize then
      -- `&remaining[..max_len]` panics inside a character
      match sliceTo max_len remaining with
      | none => none
      | some search_window =>
        let window := search_window.toList
        let split_pos := (((rfind ['\n', '\n'] window).or (rfind ['\n'] window)).or
          (rfind [' '] window)).getD window.length
        let chunk := String.ofList (remaining.toList.take split_pos)
        let rest := trimStartMatches '\n' (String.ofList (remaining.toList.drop split_pos))
        (splitFrom max_len rounds rest).map (chunk :: ·)
    else if remaining = "" then some [] else some [remaining]

/-- `split_message`, where it returns. -/
def splitMessage (text : String) (max_len : ℕ) : Option (List String) :=
  if text.utf8ByteSize ≤ max_len then some [text]
  else splitFrom max_len (text.toList.length + 1) text

/-- `parse_channel_context_id`. -/
def parseChannelContextId (ctx : String) : Option (ℤ × Option ℤ) :=
  let cs := ctx.toList
  if ':' ∈ cs then do
    let chat_id ← parseInt 64 (cs.takeWhile (· ≠ ':'))
    let thread_id ← parseInt 32 (cs.dropWhile (· ≠ ':')).tail
    some (chat_id, some thread_id)
  else do
    let chat_id ← parseInt 64 cs
    some (chat_id, none)

/-- `is_thread_not_found_error`. `to_lowercase` differs from the lower case of ASCII in no letter of
the pattern. -/
def isThreadNotFoundError (err : String) : Bool :=
  contains "message thread not found" (asciiLower err)

inductive ProactiveDeliveryOutcome where
  | primarySuccess
  | threadNotFoundFallbackSuccess
  | threadNotFoundFallbackFailed
  | otherFailure
  deriving DecidableEq, Repr

/-! ## Text batches -/

/-- The forms in which a chunk is sent. -/
inductive TextForm where
  | html
  | plain
  deriving DecidableEq, Repr

/-- The parameters of a `sendMessage` call. -/
structure SendMessageParams where
  chat_id : ℤ
  message_thread_id : Option ℤ
  form : TextForm
  text : String
  deriving DecidableEq, Repr

/-- A `sendMessage` call and the API's answer. -/
structure SentMessage where
  params : SendMessageParams
  error : Option String
  deriving DecidableEq, Repr

/-- A chunk and the calls that were made for it. -/
structure ChunkDelivery where
  chunk : String
  sent : List SentMessage
  deriving DecidableEq, Repr

/-- The API has accepted a chunk at a target, as HTML or as plain text. -/
def ChunkDelivery.AcceptedAt (target : Option ℤ) (d : ChunkDelivery) : Prop :=
  ∃ m ∈ d.sent, m.params.message_thread_id = target ∧ m.error = none

instance (target : Option ℤ) (d : ChunkDelivery) : Decidable (d.AcceptedAt target) :=
  inferInstanceAs (Decidable (∃ m ∈ d.sent, _))

/-- What a batch is sent with: the API's error, if any, for each call for a chunk, the conversion
`markdown_to_telegram_html`, the chat, and the thread. -/
structure TextTarget where
  answer : ℕ → SendMessageParams → Option String
  markdownToTelegramHtml : String → String
  chat_id : ℤ
  thread_id : Option ℤ

namespace TextTarget

variable (t : TextTarget)

/-- The call that sends a chunk. -/
def params (target : Option ℤ) (form : TextForm) (chunk : String) : SendMessageParams where
  chat_id := t.chat_id
  message_thread_id := target
  form := form
  text :=
    match form with
    | .html => t.markdownToTelegramHtml chunk
    | .plain => chunk

/-- `send_message_html` and `send_message_plain`, for the `i`th chunk. -/
def send (i : ℕ) (target : Option ℤ) (form : TextForm) (chunk : String) : SentMessage where
  params := t.params target form chunk
  error := t.answer i (t.params target form chunk)

/-- The variables of the loop of `send_text_batch`. -/
structure BatchState where
  effective_thread_id : Option ℤ
  target_switched : Bool := false
  fallback_failed : Bool := false
  deriving DecidableEq, Repr

/-- The loop body of `send_text_batch`. -/
def sendChunk (i : ℕ) (chunk : String) (s : BatchState) : ChunkDelivery × BatchState :=
  let result := t.send i s.effective_thread_id .html chunk
  match result.error with
  | none => (⟨chunk, [result]⟩, s)
  | some e =>
    if i = 0 ∧ isThreadNotFoundError e ∧ t.thread_id.isSome then
      let retried := t.send i none .html chunk
      let plain := t.send i none .plain chunk
      if retried.error = none then (⟨chunk, [result, retried]⟩, ⟨none, true, s.fallback_failed⟩)
      else if plain.error = none then
        (⟨chunk, [result, retried, plain]⟩, ⟨none, true, s.fallback_failed⟩)
      else (⟨chunk, [result, retried, plain]⟩, ⟨none, true, true⟩)
    else
      -- what becomes of the plain text is not looked at
      (⟨chunk, [result, t.send i s.effective_thread_id .plain chunk]⟩, s)

/-- The loop of `send_text_batch`, from the `i`th chunk on. -/
def sendChunks : ℕ → List String → BatchState → List ChunkDelivery × BatchState
  | _, [], s => ([], s)
  | i, chunk :: chunks, s =>
    let (delivery, s) := t.sendChunk i chunk s
    let (deliveries, s) := sendChunks (i + 1) chunks s
    (delivery :: deliveries, s)

/-- The outcome that the variables of the loop give at its end. -/
def BatchState.outcome (s : BatchState) : ProactiveDeliveryOutcome :=
  if s.target_switched then
    if s.fallback_failed then .threadNotFoundFallbackFailed else .threadNotFoundFallbackSuccess
  else .primarySuccess

/-- `send_text_batch`, from the chunks on. -/
def sendTextBatch (chunks : List String) : List ChunkDelivery × ProactiveDeliveryOutcome :=
  let (deliveries, s) := t.sendChunks 0 chunks { effective_thread_id := t.thread_id }
  (deliveries, s.outcome)

/-- The API takes a chunk at a target, in one of the two forms. -/
def Takes (i : ℕ) (target : Option ℤ) (chunk : String) : Prop :=
  (t.send i target .html chunk).error = none ∨ (t.send i target .plain chunk).error = none

/-- The API says that the thread of the batch does not exist when it is sent the first chunk. -/
def ThreadIsGone (chunks : List String) : Prop :=
  t.thread_id.isSome ∧ ∃ chunk ∈ chunks.head?,
    ∃ e ∈ (t.send 0 t.thread_id .html chunk).error, isThreadNotFoundError e

/-- The condition on the API's answers: it takes every chunk, in one of the two forms, at the thread
or, where the thread is gone, at the main chat; or the thread is gone and the main chat takes
neither form of the first chunk. -/
def TakesBatch (chunks : List String) : Prop :=
  (¬t.ThreadIsGone chunks ∧ ∀ i chunk, chunks[i]? = some chunk → t.Takes i t.thread_id chunk) ∨
    (t.ThreadIsGone chunks ∧
      ((∀ i chunk, chunks[i]? = some chunk → t.Takes i none chunk) ∨
        ∃ chunk ∈ chunks.head?, ¬t.Takes 0 none chunk))

/-- The outcome of a batch is true: a success at the primary target means that every chunk was
accepted there, and one of the fallback that every chunk was accepted at the main chat. -/
def Truthful (batch : List ChunkDelivery × ProactiveDeliveryOutcome) : Prop :=
  (batch.2 = .primarySuccess → ∀ d ∈ batch.1, d.AcceptedAt t.thread_id) ∧
    (batch.2 = .threadNotFoundFallbackSuccess → ∀ d ∈ batch.1, d.AcceptedAt none)

/-! ### The loop -/

variable {t}

theorem sendChunks_cons (i : ℕ) (chunk : String) (chunks : List String) (s : BatchState) :
    t.sendChunks i (chunk :: chunks) s =
      ((t.sendChunk i chunk s).1 :: (t.sendChunks (i + 1) chunks (t.sendChunk i chunk s).2).1,
        (t.sendChunks (i + 1) chunks (t.sendChunk i chunk s).2).2) := rfl

/-- A chunk for which the target is not switched is sent to the target of the loop alone, and the
loop goes on as it was. -/
theorem sendChunk_kept (i : ℕ) (chunk : String) (s : BatchState)
    (h : ∀ e ∈ (t.send i s.effective_thread_id .html chunk).error,
      ¬(i = 0 ∧ isThreadNotFoundError e ∧ t.thread_id.isSome)) :
    (t.sendChunk i chunk s).2 = s ∧
      ((t.sendChunk i chunk s).1.AcceptedAt s.effective_thread_id ↔
        t.Takes i s.effective_thread_id chunk) := by
  unfold sendChunk Takes
  dsimp only
  cases hhtml : (t.send i s.effective_thread_id .html chunk).error with
  | none =>
    have hself : (t.send i s.effective_thread_id .html chunk).params.message_thread_id =
        s.effective_thread_id := rfl
    exact ⟨rfl, by simp [ChunkDelivery.AcceptedAt, hself, hhtml]⟩
  | some e =>
    have hkept := h e (by rw [hhtml]; rfl)
    dsimp only
    rw [if_neg hkept]
    have hself : ∀ form, (t.send i s.effective_thread_id form chunk).params.message_thread_id =
        s.effective_thread_id := fun _ => rfl
    exact ⟨rfl, by simp [ChunkDelivery.AcceptedAt, hself, hhtml]⟩

/-- The first chunk of a batch whose thread is gone switches the target, and is sent to the main
chat. -/
theorem sendChunk_switched {chunk e : String} {s : BatchState}
    (hhtml : (t.send 0 s.effective_thread_id .html chunk).error = some e)
    (hgone : isThreadNotFoundError e) (hthread : t.thread_id.isSome)
    (htarget : s.effective_thread_id = t.thread_id) (hfresh : s.fallback_failed = false) :
    (t.sendChunk 0 chunk s).2.effective_thread_id = none ∧
      (t.sendChunk 0 chunk s).2.target_switched = true ∧
      ((t.sendChunk 0 chunk s).2.fallback_failed = false ↔ t.Takes 0 none chunk) ∧
      ((t.sendChunk 0 chunk s).1.AcceptedAt none ↔ t.Takes 0 none chunk) := by
  have hfirst : (t.send 0 s.effective_thread_id .html chunk).params.message_thread_id ≠ none := by
    show s.effective_thread_id ≠ none
    rw [htarget]
    exact isSome_iff_ne_none.mp hthread
  have hself : ∀ form, (t.send 0 none form chunk).params.message_thread_id = none := fun _ => rfl
  unfold sendChunk Takes
  dsimp only
  rw [hhtml]
  dsimp only
  rw [if_pos ⟨rfl, hgone, hthread⟩]
  by_cases hretried : (t.send 0 none .html chunk).error = none
  · rw [if_pos hretried]
    exact ⟨rfl, rfl, by simp [hfresh, hretried],
      by simp [ChunkDelivery.AcceptedAt, hself, hretried]⟩
  · rw [if_neg hretried]
    by_cases hplain : (t.send 0 none .plain chunk).error = none
    · rw [if_pos hplain]
      exact ⟨rfl, rfl, by simp [hfresh, hplain], by simp [ChunkDelivery.AcceptedAt, hself, hplain]⟩
    · rw [if_neg hplain]
      exact ⟨rfl, rfl, by simp [hretried, hplain],
        by simp [ChunkDelivery.AcceptedAt, hself, hretried, hplain, hfirst]⟩

/-- The chunks behind the first one go to the target of the loop, which stays. -/
theorem sendChunks_later (chunks : List String) (i : ℕ) (s : BatchState) :
    (t.sendChunks (i + 1) chunks s).2 = s ∧
      ((∀ d ∈ (t.sendChunks (i + 1) chunks s).1, d.AcceptedAt s.effective_thread_id) ↔
        ∀ j chunk, chunks[j]? = some chunk → t.Takes (i + 1 + j) s.effective_thread_id chunk) := by
  induction chunks generalizing i with
  | nil => exact ⟨rfl, by simp [sendChunks]⟩
  | cons chunk chunks ih =>
    obtain ⟨hstate, haccepted⟩ := sendChunk_kept (t := t) (i + 1) chunk s
      (fun e _ h => absurd h.1 (Nat.succ_ne_zero i))
    obtain ⟨ihstate, ihaccepted⟩ := ih (i + 1)
    rw [sendChunks_cons, hstate]
    refine ⟨ihstate, ?_⟩
    rw [List.forall_mem_cons, haccepted, ihaccepted]
    constructor
    · rintro ⟨hhead, htail⟩ j chunk' hj
      cases j with
      | zero => exact some.inj hj ▸ hhead
      | succ j =>
        rw [show i + 1 + (j + 1) = i + 1 + 1 + j by omega]
        exact htail j chunk' hj
    · intro hall
      refine ⟨hall 0 chunk rfl, fun j chunk' hj => ?_⟩
      rw [show i + 1 + 1 + j = i + 1 + (j + 1) by omega]
      exact hall (j + 1) chunk' hj

/-- What holds of a chunk and its number holds of the first one and of those behind it. -/
theorem forall_chunk_cons {P : ℕ → String → Prop} {chunk : String} {chunks : List String} :
    (∀ i c, (chunk :: chunks)[i]? = some c → P i c) ↔
      P 0 chunk ∧ ∀ i c, chunks[i]? = some c → P (0 + 1 + i) c := by
  constructor
  · intro hall
    refine ⟨hall 0 chunk rfl, fun i c hi => ?_⟩
    rw [show 0 + 1 + i = i + 1 by omega]
    exact hall (i + 1) c hi
  · rintro ⟨hhead, htail⟩ i c hi
    cases i with
    | zero => exact some.inj hi ▸ hhead
    | succ i =>
      rw [show i + 1 = 0 + 1 + i by omega]
      exact htail i c hi

/-- The outcome of a batch is true exactly under the condition on the API's answers. -/
theorem sendTextBatch_truthful_iff (chunks : List String) :
    t.Truthful (t.sendTextBatch chunks) ↔ t.TakesBatch chunks := by
  cases chunks with
  | nil => simp [Truthful, TakesBatch, ThreadIsGone, sendTextBatch, sendChunks]
  | cons chunk chunks =>
    obtain ⟨s, htarget, hprimary, hfresh, hbatch⟩ : ∃ s : BatchState,
        s.effective_thread_id = t.thread_id ∧ s.target_switched = false ∧
        s.fallback_failed = false ∧ t.sendTextBatch (chunk :: chunks) =
        ((t.sendChunk 0 chunk s).1 :: (t.sendChunks (0 + 1) chunks (t.sendChunk 0 chunk s).2).1,
          (t.sendChunks (0 + 1) chunks (t.sendChunk 0 chunk s).2).2.outcome) :=
      ⟨{ effective_thread_id := t.thread_id }, rfl, rfl, rfl, rfl⟩
    obtain ⟨hstate, hlater⟩ := sendChunks_later chunks 0 (t.sendChunk 0 chunk s).2
    rw [hbatch, hstate]
    by_cases hgone : t.ThreadIsGone (chunk :: chunks)
    · -- the whole batch goes to the main chat
      obtain ⟨hthread, first, hfirst, e, he, hnotfound⟩ := id hgone
      obtain rfl : chunk = first := some.inj hfirst
      rw [← htarget] at he
      obtain ⟨hnone, hswitched, hfailed, haccepted⟩ :=
        sendChunk_switched he hnotfound hthread htarget hfresh
      rw [hnone] at hlater
      unfold Truthful BatchState.outcome TakesBatch
      simp only [hgone, not_true, false_and, true_and, false_or, hswitched, if_true,
        List.forall_mem_cons, haccepted, hlater, List.head?_cons, mem_some_iff,
        exists_eq_left', forall_chunk_cons]
      by_cases htakes : t.Takes 0 none chunk
      · simp [htakes, hfailed.mpr htakes]
      · simp [htakes, Bool.eq_true_of_not_eq_false (mt hfailed.mp htakes)]
    · -- every chunk goes to the primary target
      obtain ⟨hsame, haccepted⟩ := sendChunk_kept (t := t) 0 chunk s
        (fun e he h => hgone ⟨h.2.2, chunk, rfl, e, htarget ▸ he, h.2.1⟩)
      rw [htarget] at haccepted
      rw [hsame, htarget] at hlater
      rw [hsame]
      unfold Truthful BatchState.outcome TakesBatch
      simp only [hgone, not_false_eq_true, true_and, false_and, or_false, hprimary,
        Bool.false_eq_true, if_false, reduceCtorEq, false_implies, and_true, true_implies,
        List.forall_mem_cons, haccepted, hlater, forall_chunk_cons]

end TextTarget

/-! ## Attachments -/

inductive MediaUploadError where
  | io
  | api (description : String)
  deriving DecidableEq, Repr

/-- `MEDIA_UPLOAD_MAX_RETRIES`. -/
def mediaUploadMaxRetries : ℕ := 2

/-- The loop of `upload_media_with_retries`, with `left` retries after the attempt. -/
def uploadAttempts (upload : ℕ → Except MediaUploadError Unit) (attempt : ℕ) :
    ℕ → Except MediaUploadError Unit
  | 0 => upload attempt
  | left + 1 =>
    match upload attempt with
    | .error (.api e) =>
      if isThreadNotFoundError e then .error (.api e) else uploadAttempts upload (attempt + 1) left
    | result => result

/-- `upload_media_with_retries`. -/
def uploadMediaWithRetries (upload : ℕ → Except MediaUploadError Unit) :
    Except MediaUploadError Unit :=
  uploadAttempts upload 0 mediaUploadMaxRetries

/-- `send_media_proactive`, without the notices that it sends. -/
def sendMediaProactive (upload : Option ℤ → ℕ → Except MediaUploadError Unit)
    (thread_id : Option ℤ) : ProactiveDeliveryOutcome :=
  match uploadMediaWithRetries (upload thread_id) with
  | .ok () => .primarySuccess
  | .error .io => .otherFailure
  | .error (.api e) =>
    if isThreadNotFoundError e ∧ thread_id.isSome then
      match uploadMediaWithRetries (upload none) with
      | .ok () => .threadNotFoundFallbackSuccess
      | .error _ => .threadNotFoundFallbackFailed
    else .otherFailure

/-! ## Frames -/

/-- The frames of `GatewayServerFrame` that `send_proactive_impl` tells apart. -/
inductive ProactiveFrame where
  | scheduledNotification (schedule_id message : String)
  | mediaAttachment (schedule_id : Option String)
  | other
  deriving DecidableEq, Repr

/-- A `TelegramProactiveSender`, with the answers that it gets. -/
structure TelegramProactiveSender where
  answer : ℕ → SendMessageParams → Option String
  upload : Option ℤ → ℕ → Except MediaUploadError Unit
  markdownToTelegramHtml : String → String
  max_message_length : ℕ
  /-- There is a `streak_updater`. -/
  reports : Bool

/-- What `send_proactive_impl` has done: the chunks of a text, the outcome, and the report. -/
structure ProactiveDelivery where
  chunks : List ChunkDelivery := []
  outcome : ProactiveDeliveryOutcome
  report : Option DeliveryReport := none
  deriving DecidableEq

/-- The outcome for the delivery routes. A failure for another reason than the route is none. -/
def routeOutcome (chat_id : ℤ) : ProactiveDeliveryOutcome → Option RouteDeliveryOutcome
  | .primarySuccess => some .primaryRouteSucceeded
  | .threadNotFoundFallbackSuccess =>
    some (.primaryRouteNotFoundFallbackSucceeded (toString chat_id))
  | .threadNotFoundFallbackFailed => some .primaryRouteNotFoundFallbackFailed
  | .otherFailure => none

namespace TelegramProactiveSender

variable (sender : TelegramProactiveSender)

/-- The chat and the thread of a text batch. -/
def target (chat_id : ℤ) (thread_id : Option ℤ) : TextTarget :=
  ⟨sender.answer, sender.markdownToTelegramHtml, chat_id, thread_id⟩

/-- `send_proactive_impl`, where it returns. -/
def sendProactiveImpl (channel_context_id : String) (frame : ProactiveFrame) :
    Option ProactiveDelivery := do
  let (chat_id, thread_id) ← parseChannelContextId channel_context_id
  match frame with
  | .scheduledNotification schedule_id message =>
    let chunks ← splitMessage message sender.max_message_length
    let (chunks, outcome) := (sender.target chat_id thread_id).sendTextBatch chunks
    let report := (routeOutcome chat_id outcome).map (⟨schedule_id, channel_context_id, ·⟩)
    some ⟨chunks, outcome, if sender.reports then report else none⟩
  | .mediaAttachment (some _) => some { outcome := sendMediaProactive sender.upload thread_id }
  | _ => none

end TelegramProactiveSender

/-- What a text delivery says is true of what was accepted: its outcome, and its report. -/
structure ProactiveDelivery.IsTruthful (d : ProactiveDelivery) (chat_id : ℤ)
    (thread_id : Option ℤ) : Prop where
  primary : d.outcome = .primarySuccess → ∀ c ∈ d.chunks, c.AcceptedAt thread_id
  fallback : d.outcome = .threadNotFoundFallbackSuccess → ∀ c ∈ d.chunks, c.AcceptedAt none
  reported_primary : ∀ r ∈ d.report, r.outcome = .primaryRouteSucceeded →
    ∀ c ∈ d.chunks, c.AcceptedAt thread_id
  reported_fallback : ∀ r ∈ d.report, ∀ ctx,
    r.outcome = .primaryRouteNotFoundFallbackSucceeded ctx →
    ctx = toString chat_id ∧ ∀ c ∈ d.chunks, c.AcceptedAt none

/-- The report says what the outcome says. -/
theorem routeOutcome_cases {chat_id : ℤ} {outcome : ProactiveDeliveryOutcome}
    {route : RouteDeliveryOutcome} (h : routeOutcome chat_id outcome = some route) :
    (route = .primaryRouteSucceeded → outcome = .primarySuccess) ∧
      ∀ ctx, route = .primaryRouteNotFoundFallbackSucceeded ctx →
        ctx = toString chat_id ∧ outcome = .threadNotFoundFallbackSuccess := by
  cases outcome <;> simp only [routeOutcome, some.injEq, reduceCtorEq] at h <;>
    subst h <;> simp

/-- For every message, every target and all answers of the API: the outcome and the report of a
scheduled notification are true of what was accepted exactly when the API takes the batch. -/
theorem sendProactive_truthful_iff (sender : TelegramProactiveSender)
    (channel_context_id schedule_id message : String) :
    (∀ chat_id thread_id, parseChannelContextId channel_context_id = some (chat_id, thread_id) →
      ∀ d ∈ sender.sendProactiveImpl channel_context_id (.scheduledNotification schedule_id message),
        d.IsTruthful chat_id thread_id) ↔
    ∀ chat_id thread_id, parseChannelContextId channel_context_id = some (chat_id, thread_id) →
      ∀ chunks ∈ splitMessage message sender.max_message_length,
        (sender.target chat_id thread_id).TakesBatch chunks := by
  refine forall₃_congr fun chat_id thread_id hctx => ?_
  unfold TelegramProactiveSender.sendProactiveImpl
  rw [hctx]
  dsimp only [bind_eq_bind, bind_some]
  cases hsplit : splitMessage message sender.max_message_length with
  | none => simp
  | some chunks =>
    simp only [bind_some, mem_some_iff, forall_eq']
    rw [← TextTarget.sendTextBatch_truthful_iff]
    generalize hbatch : (sender.target chat_id thread_id).sendTextBatch chunks = batch
    obtain ⟨deliveries, outcome⟩ := batch
    constructor
    · intro h
      exact ⟨h.primary, h.fallback⟩
    · rintro ⟨hprimary, hfallback⟩
      have hreport : ∀ r ∈ (if sender.reports then
          (routeOutcome chat_id outcome).map (DeliveryReport.mk schedule_id channel_context_id ·)
          else none), routeOutcome chat_id outcome = some r.outcome := by
        intro r hr
        split_ifs at hr
        · obtain ⟨route, hroute, rfl⟩ := map_eq_some_iff.mp hr
          exact hroute
        · simp at hr
      refine ⟨hprimary, hfallback, fun r hr hout => ?_, fun r hr ctx hout => ?_⟩
      · exact hprimary ((routeOutcome_cases (hreport r hr)).1 hout)
      · obtain ⟨hctx', hout'⟩ := (routeOutcome_cases (hreport r hr)).2 ctx hout
        exact ⟨hctx', hfallback hout'⟩

/-- An API that refuses every call. -/
def refusingSender : TelegramProactiveSender where
  answer _ _ := some "Bad Gateway"
  upload _ _ := .error (.api "Bad Gateway")
  markdownToTelegramHtml text := text
  max_message_length := 4096
  reports := true

/-- A notification of which the API has accepted nothing is a success of the primary route. -/
theorem refusingSender_reports_success : ∃ d, refusingSender.sendProactiveImpl "-100:42"
    (.scheduledNotification "s1" "Hello") = some d ∧ d.outcome = .primarySuccess ∧
    d.report = some ⟨"s1", "-100:42", .primaryRouteSucceeded⟩ ∧
    (∀ c ∈ d.chunks, ∀ m ∈ c.sent, m.error ≠ none) ∧ ¬d.IsTruthful (-100) (some 42) := by
  refine ⟨_, rfl, ?_, ?_, ?_, fun h => ?_⟩
  · decide
  · decide
  · decide
  · exact absurd (h.primary (by decide)) (by decide)

end Oxydra
