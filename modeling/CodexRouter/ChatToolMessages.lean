/-
# Tool messages of a chat request

`ensure_chat_tool_messages` of `responses_compat.rs`.  The messages are walked from
left to right with the ids of the calls that wait for an answer.  An assistant
message with calls replaces these ids, a tool message takes its own id out of them,
and every other message, like the end of the list, is preceded by one placeholder
for each id that is left.

`completeToolMessages` is the walk.  A message that is followed by its tool
messages and then by another assistant message is the one case in which no
placeholder is put in for it (`answeredIds_completeToolMessages`).
-/
import CodexRouter.Base.Json

namespace CodexRouter

/-! ## The code -/

/-- `chat_tool_call_ids`. -/
def chatToolCallIds (message : Value) : List String :=
  match message.getArray "tool_calls" with
  | some calls => (calls.filterMap (Value.getStr "id")).filter (· ≠ "")
  | none => []

/-- The role of a message, empty if it has none. -/
def messageRole (message : Value) : String := (message.getStr "role").getD ""

/-- The id a tool message answers, empty if it has none. -/
def toolCallId (message : Value) : String := (message.getStr "tool_call_id").getD ""

/-- The placeholder for a lost answer. -/
def missingToolMessage (callId : String) : Value :=
  .object [
    ("content", .string "[tool result missing from history; continue the user task]"),
    ("role", .string "tool"),
    ("tool_call_id", .string callId)]

/-- The loop of `ensure_chat_tool_messages`: the messages from the index on, with what was
put in, and how many that are.  The index is behind everything that was put in before it. -/
def completeToolMessages (pending : List String) : List Value → List Value × ℕ
  | [] => (pending.map missingToolMessage, pending.length)
  | message :: rest =>
    if messageRole message = "assistant" then
      let ids := chatToolCallIds message
      let (out, inserted) := completeToolMessages (if ids ≠ [] then ids else pending) rest
      (message :: out, inserted)
    else if messageRole message = "tool" then
      let (out, inserted) := completeToolMessages (pending.filter (· ≠ toolCallId message)) rest
      (message :: out, inserted)
    else
      let (out, inserted) := completeToolMessages [] rest
      (pending.map missingToolMessage ++ message :: out, pending.length + inserted)

/-- `ensure_chat_tool_messages`: the body and how many messages were put in. -/
def ensureChatToolMessages (body : Members) : Members × ℕ :=
  match (body.get "messages").bind Value.asArray with
  | none => (body, 0)
  | some messages =>
    let (out, inserted) := completeToolMessages [] messages
    (body.modify "messages" fun _ => .array out, inserted)

/-! ## Messages and their answers -/

/-- A tool message. -/
def isToolMessage (message : Value) : Bool := messageRole message = "tool"

/-- The ids that are answered before the first message that is no tool message. -/
def answeredIds (messages : List Value) : List String := (messages.takeWhile isToolMessage).map toolCallId

/-- A property of every assistant message and what follows it. -/
def ForAssistants (p : Value → List Value → Prop) (messages : List Value) : Prop :=
  ∀ message after, message :: after <:+ messages → messageRole message = "assistant" → p message after

/-- Every call of an assistant message is answered before the next message that is no tool message. -/
def Completed (messages : List Value) : Prop :=
  ForAssistants (fun message after => ∀ id ∈ chatToolCallIds message, id ∈ answeredIds after) messages

/-- A list of messages with placeholders put in. -/
inductive PutIn : List Value → List Value → Prop
  | nil : PutIn [] []
  | keep {messages out : List Value} (message : Value) (h : PutIn messages out) :
      PutIn (message :: messages) (message :: out)
  | put {messages out : List Value} (callId : String) (h : PutIn messages out) :
      PutIn messages (missingToolMessage callId :: out)

/-- `ensure_chat_tool_messages` completes the messages of a body, and only puts placeholders in. -/
def CompletesMessages (body : Members) : Prop :=
  ∀ messages, body.get "messages" = some (.array messages) →
    ∃ out, (ensureChatToolMessages body).1.get "messages" = some (.array out)
      ∧ Completed out ∧ PutIn messages out

/-- The tool messages are followed by an assistant message. -/
def assistantNext (messages : List Value) : Bool :=
  (messages.dropWhile isToolMessage).head?.any (messageRole · = "assistant")

/-- An assistant message is not followed by another one before its calls are answered. -/
def AnsweredBeforeAssistant (messages : List Value) : Prop :=
  ForAssistants (fun message after => assistantNext after = true →
    ∀ id ∈ chatToolCallIds message, id ∈ answeredIds after) messages

section

variable {p : Value → List Value → Prop} {message : Value} {messages out rest : List Value}

@[simp] theorem forAssistants_nil : ForAssistants p [] := by
  intro message after h
  simp at h

@[simp] theorem forAssistants_cons : ForAssistants p (message :: rest)
    ↔ (messageRole message = "assistant" → p message rest) ∧ ForAssistants p rest := by
  constructor
  · intro h
    exact ⟨h message rest (List.suffix_refl _), fun m after hm => h m after (hm.trans (List.suffix_cons _ _))⟩
  · rintro ⟨hfirst, hrest⟩ m after hm hrole
    rcases List.suffix_cons_iff.mp hm with heq | hm
    · obtain ⟨rfl, rfl⟩ := List.cons.inj heq
      exact hfirst hrole
    · exact hrest m after hm hrole

@[simp] theorem messageRole_missing (callId : String) : messageRole (missingToolMessage callId) = "tool" := rfl

@[simp] theorem isToolMessage_missing (callId : String) : isToolMessage (missingToolMessage callId) = true := rfl

@[simp] theorem toolCallId_missing (callId : String) : toolCallId (missingToolMessage callId) = callId := rfl

/-- Placeholders are no assistant messages. -/
@[simp] theorem forAssistants_missing (pending : List String) :
    ForAssistants p (pending.map missingToolMessage ++ rest) ↔ ForAssistants p rest := by
  induction pending with
  | nil => rfl
  | cons callId pending ih =>
    rw [List.map_cons, List.cons_append, forAssistants_cons, ih, and_iff_right]
    intro h
    rw [messageRole_missing] at h
    exact absurd h (by decide)

/-- Placeholders answer their ids. -/
theorem answeredIds_missing (pending : List String) :
    answeredIds (pending.map missingToolMessage ++ rest) = pending ++ answeredIds rest := by
  induction pending with
  | nil => rfl
  | cons callId pending ih =>
    rw [List.map_cons, List.cons_append, answeredIds, List.takeWhile_cons_of_pos (isToolMessage_missing _),
      List.map_cons, ← answeredIds, ih]
    rfl

theorem answeredIds_tool (h : isToolMessage message = true) :
    answeredIds (message :: rest) = toolCallId message :: answeredIds rest := by
  rw [answeredIds, List.takeWhile_cons_of_pos h]
  rfl

theorem answeredIds_other (h : isToolMessage message = false) : answeredIds (message :: rest) = [] := by
  rw [answeredIds, List.takeWhile_cons_of_neg (by rw [h]; decide)]
  rfl

theorem PutIn.putAll (pending : List String) (h : PutIn messages out) :
    PutIn messages (pending.map missingToolMessage ++ out) := by
  induction pending with
  | nil => exact h
  | cons callId pending ih => exact .put callId ih

/-- No message is lost, and none changes its place. -/
theorem PutIn.sublist (h : PutIn messages out) : messages.Sublist out := by
  induction h with
  | nil => exact .slnil
  | keep message h ih => exact ih.cons_cons message
  | put callId h ih => exact ih.cons _

end

/-! ## The walk -/

section

variable (pending : List String) {message : Value} {rest : List Value}

/-- The cases of a message, by its role. -/
theorem completeToolMessages_assistant (h : messageRole message = "assistant") :
    (completeToolMessages pending (message :: rest)).1 = message ::
      (completeToolMessages (if chatToolCallIds message ≠ [] then chatToolCallIds message else pending) rest).1 := by
  rw [completeToolMessages, if_pos h]

theorem completeToolMessages_tool (h : isToolMessage message = true) :
    (completeToolMessages pending (message :: rest)).1
      = message :: (completeToolMessages (pending.filter (· ≠ toolCallId message)) rest).1 := by
  have hrole : messageRole message = "tool" := of_decide_eq_true h
  rw [completeToolMessages, if_neg (by rw [hrole]; decide), if_pos hrole]

theorem completeToolMessages_other (hassistant : messageRole message ≠ "assistant")
    (htool : isToolMessage message = false) :
    (completeToolMessages pending (message :: rest)).1
      = pending.map missingToolMessage ++ message :: (completeToolMessages [] rest).1 := by
  rw [completeToolMessages, if_neg hassistant, if_neg (of_decide_eq_false htool)]

/-- An assistant message is no tool message. -/
theorem isToolMessage_of_assistant (h : messageRole message = "assistant") : isToolMessage message = false := by
  rw [isToolMessage, h]
  decide

/-- Only placeholders are put in. -/
theorem putIn_completeToolMessages (messages : List Value) :
    PutIn messages (completeToolMessages pending messages).1 := by
  induction messages generalizing pending with
  | nil =>
    rw [completeToolMessages, ← List.append_nil (pending.map _)]
    exact PutIn.nil.putAll pending
  | cons message rest ih =>
    by_cases hassistant : messageRole message = "assistant"
    · rw [completeToolMessages_assistant pending hassistant]
      exact (ih _).keep message
    · cases htool : isToolMessage message with
      | true =>
        rw [completeToolMessages_tool pending htool]
        exact (ih _).keep message
      | false =>
        rw [completeToolMessages_other pending hassistant htool]
        exact ((ih []).keep message).putAll pending

/-- What is pending is answered behind the tool messages, unless an assistant message follows them. -/
theorem answeredIds_completeToolMessages (messages : List Value) :
    answeredIds (completeToolMessages pending messages).1
      = answeredIds messages
        ++ if assistantNext messages then [] else pending.filter (· ∉ answeredIds messages) := by
  induction messages generalizing pending with
  | nil =>
    have : answeredIds (pending.map missingToolMessage ++ []) = pending ++ answeredIds [] :=
      answeredIds_missing pending
    simpa [completeToolMessages, answeredIds, assistantNext] using this
  | cons message rest ih =>
    by_cases hassistant : messageRole message = "assistant"
    · have htool := isToolMessage_of_assistant hassistant
      have hnext : assistantNext (message :: rest) = true := by
        simp [assistantNext, htool, hassistant]
      rw [completeToolMessages_assistant pending hassistant, answeredIds_other htool, answeredIds_other htool,
        if_pos hnext]
      rfl
    · cases htool : isToolMessage message with
      | true =>
        have hnext : assistantNext (message :: rest) = assistantNext rest := by
          rw [assistantNext, List.dropWhile_cons_of_pos htool]
          rfl
        rw [completeToolMessages_tool pending htool, answeredIds_tool htool, answeredIds_tool htool, ih, hnext,
          List.filter_filter, List.cons_append]
        congr 3
        simp [Bool.and_comm]
      | false =>
        have hnext : assistantNext (message :: rest) = false := by
          simp [assistantNext, htool, hassistant]
        rw [completeToolMessages_other pending hassistant htool, answeredIds_missing, answeredIds_other htool,
          answeredIds_other htool, hnext]
        simp

/-- The walk completes the messages, unless an assistant message comes before an answer. -/
theorem completed_completeToolMessages (messages : List Value) :
    Completed (completeToolMessages pending messages).1 ↔ AnsweredBeforeAssistant messages := by
  unfold Completed AnsweredBeforeAssistant
  induction messages generalizing pending with
  | nil =>
    rw [completeToolMessages, ← List.append_nil (pending.map _), forAssistants_missing]
    exact iff_of_true forAssistants_nil forAssistants_nil
  | cons message rest ih =>
    by_cases hassistant : messageRole message = "assistant"
    · rw [completeToolMessages_assistant pending hassistant, forAssistants_cons, forAssistants_cons, ih,
        answeredIds_completeToolMessages]
      refine and_congr_left fun _ => imp_congr_right fun _ => ?_
      cases hnext : assistantNext rest with
      | true => simp
      | false =>
        refine iff_of_true (fun id hid => ?_) (fun h => absurd h (by decide))
        rw [if_pos (List.ne_nil_of_mem hid)]
        by_cases hanswered : id ∈ answeredIds rest
        · exact List.mem_append_left _ hanswered
        · exact List.mem_append_right _ (List.mem_filter.mpr ⟨hid, decide_eq_true hanswered⟩)
    · have hskip : ∀ {p : Value → List Value → Prop} {rest : List Value},
          ForAssistants p (message :: rest) ↔ ForAssistants p rest := fun {p rest} =>
        forAssistants_cons.trans (and_iff_right fun h => absurd h hassistant)
      cases htool : isToolMessage message with
      | true => rw [completeToolMessages_tool pending htool, hskip, hskip, ih]
      | false => rw [completeToolMessages_other pending hassistant htool, forAssistants_missing, hskip, hskip, ih]

end

/-! ## The whole function -/

/-- **The messages are completed in place exactly when no assistant message comes before an answer** to
the assistant message in front of it. -/
theorem completesMessages_iff (body : Members) :
    CompletesMessages body
      ↔ ∀ messages, body.get "messages" = some (.array messages) → AnsweredBeforeAssistant messages := by
  refine forall_congr' fun messages => imp_congr_right fun hbody => ?_
  have hout : (ensureChatToolMessages body).1.get "messages"
      = some (.array (completeToolMessages [] messages).1) := by
    rw [ensureChatToolMessages, hbody]
    exact (Members.get_modify_self _ _ _).trans (by rw [hbody]; rfl)
  rw [hout]
  constructor
  · rintro ⟨out, heq, hcompleted, -⟩
    cases heq
    exact (completed_completeToolMessages [] messages).mp hcompleted
  · intro h
    exact ⟨_, rfl, (completed_completeToolMessages [] messages).mpr h, putIn_completeToolMessages [] messages⟩

/-- An assistant message that calls a tool. -/
def callingMessage (callId : String) : Value :=
  .object [
    ("role", .string "assistant"),
    ("tool_calls", .array [.object [("id", .string callId)]])]

/-- Two assistant messages call a tool, one after the other: the first call gets no answer. -/
theorem not_completesMessages_twoCalls :
    ¬ CompletesMessages [("messages", .array [callingMessage "a", callingMessage "b"])] := by
  intro h
  obtain ⟨out, hout, hcompleted, -⟩ := h _ rfl
  have hout' : out = [callingMessage "a", callingMessage "b", missingToolMessage "b"] := by
    cases hout
    rfl
  subst hout'
  have := hcompleted _ _ (List.suffix_refl _) rfl "a" (by decide)
  revert this
  decide

end CodexRouter
