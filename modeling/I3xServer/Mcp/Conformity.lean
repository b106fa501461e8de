import I3xServer.Mcp.JsonRpc

/-!
# What a posted message is answered with

A message is answered once: a request with one response under its id that has either a
result or an error, a notification with no body. Whatever the tools, prompts and
resources do in between, even if they raise.
-/
namespace I3x.Mcp
open Container
variable {F : Type}

def Succeeds (response : Members F) : Prop :=
  response.get "error" = none ∧ ∃ result : Members F, response.get "result" = some (.object result)

def Fails (response : Members F) : Prop :=
  response.get "result" = none ∧ ∃ error : Members F, response.get "error" = some (.object error) ∧
    (∃ code, error.get "code" = some (.number (.integer code))) ∧ ∃ text, error.get "message" = some (.string text)

/-- A response under an id, with a result or an error but not both. -/
structure Envelope (id : Value F) (response : Members F) : Prop where
  version : response.get "jsonrpc" = some (.string "2.0")
  id : response.get "id" = some id
  outcome : Succeeds response ∨ Fails response

theorem envelope_response (id : Value F) (result : Members F) : Envelope id (jsonrpcResponse id (.object result)) :=
  ⟨rfl, rfl, .inl ⟨rfl, result, rfl⟩⟩

theorem fails_error (id : Value F) (code : Int) (message : String) (data : Option (Value F)) :
    Fails (jsonrpcError id code message data) := by
  refine ⟨rfl, _, rfl, ⟨code, ?_⟩, message, ?_⟩
  · cases data with
    | none => rfl
    | some data => rfl
  · cases data with
    | none => rfl
    | some data => rfl

theorem envelope_error (id : Value F) (code : Int) (message : String) (data : Option (Value F)) :
    Envelope id (jsonrpcError id code message data) := ⟨rfl, rfl, .inr (fails_error id code message data)⟩

theorem not_succeeds {response : Members F} (fails : Fails response) : ¬ Succeeds response := by
  rintro ⟨-, result, found⟩
  cases fails.1.symm.trans found

/-! ## Modern results -/

/-- What the result of a modern request has besides. -/
structure Labelled (method : String) (result : Members F) : Prop where
  kind : result.has "resultType" = true
  version : (result.objectAt "_meta").get mcpMetaProtocolVersion = some (.string mcpProtocolVersion)
  lifetime : method ∈ mcpCacheableResultMethods → result.has "ttlMs" = true ∧ result.has "cacheScope" = true

theorem has_set (members : Members F) (name other : String) (value : Value F) :
    (members.set name value).has other = (decide (other = name) || members.has other) := by
  unfold Members.has
  rw [Members.get_set]
  by_cases same : other = name
  · rw [if_pos same, decide_eq_true same]
    rfl
  · rw [if_neg same, decide_eq_false same]
    rfl

theorem has_setDefault (name other : String) (value : Value F) (members : Members F) :
    (setDefault name value members).has other = (decide (other = name) || members.has other) := by
  unfold setDefault
  split
  · rename_i present
    by_cases same : other = name
    · rw [decide_eq_true same, same]
      exact present
    · rw [decide_eq_false same]
      rfl
  · exact has_set members name other value

theorem objectAt_set (members inner : Members F) (name : String) :
    (members.set name (.object inner)).objectAt name = inner := by
  unfold Members.objectAt
  rw [Members.get_set, if_pos rfl]

theorem get_set_other (members : Members F) {name other : String} (value : Value F) (asked : other ≠ name) :
    (members.set name value).get other = members.get other := by
  rw [Members.get_set, if_neg asked]

theorem Envelope.setResult {id : Value F} {response result : Members F} (envelope : Envelope id response)
    (found : response.get "result" = some (.object result)) (value : Members F) :
    Envelope id (response.set "result" (.object value)) where
  version := (get_set_other response _ (by decide)).trans envelope.version
  id := (get_set_other response _ (by decide)).trans envelope.id
  outcome := by
    obtain succeeds | fails := envelope.outcome
    · exact .inl ⟨(get_set_other response _ (by decide)).trans succeeds.1, value,
        (Members.get_set response _ _ _).trans (if_pos rfl)⟩
    · cases fails.1.symm.trans found

/-- The result stays under its id, and is labelled. -/
theorem metadata_labels {id : Value F} {response : Members F} (envelope : Envelope id response)
    (succeeds : Succeeds response) (method : String) :
    Envelope id (addModernResponseMetadata response method) ∧
      ∃ result : Members F, (addModernResponseMetadata response method).get "result" = some (.object result) ∧
        Labelled method result := by
  obtain ⟨-, result, found⟩ := succeeds
  unfold addModernResponseMetadata
  rw [found]
  refine ⟨envelope.setResult found _, _, (Members.get_set response _ _ _).trans (if_pos rfl), ?_, ?_, ?_⟩
  · rw [has_set]
    split
    · rw [has_setDefault, has_setDefault, has_setDefault]
      rfl
    · rw [has_setDefault]
      rfl
  · rw [objectAt_set]
    exact (Members.get_set _ _ _ _).trans (if_pos rfl)
  · intro cacheable
    rw [if_pos cacheable, has_set, has_set, has_setDefault, has_setDefault, has_setDefault, has_setDefault]
    exact ⟨rfl, rfl⟩

/-! ## The handler -/

/-- What the handler of a method may come to for a request. -/
def Handled.Answers (id : Value F) : Handled F → Prop
  | .response reply => Envelope id reply
  | .nothing => False
  | .raised => True

theorem answers_response (id : Value F) (result : Members F) :
    (answer (jsonrpcResponse id (.object result))).Yields (Handled.Answers id) :=
  Dialogue.yields_done.mpr (envelope_response id result)

theorem answers_error (id : Value F) (code : Int) (message : String) (data : Option (Value F)) :
    (answer (jsonrpcError id code message data)).Yields (Handled.Answers id) :=
  Dialogue.yields_done.mpr (envelope_error id code message data)

theorem answers_raised (id : Value F) : (Dialogue.done .raised : Handling F).Yields (Handled.Answers id) :=
  Dialogue.yields_done.mpr trivial

namespace McpServer
variable (server : McpServer F)

theorem toolAnswer_answers (id : Value F) (toolName : String) (reply : ToolReply F) :
    (server.toolAnswer id toolName reply).Answers id := by
  unfold toolAnswer
  split
  · split
    · exact envelope_error _ _ _ _
    · exact envelope_response _ _
  · trivial
  · split
    · exact envelope_response _ _
    · exact envelope_error _ _ _ _
  · exact envelope_error _ _ _ _

theorem handleToolCall_answers (id : Value F) (params : Option (Members F)) :
    (server.handleToolCall id params).Yields (Handled.Answers id) := by
  unfold handleToolCall
  split
  · exact answers_error _ _ _ _
  · split
    · split
      · exact answers_error _ _ _ _
      · split
        · exact answers_error _ _ _ _
        · exact Dialogue.yields_ask.mpr fun reply =>
            Dialogue.yields_done.mpr (server.toolAnswer_answers id _ reply)
    · exact answers_error _ _ _ _

theorem handleGetPrompt_answers (id : Value F) (params : Option (Members F)) :
    (server.handleGetPrompt id params).Yields (Handled.Answers id) := by
  unfold handleGetPrompt
  split
  · exact answers_error _ _ _ _
  · split
    · split
      · exact answers_error _ _ _ _
      · split
        · exact answers_error _ _ _ _
        · exact answers_response _ _
    · exact answers_error _ _ _ _

theorem handleExecutePrompt_answers (id : Value F) (params : Option (Members F)) :
    (server.handleExecutePrompt id params).Yields (Handled.Answers id) := by
  unfold handleExecutePrompt
  split
  · exact answers_error _ _ _ _
  · split
    · split
      · exact answers_error _ _ _ _
      · exact answers_response _ _
    · exact answers_error _ _ _ _

theorem handleReadResource_answers (id : Value F) (params : Option (Members F)) :
    (server.handleReadResource id params).Yields (Handled.Answers id) := by
  unfold handleReadResource
  split
  · exact answers_error _ _ _ _
  · split
    · split
      · exact answers_error _ _ _ _
      · split
        · exact answers_response _ _
        · exact answers_error _ _ _ _
        · exact answers_raised id
    · exact answers_error _ _ _ _

theorem handleInitialize_answers (id : Value F) (params : Option (Members F)) :
    (server.handleInitialize id params).Yields (Handled.Answers id) := by
  unfold handleInitialize
  split
  · exact answers_response _ _
  · exact answers_error _ _ _ _

theorem handleListResources_answers (id : Value F) : (server.handleListResources id).Yields (Handled.Answers id) := by
  unfold handleListResources
  split
  · exact answers_response _ _
  · exact answers_raised id

/-- Whatever the method, and whatever the tool replies. -/
theorem dispatch_answers (id : Value F) (method : String) (params : Option (Members F)) :
    (server.dispatch id method params).Yields (Handled.Answers id) := by
  unfold dispatch
  refine .ite (server.handleInitialize_answers id params) ?_
  refine .ite (answers_response id _) ?_
  refine .ite (answers_response id _) ?_
  refine .ite (answers_response id _) ?_
  refine .ite (answers_response id _) ?_
  refine .ite (server.handleToolCall_answers id params) ?_
  refine .ite (answers_response id _) ?_
  refine .ite (server.handleGetPrompt_answers id params) ?_
  refine .ite (server.handleExecutePrompt_answers id params) ?_
  refine .ite (server.handleListResources_answers id) ?_
  exact .ite (server.handleReadResource_answers id params) (answers_error id _ _ _)

end McpServer

/-- The id that the response to a message has to carry. -/
def responseId (message : Members F) : Value F :=
  if isRequestId (message.getOrNull "id") then message.getOrNull "id" else .null

structure IsNotification (message : Members F) : Prop where
  id : message.has "id" = false
  version : message.get "jsonrpc" = some (.string "2.0")
  method : ∃ method, message.get "method" = some (.string method)

/-- What the handler may come to for a message. -/
def Handled.Fits (message : Members F) : Handled F → Prop
  | .response reply => Envelope (responseId message) reply ∧ ¬ IsNotification message ∧
      (Succeeds reply → ∃ method, message.get "method" = some (.string method))
  | .nothing => IsNotification message
  | .raised => message.has "id" = true ∧ isRequestId (message.getOrNull "id") = true

theorem Handled.Answers.fits {message : Members F} {method : String}
    (called : message.get "method" = some (.string method)) (present : message.has "id" = true)
    (valid : isRequestId (message.getOrNull "id") = true) {handled : Handled F}
    (answers : handled.Answers (message.getOrNull "id")) : handled.Fits message := by
  cases handled with
  | response reply =>
      refine ⟨?_, ?_, fun _ => ⟨method, called⟩⟩
      · unfold responseId
        rw [if_pos valid]
        exact answers
      · intro notification
        cases present.symm.trans notification.id
  | nothing => exact answers.elim
  | raised => exact ⟨present, valid⟩

theorem has_none {members : Members F} {name : String} (absent : ¬ members.has name = true) :
    members.getOrNull name = .null := by
  unfold Members.has at absent
  unfold Members.getOrNull
  rw [Option.not_isSome_iff_eq_none.mp absent]
  rfl

theorem handleJsonrpc_fits (server : McpServer F) (message : Members F) :
    (server.handleJsonrpc message).Yields (Handled.Fits message) := by
  unfold McpServer.handleJsonrpc
  dsimp only
  split
  · rename_i invalid
    refine Dialogue.yields_done.mpr ⟨?_, ?_, fun succeeds => absurd succeeds (not_succeeds (fails_error _ _ _ _))⟩
    · unfold responseId
      rw [if_neg invalid.2]
      exact envelope_error _ _ _ _
    · intro notification
      cases invalid.1.symm.trans notification.id
  · rename_i valid
    have answered : responseId message = message.getOrNull "id" := by
      unfold responseId
      by_cases present : message.has "id" = true
      · exact if_pos (by_contra fun wrong => valid ⟨present, wrong⟩)
      · rw [has_none present]
        rfl
    split
    · rename_i method version called
      split
      · rename_i present
        have id : isRequestId (message.getOrNull "id") = true := by_contra fun wrong => valid ⟨present, wrong⟩
        have fits (handling : Handling F) (answers : handling.Yields (Handled.Answers (message.getOrNull "id"))) :
            handling.Yields (Handled.Fits message) :=
          fun log handled run => (answers log handled run).fits called present id
        split
        · exact fits _ (server.dispatch_answers _ method none)
        · exact fits _ (server.dispatch_answers _ method _)
        · exact fits _ (answers_error _ _ _ _)
      · rename_i absent
        exact Dialogue.yields_done.mpr ⟨Bool.eq_false_of_not_eq_true absent, version, method, called⟩
    · rename_i other
      refine Dialogue.yields_done.mpr ⟨?_, ?_, fun succeeds => absurd succeeds (not_succeeds (fails_error _ _ _ _))⟩
      · rw [answered]
        exact envelope_error _ _ _ _
      · intro notification
        obtain ⟨method, called⟩ := notification.method
        exact other method notification.version called

end I3x.Mcp
