import I3xServer.Container.Dialogue
import I3xServer.Mcp.Prompts
import I3xServer.Mcp.ToolBodies

/-!
# The JSON-RPC endpoint

One message is one request or one notification. Everything the handler does is
immediate but for the call of a tool, which it awaits. A request is answered with a
result or an error under its own id, a notification with nothing.
-/
namespace I3x.Mcp
open Container
variable {F : Type}

/-! ## The server -/

/-- How something that the handler calls fails: with an HTTP error, or otherwise. -/
inductive Raised (F : Type) where
  | http (statusCode : Int) (detail : Value F)
  | other

structure McpTool (F : Type) where
  name : String
  description : String
  inputSchema : Value F
  outputSchema : Value F
  annotations : Value F

structure ToolCall (F : Type) where
  tool : McpTool F
  arguments : Members F

abbrev ToolReply (F : Type) := Except (Raised F) (Value F)

/-- What the handler finds in the application and in the libraries. -/
structure McpServer (F : Type) where
  version : String
  instructions : String
  tools : List (String × McpTool F)
  argumentError : McpTool F → Members F → Option String
  prompts : Option PromptRegistry
  isSpace : Char → Bool
  text : Value F → String
  resourceCatalog : Except (Raised F) (List (Value F))
  readResource : String → Except (Raised F) (Value F)
  dumps : Value F → String
  isZero : F → Bool

inductive Handled (F : Type) where
  | response (response : Members F)
  | nothing
  | raised

abbrev Handling (F : Type) := Dialogue (ToolCall F) (fun _ => ToolReply F) (Handled F)

def answer (response : Members F) : Handling F := .done (.response response)

def invalidParams (id : Value F) : Handling F := answer (jsonrpcError id (-32602) "Invalid params" none)

/-- The detail of an HTTP error. -/
def errorData : Value F → Option (Value F)
  | .null => none
  | detail => some detail

def i3xErrorDetail (error : HttpError) : Value F :=
  .object [("success", .bool false),
    ("error", .object [("code", .number (.integer error.status)), ("message", .string error.message)]),
    ("responseDetail", .object [("title", .string error.code), ("status", .number (.integer error.status)),
      ("detail", .string error.message)])]

namespace McpServer
variable (server : McpServer F)

/-! ## Methods -/

def serverInfo : Value F := .object [("name", .string "i3x"), ("version", .string server.version)]

def negotiatedVersion (requested : String) : String :=
  if requested ∈ mcpLegacyProtocolVersions then requested else mcpLegacyProtocolVersion

def handleInitialize (id : Value F) (params : Option (Members F)) : Handling F :=
  match params.bind fun params => params.get "protocolVersion" with
  | some (.string requested) =>
      let unchanging : Value F := .object [("listChanged", .bool false)]
      answer (jsonrpcResponse id (.object
        [("protocolVersion", .string (negotiatedVersion requested)), ("serverInfo", server.serverInfo),
          ("capabilities", .object [("tools", unchanging), ("prompts", unchanging), ("resources", unchanging)]),
          ("instructions", .string server.instructions)]))
  | _ => answer (jsonrpcError id (-32602) "protocolVersion must be a string" none)

def handleDiscover (id : Value F) : Handling F :=
  answer (jsonrpcResponse id (.object
    [("supportedVersions", .array (mcpSupportedProtocolVersions.map .string)),
      ("capabilities", .object [("tools", .object []), ("prompts", .object []), ("resources", .object [])]),
      ("_meta", .object [("io.modelcontextprotocol/serverInfo", server.serverInfo)]),
      ("instructions", .string server.instructions), ("ttlMs", .number (.integer 3600000)),
      ("cacheScope", .string "public")]))

def toolCatalog : List (Value F) :=
  server.tools.map fun entry => .object
    [("name", .string entry.2.name), ("description", .string entry.2.description),
      ("inputSchema", entry.2.inputSchema), ("outputSchema", entry.2.outputSchema),
      ("annotations", entry.2.annotations)]

/-- What the result of a tool call comes to. -/
def toolAnswer (id : Value F) (toolName : String) : ToolReply F → Handled F
  | .error (.http statusCode detail) =>
      if statusCode = 400 ∨ statusCode = 422 then
        .response (jsonrpcError id (-32602) "Invalid tool arguments" (errorData detail))
      else .response (jsonrpcResponse id (toolResult server.dumps statusCode detail))
  | .error .other => .raised
  | .ok (.object payload) =>
      match Members.get payload "status_code", Members.get payload "body" with
      | some (.number (.integer statusCode)), some body =>
          .response (jsonrpcResponse id
            (toolResult server.dumps statusCode (compactToolBody server.isZero toolName body)))
      | _, _ => .response (jsonrpcError id (-32603) "Internal error" none)
  | .ok _ => .response (jsonrpcError id (-32603) "Internal error" none)

def handleToolCall (id : Value F) : Option (Members F) → Handling F
  | none => invalidParams id
  | some params =>
      match params.get "name", (params.get "arguments").getD (.object []) with
      | some (.string toolName), .object arguments =>
          match server.tools.lookup toolName with
          | none => answer (jsonrpcError id (-32602) ("Unknown tool " ++ toolName) none)
          | some tool =>
              match server.argumentError tool arguments with
              | some problem => answer (jsonrpcError id (-32602) ("Invalid tool arguments: " ++ problem) none)
              | none => .ask ⟨tool, arguments⟩ fun reply => .done (server.toolAnswer id toolName reply)
      | _, _ => invalidParams id

/-- The arguments are those of the prompt that is registered under the name. -/
def promptMetadata (registry : PromptRegistry) (prompt : PromptDefinition) : Value F :=
  .object ([("name", .string prompt.name), ("description", .string prompt.description)] ++
    ((registry.get? prompt.name).map fun known => ("arguments", .array (known.inputs.map fun input =>
      .object [("name", .string input), ("required", .bool true)]))).toList)

/-- The prompts in the order of their names. -/
def handleListPrompts (id : Value F) : Handling F :=
  let registry := server.prompts.getD .empty
  let listed := registry.entries.mergeSort fun a b => a.1 ≤ b.1
  answer (jsonrpcResponse id (.object [("prompts", .array (listed.map fun entry => promptMetadata registry entry.2))]))

/-- Values are written as texts; a text stays what it is. -/
def parameters (arguments : Members F) : Parameters (Value F) where
  get := arguments.get
  text
    | .string text => text
    | value => server.text value

def isText : Value F → Bool
  | .string _ => true
  | _ => false

def handleGetPrompt (id : Value F) : Option (Members F) → Handling F
  | none => invalidParams id
  | some params =>
      match params.get "name", (params.get "arguments").getD (.object []) with
      | some (.string name), .object arguments =>
          if name = "" ∨ ¬ arguments.all fun m => isText m.2 then invalidParams id
          else
            match executePrompt server.isSpace server.prompts name (server.parameters arguments) with
            | .error error =>
                answer (jsonrpcError id (-32602) "Invalid prompt request" (some (i3xErrorDetail error)))
            | .ok result =>
                answer (jsonrpcResponse id (.object
                  [("description", .string result.prompt.description),
                    ("messages", .array [.object [("role", .string "user"),
                      ("content", .object [("type", .string "text"), ("text", .string result.rendered)])]])]))
      | _, _ => invalidParams id

def handleExecutePrompt (id : Value F) : Option (Members F) → Handling F
  | none => invalidParams id
  | some params =>
      match params.get "name", (params.get "parameters").getD (.object []) with
      | some (.string name), .object arguments =>
          match executePrompt server.isSpace server.prompts name (server.parameters arguments) with
          | .error error =>
              answer (jsonrpcError id (-32602) "Invalid prompt request" (some (i3xErrorDetail error)))
          | .ok result =>
              answer (jsonrpcResponse id (.object
                [("name", .string result.prompt.name), ("description", .string result.prompt.description),
                  ("inputs", .array (result.prompt.inputs.map .string)), ("template", .string result.prompt.template),
                  ("rendered", .string result.rendered)]))
      | _, _ => invalidParams id

def handleListResources (id : Value F) : Handling F :=
  match server.resourceCatalog with
  | .ok resources => answer (jsonrpcResponse id (.object [("resources", .array resources)]))
  | .error _ => .done .raised

def handleReadResource (id : Value F) : Option (Members F) → Handling F
  | none => invalidParams id
  | some params =>
      match params.get "uri" with
      | some (.string uri) =>
          if uri = "" then invalidParams id
          else
            match server.readResource uri with
            | .ok content => answer (jsonrpcResponse id (.object [("contents", .array [content])]))
            | .error (.http _ detail) => answer (jsonrpcError id (-32002) "Resource not found" (errorData detail))
            | .error .other => .done .raised
      | _ => invalidParams id

def dispatch (id : Value F) (method : String) (params : Option (Members F)) : Handling F :=
  if method = "initialize" then server.handleInitialize id params
  else if method = "server/discover" then server.handleDiscover id
  else if method = "resources/templates/list" then
    answer (jsonrpcResponse id (.object [("resourceTemplates", .array [])]))
  else if method = "ping" then answer (jsonrpcResponse id (.object []))
  else if method = "tools/list" then answer (jsonrpcResponse id (.object [("tools", .array server.toolCatalog)]))
  else if method = "tools/call" then server.handleToolCall id params
  else if method = "prompts/list" then server.handleListPrompts id
  else if method = "prompts/get" then server.handleGetPrompt id params
  else if method = "prompts/execute" then server.handleExecutePrompt id params
  else if method = "resources/list" then server.handleListResources id
  else if method = "resources/read" then server.handleReadResource id params
  else answer (jsonrpcError id (-32601) ("Method not found: " ++ method) none)

end McpServer

/-! ## Messages -/

/-- An id is a text or an integer; a truth value is neither. -/
def isRequestId : Value F → Bool
  | .string _ => true
  | .number (.integer _) => true
  | _ => false

def Members.has (members : Members F) (name : String) : Bool := (members.get name).isSome

def McpServer.handleJsonrpc (server : McpServer F) (message : Members F) : Handling F :=
  let id := message.getOrNull "id"
  if message.has "id" ∧ ¬ isRequestId id then answer (jsonrpcError .null (-32600) "Invalid Request" none)
  else
    match message.get "jsonrpc", message.get "method" with
    | some (.string "2.0"), some (.string method) =>
        if message.has "id" then
          match message.getOrNull "params" with
          | .null => server.dispatch id method none
          | .object params => server.dispatch id method (some params)
          | _ => invalidParams id
        else .done .nothing
    | _, _ => answer (jsonrpcError id (-32600) "Invalid Request" none)

/-! ## Posted messages -/

structure McpRequest (F : Type) where
  headers : McpHeaders
  baseUrl : String
  /-- Absent if the body is not JSON. -/
  body : Option (Value F)

/-- What the endpoint decides on origins with. -/
structure Origins where
  hostname : String → Option String
  allowed : List String

def Origins.allows (origins : Origins) (headers : McpHeaders) (baseUrl : String) : Bool :=
  match headers.origin with
  | none => true
  | some origin =>
      let base := String.ofList (baseUrl.toList.reverse.dropWhile (· = '/')).reverse
      (origin = base && (origins.hostname origin).any (· ∈ ["localhost", "127.0.0.1", "::1"])) ||
        (origin ≠ "*" && origin ∈ origins.allowed)

structure HttpReply (F : Type) where
  status : Nat
  sessionId : Option String
  body : Option (Members F)

def refusal (status : Nat) (message : String) : HttpReply F where
  status
  sessionId := none
  body := some (jsonrpcError .null (-32600) message none)

/-- A message that is handled. -/
structure Accepted (F : Type) where
  modern : Bool
  sessionId : Option String
  message : Members F

def isModern (headers : McpHeaders) (message : Members F) : Bool :=
  headers.protocolVersion = some mcpProtocolVersion ||
    ((message.objectAt "params").objectAt "_meta").has mcpMetaProtocolVersion ||
    (match message.get "method" with
    | some (.string method) => method = "server/discover"
    | _ => false) ||
    headers.protocolVersion.any fun version => version ∉ mcpLegacyProtocolVersions

def methodIs (message : Members F) (name : String) : Bool :=
  match message.get "method" with
  | some (.string method) => method = name
  | _ => false

/-- The checks of a message; `versions` gives the protocol version of a session. -/
def acceptMessage (base64 : String → Option String) (versions : String → Option String) (headers : McpHeaders)
    (message : Members F) : Except (HttpReply F) (Accepted F) :=
  if isModern headers message then
    match modernRequestError base64 headers message with
    | some error => .error ⟨400, none, some error⟩
    | none =>
        if methodIs message "initialize" then
          .error ⟨400, none,
            some (jsonrpcError (message.getOrNull "id") (-32601) "Method not found: initialize" none)⟩
        else .ok ⟨true, none, message⟩
  else
    match headers.sessionId with
    | none => .ok ⟨false, none, message⟩
    | some id =>
        match versions id with
        | none => .error (refusal 404 "Unknown MCP session")
        | some version =>
            if headers.protocolVersion.any fun asked => asked ≠ version then
              .error (refusal 400 "MCP protocol version does not match session")
            else .ok ⟨false, some id, message⟩

/-- A posted request up to the handler. -/
def acceptPost (origins : Origins) (base64 : String → Option String) (versions : String → Option String)
    (request : McpRequest F) : Except (HttpReply F) (Accepted F) :=
  if origins.allows request.headers request.baseUrl then
    match request.body with
    | none => .error ⟨200, none, some (jsonrpcError .null (-32700) "Parse error" none)⟩
    | some (.object message) => acceptMessage base64 versions request.headers message
    | some _ => .error (refusal 200 "Invalid Request")
  else .error (refusal 403 "Origin not allowed")

/-- What is sent for the outcome of the handler. -/
def responseBody (accepted : Accepted F) : Handled F → Option (Members F)
  | .response response =>
      if accepted.modern ∧ response.has "result" then
        match accepted.message.get "method" with
        | some (.string method) => some (addModernResponseMetadata response method)
        | _ => some response
      else some response
  | .nothing => none
  | .raised =>
      if accepted.message.has "id" then
        some (jsonrpcError (accepted.message.getOrNull "id") (-32603) "Internal error" none)
      else none

/-- The protocol version of the session that the response opens, if it opens one. -/
def openedVersion (accepted : Accepted F) (body : Option (Members F)) : Option String :=
  if ¬ accepted.modern ∧ methodIs accepted.message "initialize" then
    body.bind fun response => (response.get "result").map fun result =>
      match result.get "protocolVersion" with
      | some (.string version) => version
      | _ => mcpLegacyProtocolVersion
  else none

/-- The reply, and the version of the session that it opens under the fresh id. -/
def finishPost (accepted : Accepted F) (handled : Handled F) (freshId : String) : HttpReply F × Option String :=
  let body := responseBody accepted handled
  let opened := openedVersion accepted body
  let sessionId :=
    match opened with
    | some _ => some freshId
    | none =>
        if methodIs accepted.message "notifications/initialized" then accepted.sessionId else none
  (⟨if body.isSome then 200 else 202, sessionId, body⟩, opened)

/-- A posted request; the id is for the session that it may open. -/
def McpServer.mcpPost (server : McpServer F) (origins : Origins) (base64 : String → Option String)
    (versions : String → Option String) (request : McpRequest F) (freshId : String) :
    Dialogue (ToolCall F) (fun _ => ToolReply F) (HttpReply F × Option String) :=
  match acceptPost origins base64 versions request with
  | .error reply => .done (reply, none)
  | .ok accepted =>
      (server.handleJsonrpc accepted.message).bind fun handled => .done (finishPost accepted handled freshId)

end I3x.Mcp
