import I3xServer.Mcp.ContainerValues

/-!
# JSON-RPC messages

What the endpoint reads and writes. A request id is a text or an integer, so integers
and other numbers are kept apart. The body of a tool call is compacted before it is
sent: parts of it are left out, and nothing else happens to it.
-/
namespace I3x.Mcp
open Container
variable {F : Type}

inductive JsonNumber (F : Type) where
  | integer (value : Int)
  | float (value : F)

abbrev Value (F : Type) := JsonValue (JsonNumber F)
abbrev Members (F : Type) := List (String × Value F)

namespace Members

def get (members : Members F) (name : String) : Option (Value F) := (JsonValue.object members).get name

/-- What stands under a name, `null` if nothing does. -/
def getOrNull (members : Members F) (name : String) : Value F := (members.get name).getD .null

/-- The members of the object under a name; other values have none. -/
def objectAt (members : Members F) (name : String) : Members F :=
  match members.get name with
  | some (.object inner) => inner
  | _ => []

def replace (members : Members F) (name : String) (value : Value F) : Members F :=
  members.map fun m => if m.1 = name then (name, value) else m

/-- Assignment to a name: it keeps its place, or comes last. -/
def set (members : Members F) (name : String) (value : Value F) : Members F :=
  if name ∈ members.map Prod.fst then members.replace name value else members ++ [(name, value)]

theorem get_eq (members : Members F) (name : String) : members.get name = members.reverse.lookup name := rfl

theorem replace_cons (m : String × Value F) (ms : Members F) (name : String) (value : Value F) :
    replace (m :: ms) name value = (if m.1 = name then (name, value) else m) :: replace ms name value := rfl

theorem lookup_replace (members : Members F) (name : String) (value : Value F)
    (present : name ∈ members.map Prod.fst) : (members.replace name value).lookup name = some value := by
  induction members with
  | nil => cases present
  | cons m ms ih =>
      rw [replace_cons, lookup_cons_ite]
      by_cases same : m.1 = name
      · rw [if_pos same, if_pos rfl]
      · rw [if_neg same, if_neg (Ne.symm same)]
        exact ih ((List.mem_cons.mp present).resolve_left (Ne.symm same))

theorem lookup_replace_ne (members : Members F) {name other : String} (asked : other ≠ name) (value : Value F) :
    (members.replace name value).lookup other = members.lookup other := by
  induction members with
  | nil => rfl
  | cons m ms ih =>
      rw [replace_cons, lookup_cons_ite, lookup_cons_ite, ih]
      by_cases same : m.1 = name
      · rw [if_pos same, if_neg asked, if_neg (same ▸ asked)]
      · rw [if_neg same]

theorem get_set (members : Members F) (name other : String) (value : Value F) :
    (members.set name value).get other = if other = name then some value else members.get other := by
  rw [get_eq, get_eq]
  unfold set
  split
  · rename_i present
    have reversed : (members.replace name value).reverse = replace members.reverse name value := List.map_reverse.symm
    rw [reversed]
    split
    · rename_i same
      subst same
      refine lookup_replace _ _ _ ?_
      rw [List.map_reverse]
      exact List.mem_reverse.mpr present
    · rename_i asked
      exact lookup_replace_ne _ asked value
  · rw [List.reverse_append, List.reverse_singleton, List.singleton_append, lookup_cons_ite]

theorem set_set (members : Members F) (name : String) (value later : Value F) :
    (members.set name value).set name later = members.set name later := by
  unfold set
  split
  · rename_i present
    have kept : name ∈ (members.replace name value).map Prod.fst := by
      obtain ⟨m, inside, same⟩ := List.mem_map.mp present
      exact List.mem_map.mpr ⟨(name, value), List.mem_map.mpr ⟨m, inside, if_pos same⟩, rfl⟩
    rw [if_pos kept]
    unfold replace
    rw [List.map_map]
    refine List.map_congr_left fun m _ => ?_
    by_cases same : m.1 = name
    · simp only [Function.comp_apply, if_pos same, if_true]
    · simp only [Function.comp_apply, if_neg same]
  · rename_i absent
    rw [if_pos (by simp)]
    unfold replace
    rw [List.map_append, List.map_singleton, if_pos rfl]
    congr 1
    refine (List.map_congr_left fun m inside => if_neg fun same => absent ?_).trans (List.map_id _)
    exact List.mem_map.mpr ⟨m, inside, same⟩

end Members

/-! ## Envelopes -/

def jsonrpcResponse (id result : Value F) : Members F := [("jsonrpc", .string "2.0"), ("id", id), ("result", result)]

def jsonrpcError (id : Value F) (code : Int) (message : String) (data : Option (Value F)) : Members F :=
  [("jsonrpc", .string "2.0"), ("id", id),
    ("error", .object ([("code", .number (.integer code)), ("message", .string message)] ++
      (data.map fun data => ("data", data)).toList))]

/-! ## Protocol versions -/

def mcpProtocolVersion : String := "2026-07-28"
def mcpLegacyProtocolVersions : List String := ["2025-11-25", "2025-06-18", "2025-03-26"]
def mcpLegacyProtocolVersion : String := "2025-11-25"
def mcpSupportedModernProtocolVersions : List String := [mcpProtocolVersion]
def mcpSupportedProtocolVersions : List String := mcpProtocolVersion :: mcpLegacyProtocolVersions
def mcpMetaProtocolVersion : String := "io.modelcontextprotocol/protocolVersion"
def mcpMetaClientCapabilities : String := "io.modelcontextprotocol/clientCapabilities"

def mcpCacheableResultMethods : List String :=
  ["tools/list", "prompts/list", "resources/list", "resources/templates/list", "resources/read"]

/-- The header fields that the endpoint reads. -/
structure McpHeaders where
  origin : Option String
  accept : Option String
  sessionId : Option String
  protocolVersion : Option String
  method : Option String
  name : Option String
  deriving DecidableEq, Repr

/-- A header value may be given in an encoding; `base64` decodes to text. -/
def decodeModernHeaderValue (base64 : String → Option String) (value : String) : Option String :=
  let chars := value.toList
  if "=?base64?".toList <+: chars ∧ "?=".toList <:+ chars then
    base64 (String.ofList ((chars.take (chars.length - 2)).drop 9))
  else some value

/-- The name that a request of the method has to repeat in its header. -/
def expectedName (method : String) (params : Members F) : Option (Value F) :=
  if method ∈ ["tools/call", "prompts/get"] then params.get "name"
  else if method = "resources/read" then params.get "uri"
  else none

/-- What a modern request is refused with, if it is. -/
def modernRequestError (base64 : String → Option String) (headers : McpHeaders) (message : Members F) :
    Option (Members F) :=
  let id := message.getOrNull "id"
  let params := message.objectAt "params"
  let metadata := params.objectAt "_meta"
  let headerMismatch (detail : String) := some (jsonrpcError id (-32020) ("HeaderMismatch: " ++ detail) none)
  match metadata.get mcpMetaProtocolVersion, metadata.get mcpMetaClientCapabilities with
  | some (.string version), some (.object _) =>
      if headers.protocolVersion ≠ some version then
        headerMismatch "MCP-Protocol-Version does not match request metadata"
      else
        match message.get "method" with
        | some (.string method) =>
            if headers.method ≠ some method then headerMismatch "Mcp-Method does not match request method"
            else
              let unsupported :=
                if version ∈ mcpSupportedModernProtocolVersions then none
                else
                  some (jsonrpcError id (-32022) "Unsupported protocol version" (some (.object
                    [("supported", .array (mcpSupportedProtocolVersions.map .string)),
                      ("requested", .string version)])))
              match expectedName method params with
              | some (.string expected) =>
                  if headers.name.bind (decodeModernHeaderValue base64) ≠ some expected then
                    headerMismatch "Mcp-Name does not match request name"
                  else unsupported
              | _ =>
                  if headers.name.isSome then headerMismatch "Mcp-Name is not applicable to this method"
                  else unsupported
        | _ => headerMismatch "Mcp-Method does not match request method"
  | _, _ => some (jsonrpcError id (-32602) "Missing or invalid per-request MCP metadata" none)

def setDefault (name : String) (value : Value F) (members : Members F) : Members F :=
  if (members.get name).isSome then members else members.set name value

/-- What a modern result says besides: it is complete, how long it may be kept, and
which version it is of. -/
def addModernResponseMetadata (response : Members F) (method : String) : Members F :=
  match response.get "result" with
  | some (.object result) =>
      let result := setDefault "resultType" (.string "complete") result
      let result :=
        if method ∈ mcpCacheableResultMethods then
          setDefault "cacheScope" (.string "private") (setDefault "ttlMs" (.number (.integer 0)) result)
        else result
      let metadata := (result.objectAt "_meta").set mcpMetaProtocolVersion (.string mcpProtocolVersion)
      response.set "result" (.object (result.set "_meta" (.object metadata)))
  | _ => response

end I3x.Mcp
