import I3xServer.Model.Published

/-!
# Element ids of types

The ids under which object types are published: urns made of tokens that keep
letters and digits only. Two of the source's patterns ignore case, which for a
Unicode text is more than lowering both sides.
-/
namespace I3x.Api
open Container

/-- Text operations with the comparison of patterns that ignore case: the first
character is the pattern's. -/
structure PatternText extends Unicode where
  ignoreCase : Char → Char → Bool

def PatternText.ascii : PatternText where
  toUnicode := .ascii
  ignoreCase pattern c := pattern = c.toLower

/-- A namespace of the server with what the metadata nodes say about it. -/
structure NamespaceDetails extends OpcUaNamespaceInfo where
  namespaceVersion : Option String
  serverUri : Option String
  deriving DecidableEq, Repr

/-- The fields of an object type that its element id depends on. -/
structure OpcUaObjectTypeInfo where
  nodeId : String
  browseName : String
  displayName : String
  deriving DecidableEq, Repr

/-- What follows a text that begins like a pattern without special characters. -/
def afterIgnoringCase (text : PatternText) : List Char → List Char → Option (List Char)
  | [], cs => some cs
  | _ :: _, [] => none
  | pattern :: patterns, c :: cs => if text.ignoreCase pattern c then afterIgnoringCase text patterns cs else none

def tokenChar (c : Char) : Bool := ('a' ≤ c && c ≤ 'z') || ('0' ≤ c && c ≤ '9')

/-- Every run of other characters becomes one dash. -/
def dashRuns : Bool → List Char → List Char
  | _, [] => []
  | inRun, c :: cs =>
      if tokenChar c then c :: dashRuns false cs
      else if inRun then dashRuns true cs
      else '-' :: dashRuns true cs

def stripDashes (cs : List Char) : List Char :=
  ((cs.dropWhile (· = '-')).reverse.dropWhile (· = '-')).reverse

section
variable (text : PatternText)

def toUrnToken (value : String) : String :=
  match stripDashes (dashRuns false (text.lower value).toList) with
  | [] => "unknown"
  | token => String.ofList token

def normalizeNamespaceUri (uri : String) : String :=
  text.lower (String.ofList (((text.strip uri).toList.reverse.dropWhile (· = '/')).reverse))

def canonicalNamespaceUri (uri : String) (namespaceInfos : List NamespaceDetails) : String :=
  match namespaceInfos.find? fun item => normalizeNamespaceUri text item.uri = normalizeNamespaceUri text uri with
  | some item => item.uri
  | none => uri

/-- The digits behind the first `ns=` that digits follow. -/
def searchNamespaceIndex : List Char → Option (List Char)
  | [] => none
  | c :: cs =>
      let digits := (cs.drop 2).takeWhile fun d => (text.decimal d).isSome
      if ['n', 's', '='].isPrefixOf (c :: cs) ∧ digits ≠ [] then some digits else searchNamespaceIndex cs

def namespaceUriForNodeId (nodeId : String) (namespaceInfos : List NamespaceDetails) : String :=
  let index := ((searchNamespaceIndex text nodeId.toList).bind (Unicode.digitsValue text.decimal)).getD 0
  match namespaceInfos[index]? with
  | some info => info.uri
  | none => ""

def expandedNodeId (nodeId : String) (namespaceInfos : List NamespaceDetails) : String :=
  NodeIds.expandedNodeId text.toUnicode (namespaceInfos.map NamespaceDetails.toOpcUaNamespaceInfo) nodeId

def afterNamespaceIndex (cs : List Char) : Option (List Char) :=
  (afterIgnoringCase text "ns=".toList cs).bind fun rest =>
    match rest.takeWhile (fun c => (text.decimal c).isSome), rest.dropWhile (fun c => (text.decimal c).isSome) with
    | [], _ => none
    | _, ';' :: tail => some tail
    | _, _ => none

/-- An identifier of one of the four kinds with some text on its line. -/
def identifierIgnoringCase (cs : List Char) : Bool :=
  ['i', 's', 'g', 'b'].any fun kind =>
    match afterIgnoringCase text [kind, '='] cs with
    | none => false
    | some rest => (NodeIds.line rest).any (· ≠ [])

def isOpcuaNodeId (value : String) : Bool :=
  NodeIds.isExpanded value ||
    (afterNamespaceIndex text value.toList).any (identifierIgnoringCase text) ||
      identifierIgnoringCase text value.toList

/-- The identifier `i=0` at the end of a text. -/
def isNullIdentifier (cs : List Char) : Bool :=
  match afterIgnoringCase text "i=0".toList cs with
  | some rest => rest = [] || rest = ['\n']
  | none => false

def isNullOpcuaTypeNodeId (nodeId : String) : Bool :=
  let normalized := (text.strip nodeId).toList
  (match afterIgnoringCase text "nsu=".toList normalized with
    | none => false
    | some rest =>
        match rest.takeWhile (· ≠ ';'), rest.dropWhile (· ≠ ';') with
        | [], _ | _, [] => false
        | _, _ :: tail => isNullIdentifier text tail) ||
    (afterNamespaceIndex text normalized).any (isNullIdentifier text) ||
      isNullIdentifier text normalized

def filledOr (value : Option String) (default : String) : String :=
  match value.map text.strip with
  | none => default
  | some stripped => if stripped = "" then default else stripped

def serverUriForNamespaceInfos (namespaceInfos : List NamespaceDetails) : String :=
  match namespaceInfos.find? fun item => filledOr text item.serverUri "" ≠ "" with
  | some item => filledOr text item.serverUri ""
  | none => "unknown-server"

def namespaceVersionForUri (namespaceUri : String) (namespaceInfos : List NamespaceDetails) : String :=
  match namespaceInfos.find? fun item =>
      normalizeNamespaceUri text item.uri = normalizeNamespaceUri text namespaceUri with
  | some item => filledOr text item.namespaceVersion "unknown-version"
  | none => "unknown-version"

def serverUriToken (serverUri : String) : String :=
  let stripped := text.strip serverUri
  toUrnToken text (((afterIgnoringCase text "urn:".toList stripped.toList).map String.ofList).getD stripped)

/-- What follows the first semicolon, or everything. -/
def afterNamespacePart (nodeId : String) : String :=
  match nodeId.toList.dropWhile (· ≠ ';') with
  | [] => nodeId
  | _ :: rest => String.ofList rest

def typeElementId (namespaceUri displayName sourceTypeId serverUri namespaceVersion : String) : String :=
  ":".intercalate ["urn", serverUriToken text serverUri, "objecttype", toUrnToken text namespaceUri,
    "v-" ++ toUrnToken text namespaceVersion, toUrnToken text displayName,
    toUrnToken text (afterNamespacePart sourceTypeId)]

def objectTypeElementId (item : OpcUaObjectTypeInfo) (namespaceUri serverUri namespaceVersion : String) : String :=
  typeElementId text namespaceUri item.browseName item.nodeId serverUri namespaceVersion

def virtualObjectTypeElementId (namespaceUri displayName sourceTypeId serverUri namespaceVersion : String) : String :=
  typeElementId text namespaceUri displayName sourceTypeId serverUri namespaceVersion

def unknownTypeElementId (namespaceInfos : List NamespaceDetails) : String :=
  let namespaceUri :=
    match namespaceInfos with
    | [] => "https://cesmii.org/i3x/unknown"
    | first :: _ => canonicalNamespaceUri text first.uri namespaceInfos
  virtualObjectTypeElementId text namespaceUri "UnknownType" "nsu=http://opcfoundation.org/UA/;i=0"
    (serverUriForNamespaceInfos text namespaceInfos) (namespaceVersionForUri text namespaceUri namespaceInfos)

/-- The element ids of the listed types, by node id and by lowered expanded id. -/
structure TypeIdMaps where
  byNodeId : Dict String String
  bySourceType : Dict String String

def resolvedTypeElementIdForNode (node : PublishedNode) (namespaceInfos : List NamespaceDetails)
    (maps : TypeIdMaps) : String :=
  if node.kind = .property then
    let raw := if node.type.getD "" = "" then "unknown-type" else node.type.getD ""
    let expanded := expandedNodeId text raw namespaceInfos
    if isNullOpcuaTypeNodeId text expanded then unknownTypeElementId text namespaceInfos
    else (maps.bySourceType.get? (text.lower expanded)).getD expanded
  else
    let sourceTypeId := node.sourceTypeId.getD ""
    if sourceTypeId = "" then unknownTypeElementId text namespaceInfos
    else
      let expanded := expandedNodeId text sourceTypeId namespaceInfos
      if isNullOpcuaTypeNodeId text expanded then unknownTypeElementId text namespaceInfos
      else
        match maps.byNodeId.get? sourceTypeId with
        | some resolved => resolved
        | none => (maps.bySourceType.get? (text.lower expanded)).getD expanded

def resolveTypeNamespaceUri (typeElementId sourceTypeIdExpanded : String) (namespaceInfos : List NamespaceDetails) :
    Option String :=
  let named := NodeIds.namespaceUriFromExpandedNodeId typeElementId
  let indexed :=
    if isOpcuaNodeId text typeElementId then
      let uri := namespaceUriForNodeId text typeElementId namespaceInfos
      if uri = "" then none else some uri
    else none
  ((named.or indexed).or (NodeIds.namespaceUriFromExpandedNodeId sourceTypeIdExpanded)).map fun uri =>
    canonicalNamespaceUri text uri namespaceInfos

end

end I3x.Api
