import I3xServer.Container.Dict
import I3xServer.Container.Sorted
import I3xServer.Schemas.Annotations
import Mathlib.Data.Finset.Sort
import Mathlib.Data.String.Basic

/-!
# Entity tags

Handlers record the revisions of the data they used; the middleware makes the entity
tag of them and answers conditional requests. A handler may raise before it builds an
expensive body. Header values are texts of Latin letters, so that white space is the
one of the source's `strip`.
-/
namespace I3x.Serving
open Container Schemas

/-- The revisions a request has recorded, by name. -/
abbrev RevisionParts := Dict String String

def recordRevision (parts : RevisionParts) (name revision : String) : RevisionParts :=
  if revision = "" then parts else parts.set name revision

def modelPart : String := "model"
def namespacesPart : String := "namespaces"
def objectTypesPart : String := "objecttypes"
def etagEnabled : String := "_etag"
def notCacheable : String := "_not_cacheable"

def markNotCacheable (parts : RevisionParts) : RevisionParts := recordRevision parts notCacheable "1"

def enableEtag (parts : RevisionParts) : RevisionParts := recordRevision parts etagEnabled "1"

/-- Flags are recorded under names that begin with an underscore. -/
def isFlag (name : String) : Bool := name.toList.head? = some '_'

/-- The items of a dictionary of texts in the order of their keys. -/
def sortedItems (items : Dict String String) : List (String × String) :=
  (sorted items.keys.toFinset).filterMap fun key => (items.get? key).map fun value => (key, value)

/-- The recorded revisions in the order of their names. -/
def revisionsOf (parts : RevisionParts) : List (String × String) :=
  sortedItems (parts.filterKeys fun name => !isFlag name)

section
variable (contentRevision : List (String × String) → String)

/-- The opaque part of the tag, if the representation has one. -/
def representationRevision (parts : RevisionParts) : Option String :=
  if etagEnabled ∉ parts.keys ∨ notCacheable ∈ parts.keys then none
  else if (revisionsOf parts).isEmpty then none
  else some (contentRevision (revisionsOf parts))

def weakTag (revision : String) : String := "W/\"" ++ revision ++ "\""

def representationEtag (parts : RevisionParts) : Option String :=
  (representationRevision contentRevision parts).map weakTag

end

theorem mem_sortedItems (items : Dict String String) (key value : String) :
    (key, value) ∈ sortedItems items ↔ items.get? key = some value := by
  simp only [sortedItems, List.mem_filterMap, mem_sorted, List.mem_toFinset, Option.map_eq_some_iff, Prod.mk.injEq,
    Dict.mem_keys]
  constructor
  · rintro ⟨_, -, _, found, rfl, rfl⟩
    exact found
  · intro found
    exact ⟨key, ⟨value, found⟩, value, found, rfl, rfl⟩

/-- The sorted items determine every lookup. -/
theorem get?_of_sortedItems {items items' : Dict String String} (same : sortedItems items = sortedItems items')
    (key : String) : items.get? key = items'.get? key := by
  ext value
  rw [← mem_sortedItems, ← mem_sortedItems, same]

theorem weakTag_injective : Function.Injective weakTag := by
  intro revision revision' same
  have texts := congrArg String.toList same
  simp only [weakTag, String.toList_append, List.append_cancel_left_eq, List.append_cancel_right_eq] at texts
  exact String.toList_injective texts

/-- Representations of one tag are made of data of the same revisions. -/
theorem recorded_of_tag {contentRevision : List (String × String) → String}
    (injective : Function.Injective contentRevision) {parts parts' : RevisionParts} {etag : String}
    (tag : representationEtag contentRevision parts = some etag)
    (tag' : representationEtag contentRevision parts' = some etag) {name : String} (data : isFlag name = false) :
    parts.get? name = parts'.get? name := by
  have revisions : revisionsOf parts = revisionsOf parts' := by
    obtain ⟨revision, found, rfl⟩ := Option.map_eq_some_iff.mp tag
    obtain ⟨revision', found', same⟩ := Option.map_eq_some_iff.mp tag'
    cases weakTag_injective same
    unfold representationRevision at found found'
    split at found
    · cases found
    split at found
    · cases found
    split at found'
    · cases found'
    split at found'
    · cases found'
    exact injective ((Option.some.inj found).trans (Option.some.inj found').symm)
  have found := get?_of_sortedItems revisions name
  rwa [Dict.get?_filterKeys, Dict.get?_filterKeys, data, Bool.not_false, if_pos rfl, if_pos rfl] at found

def opaqueTag (tag : Chars) : Chars :=
  let tag := strip tag
  if ['W', '/'].isPrefixOf tag then tag.drop 2 else tag

def etagMatches (ifNoneMatch : Option String) (etag : String) : Bool :=
  match ifNoneMatch with
  | none => false
  | some header =>
      if header = "" then false
      else if strip header.toList = ['*'] then true
      else (header.toList.splitOn ',').any fun candidate => opaqueTag candidate = opaqueTag etag.toList

/-- What the middleware knows of a request. -/
structure ConditionalRequest where
  method : String
  ifNoneMatch : Option String
  deriving DecidableEq, Repr

def ConditionalRequest.isRead (request : ConditionalRequest) : Bool :=
  request.method = "GET" || request.method = "HEAD"

/-- A message of a response: its start, a chunk of its body, or something else. -/
inductive Message where
  | start (status : Nat) (headers : List (String × String))
  | body (chunk : List UInt8) (moreBody : Bool)
  | other (type : String)
  deriving DecidableEq

/-- Headers by lowered name; the first place of a name keeps its new value. -/
def setHeader (name value : String) : List (String × String) → List (String × String)
  | [] => [(name, value)]
  | header :: headers =>
      if header.1 = name then (name, value) :: headers.filter fun header => header.1 ≠ name
      else header :: setHeader name value headers

def bodyHeaders : List String := ["content-length", "content-type", "content-encoding"]

def withoutBodyHeaders (headers : List (String × String)) : List (String × String) :=
  headers.filter fun header => header.1 ∉ bodyHeaders

section
variable (contentRevision : List (String × String) → String) (request : ConditionalRequest) (parts : RevisionParts)

/-- The handler raises, once all revisions are recorded. -/
def raiseIfNotModified : Bool :=
  request.isRead && (representationEtag contentRevision parts).any fun etag => etagMatches request.ifNoneMatch etag

/-- What the client of a raising handler is answered before the middleware sees it. -/
def handleNotModified : List Message := [.start 304 [], .body [] false]

def modelRevisionHeader (headers : List (String × String)) : List (String × String) :=
  match parts.get? modelPart with
  | some revision => if revision = "" then headers else setHeader "i3x-model-revision" revision headers
  | none => headers

def tagHeaders (etag : String) (headers : List (String × String)) : List (String × String) :=
  setHeader "cache-control" "no-cache" (setHeader "etag" etag headers)

/-- `send_with_revision`: the message that is sent on, and whether the rest of the
body is dropped. -/
def sendWithRevision (dropBody : Bool) : Message → Bool × Option Message
  | .start status headers =>
      let headers := modelRevisionHeader parts headers
      match if request.isRead then representationEtag contentRevision parts else none with
      | some etag =>
          if status = 200 ∨ status = 304 then
            let headers := tagHeaders etag headers
            let drop := status = 200 && etagMatches request.ifNoneMatch etag
            let status := if drop then 304 else status
            (dropBody || drop, some (.start status (if status = 304 then withoutBodyHeaders headers else headers)))
          else (dropBody, some (.start status headers))
      | none => (dropBody, some (.start status headers))
  | .body chunk moreBody =>
      if dropBody then (true, if moreBody then none else some (.body [] false))
      else (false, some (.body chunk moreBody))
  | .other type => (dropBody, some (.other type))

/-- The middleware on the messages of one response; the revisions are those recorded
when the response starts. -/
def modelRevisionMiddleware : Bool → List Message → List Message
  | _, [] => []
  | dropBody, message :: messages =>
      let sent := sendWithRevision contentRevision request parts dropBody message
      sent.2.toList ++ modelRevisionMiddleware sent.1 messages

end

/-! ## Lists of tags -/

/-- A tag as clients may send it: any text between two quotes, weak or not. -/
structure EntityTag where
  weak : Bool
  value : Chars
  plain : '"' ∉ value

def EntityTag.text (tag : EntityTag) : Chars :=
  (if tag.weak then ['W', '/'] else []) ++ '"' :: (tag.value ++ ['"'])

/-- A member of a list of tags with the blanks around it. -/
structure ListedTag where
  before : Chars
  tag : EntityTag
  after : Chars
  blankBefore : ∀ c ∈ before, c = ' ' ∨ c = '\t'
  blankAfter : ∀ c ∈ after, c = ' ' ∨ c = '\t'

def ListedTag.text (listed : ListedTag) : Chars := listed.before ++ listed.tag.text ++ listed.after

def tagList (listed : List ListedTag) : String :=
  String.ofList ([','].intercalate (listed.map ListedTag.text))

theorem splitOn_intercalate {c : Char} {xs : List Chars} (some : xs ≠ []) :
    ([c].intercalate xs).splitOn c = xs.flatMap (List.splitOn c) := by
  induction xs with
  | nil => exact absurd rfl some
  | cons x xs ih =>
      cases xs with
      | nil => rw [List.intercalate_singleton, List.flatMap_cons, List.flatMap_nil, List.append_nil]
      | cons y ys =>
          rw [List.intercalate_cons_cons, List.append_assoc, List.singleton_append, List.splitOn_append_cons_self,
            ih (List.cons_ne_nil y ys)]
          rfl

theorem sublist_of_mem_splitOn {c : Char} {text piece : Chars} (mem : piece ∈ text.splitOn c) :
    piece.Sublist text := by
  induction text generalizing piece with
  | nil =>
      rw [List.splitOn_nil, List.mem_singleton] at mem
      rw [mem]
  | cons x text ih =>
      rw [List.splitOn_cons_eq_if_modifyHead] at mem
      split at mem
      · rcases List.mem_cons.mp mem with rfl | later
        · exact List.nil_sublist _
        · exact (ih later).cons x
      · cases pieces : text.splitOn c with
        | nil => exact absurd pieces (List.splitOn_ne_nil c text)
        | cons first others =>
            rw [pieces] at mem ih
            rcases List.mem_cons.mp mem with rfl | later
            · exact (ih List.mem_cons_self).cons_cons x
            · exact (ih (List.mem_cons_of_mem first later)).cons x

theorem stripBy_sublist (p : Char → Bool) (text : Chars) : (stripBy p text).Sublist text :=
  (List.reverse_sublist.mp (by
    rw [stripBy, List.reverse_reverse]
    exact (List.dropWhile_sublist _).trans (List.reverse_sublist.mpr (List.dropWhile_sublist _))))

theorem dropWhile_append_blank {p : Char → Bool} {before core : Chars} {first : Char} (blank : ∀ c ∈ before, p c)
    (opened : core.head? = some first) (kept : p first = false) : (before ++ core).dropWhile p = core := by
  rw [List.dropWhile_append_of_pos blank]
  cases core with
  | nil => cases opened
  | cons c core =>
      cases opened
      rw [List.dropWhile_cons_of_neg (by rw [kept]; exact Bool.false_ne_true)]

theorem stripBy_blanks {p : Char → Bool} {before core after : Chars} (blankBefore : ∀ c ∈ before, p c)
    (blankAfter : ∀ c ∈ after, p c) (first last : Char) (opened : core.head? = some first)
    (closed : core.getLast? = some last) (keepsFirst : p first = false) (keepsLast : p last = false) :
    stripBy p (before ++ core ++ after) = core := by
  have opens : (core ++ after).head? = some first := by rw [List.head?_append, opened, Option.some_or]
  have closes : core.reverse.head? = some last := by rw [List.head?_reverse, closed]
  have blank : ∀ c ∈ after.reverse, p c := fun c m => blankAfter c (List.mem_reverse.mp m)
  rw [stripBy, List.append_assoc, dropWhile_append_blank blankBefore opens keepsFirst, List.reverse_append,
    dropWhile_append_blank blank closes keepsLast, List.reverse_reverse]

theorem opaqueTag_sublist (tag : Chars) : (opaqueTag tag).Sublist tag := by
  unfold opaqueTag
  dsimp only
  split
  · exact (List.drop_sublist 2 _).trans (stripBy_sublist isSpace tag)
  · exact stripBy_sublist isSpace tag

/-- The tag without its weakness, as it is compared. -/
def EntityTag.quoted (tag : EntityTag) : Chars := '"' :: (tag.value ++ ['"'])

theorem EntityTag.count_quoted (tag : EntityTag) : tag.quoted.count '"' = 2 := by
  rw [quoted, List.count_cons_self, List.count_append, List.count_eq_zero_of_not_mem tag.plain, Nat.zero_add]
  rfl

theorem EntityTag.quoted_injective {tag tag' : EntityTag} : tag.quoted = tag'.quoted ↔ tag.value = tag'.value := by
  simp only [quoted, List.cons.injEq, true_and, List.append_cancel_right_eq]

theorem EntityTag.text_eq (tag : EntityTag) : tag.text = (if tag.weak then ['W', '/'] else []) ++ tag.quoted := rfl

/-- A listed tag by itself is compared by what stands between its quotes. -/
theorem ListedTag.opaqueTag_text (listed : ListedTag) : opaqueTag listed.text = listed.tag.quoted := by
  have blank {c : Char} (either : c = ' ' ∨ c = '\t') : isSpace c := by
    rcases either with rfl | rfl
    · decide
    · decide
  have stripped : strip listed.text = listed.tag.text := by
    cases weak : listed.tag.weak with
    | true =>
        refine stripBy_blanks (fun c m => blank (listed.blankBefore c m)) (fun c m => blank (listed.blankAfter c m))
          'W' '"' ?_ ?_ (by decide) (by decide)
        · rw [EntityTag.text, weak]
          rfl
        · rw [EntityTag.text, weak, ← List.cons_append, ← List.append_assoc, List.getLast?_concat]
    | false =>
        refine stripBy_blanks (fun c m => blank (listed.blankBefore c m)) (fun c m => blank (listed.blankAfter c m))
          '"' '"' ?_ ?_ (by decide) (by decide)
        · rw [EntityTag.text, weak]
          rfl
        · rw [EntityTag.text, weak, ← List.cons_append, ← List.append_assoc, List.getLast?_concat]
  unfold opaqueTag
  rw [stripped, EntityTag.text_eq]
  cases listed.tag.weak with
  | true => rfl
  | false => rfl

theorem ListedTag.comma_mem_text {listed : ListedTag} : ',' ∈ listed.text ↔ ',' ∈ listed.tag.value := by
  have unlisted {cs : Chars} (blank : ∀ c ∈ cs, c = ' ' ∨ c = '\t') : ',' ∉ cs := by
    intro m
    rcases blank ',' m with same | same
    · exact absurd same (by decide)
    · exact absurd same (by decide)
  have before := unlisted listed.blankBefore
  have after := unlisted listed.blankAfter
  have prefixed : ',' ∉ (if listed.tag.weak then ['W', '/'] else []) := by
    cases listed.tag.weak with
    | true => decide
    | false => decide
  simp only [text, EntityTag.text, List.mem_append, List.mem_cons, before, after, prefixed, false_or, or_false]
  simp

/-- The pieces of a listed tag that are compared: the tag itself, or nothing that
could match where its value has a comma. -/
theorem ListedTag.exists_piece (listed : ListedTag) (current : EntityTag) (unbroken : ',' ∉ current.value) :
    (∃ piece ∈ listed.text.splitOn ',', opaqueTag piece = current.quoted) ↔ listed.tag.value = current.value := by
  by_cases broken : ',' ∈ listed.tag.value
  · refine iff_of_false (fun ⟨piece, mem, same⟩ => ?_) fun same => unbroken (same ▸ broken)
    have two : 2 ≤ piece.count '"' := by
      rw [← current.count_quoted, ← same]
      exact (opaqueTag_sublist piece).count_le '"'
    -- the comma stands between the quotes, so each side has one of them
    obtain ⟨left, right, split⟩ := List.append_of_mem broken
    have plain := listed.tag.plain
    rw [split, List.mem_append, List.mem_cons, not_or, not_or] at plain
    have text : listed.text = (listed.before ++ ((if listed.tag.weak then ['W', '/'] else []) ++ '"' :: left)) ++
        ',' :: (right ++ '"' :: listed.after) := by
      rw [ListedTag.text, EntityTag.text, split]
      simp only [List.append_assoc, List.cons_append, List.nil_append]
    have unquoted {cs : Chars} (blank : ∀ c ∈ cs, c = ' ' ∨ c = '\t') : cs.count '"' = 0 := by
      refine List.count_eq_zero_of_not_mem fun m => ?_
      rcases blank '"' m with same | same
      · exact absurd same (by decide)
      · exact absurd same (by decide)
    have prefixed : (if listed.tag.weak then ['W', '/'] else []).count '"' = 0 := by
      cases listed.tag.weak with
      | true => decide
      | false => decide
    rw [text, List.splitOn_append_cons_self, List.mem_append] at mem
    rcases mem with first | second
    · have most := (sublist_of_mem_splitOn first).count_le '"'
      simp only [List.count_append, List.count_cons_self, unquoted listed.blankBefore, prefixed,
        List.count_eq_zero_of_not_mem plain.1] at most
      omega
    · have most := (sublist_of_mem_splitOn second).count_le '"'
      simp only [List.count_append, List.count_cons_self, unquoted listed.blankAfter,
        List.count_eq_zero_of_not_mem plain.2.2] at most
      omega
  · rw [List.splitOn_eq_singleton fun m => broken (ListedTag.comma_mem_text.mp m), ← EntityTag.quoted_injective]
    simp only [List.mem_singleton, exists_eq_left, listed.opaqueTag_text]

/-- A list of tags matches the current tag if one of its members is that tag, weak or not. -/
theorem etagMatches_tagList {listed : List ListedTag} (some : listed ≠ []) (current : EntityTag) {etag : String}
    (written : opaqueTag etag.toList = current.quoted) (unbroken : ',' ∉ current.value) :
    etagMatches (tagList listed) etag = true ↔ ∃ member ∈ listed, member.tag.value = current.value := by
  have quote : '"' ∈ (tagList listed).toList := by
    obtain ⟨first, others, rfl⟩ := List.exists_cons_of_ne_nil some
    have inside : '"' ∈ first.text := by
      rw [ListedTag.text, EntityTag.text]
      simp only [List.mem_append, List.mem_cons, true_or, or_true]
    rw [tagList, String.toList_ofList, List.map_cons]
    cases others with
    | nil => rwa [List.map_nil, List.intercalate_singleton]
    | cons second others =>
        rw [List.map_cons, List.intercalate_cons_cons]
        exact List.mem_append_left _ (List.mem_append_left _ inside)
  have text : tagList listed ≠ "" := by
    intro empty
    rw [empty] at quote
    cases quote
  have star : strip (tagList listed).toList ≠ ['*'] := by
    intro star
    have kept := mem_stripBy_of_kept (p := isSpace) (by decide) quote
    rw [show stripBy isSpace (tagList listed).toList = ['*'] from star] at kept
    exact absurd kept (by decide)
  have pieces : (tagList listed).toList.splitOn ',' = listed.flatMap fun member => member.text.splitOn ',' := by
    rw [tagList, String.toList_ofList, splitOn_intercalate (List.map_eq_nil_iff.not.mpr some), List.flatMap_map]
  simp only [etagMatches, text, star, if_false, pieces, List.any_flatMap, List.any_eq_true, decide_eq_true_eq, written]
  exact exists_congr fun member => and_congr_right fun _ => member.exists_piece current unbroken

/-- What a client asks its request to depend on. -/
inductive Condition where
  | absent | any
  | tags (first : ListedTag) (others : List ListedTag)

namespace Condition

def ifNoneMatch : Condition → Option String
  | .absent => none
  | .any => some "*"
  | .tags first others => some (tagList (first :: others))

/-- The client has the representation of this revision. -/
def Names (revision : String) : Condition → Prop
  | .absent => False
  | .any => True
  | .tags first others => ∃ member ∈ first :: others, member.tag.value = revision.toList

instance (revision : String) (condition : Condition) : Decidable (condition.Names revision) :=
  match condition with
  | .absent => instDecidableFalse
  | .any => instDecidableTrue
  | .tags first others => inferInstanceAs (Decidable (∃ member ∈ first :: others, _))

end Condition

/-- The digits of a digest. -/
def HexDigits (revision : String) : Prop := ∀ c ∈ revision.toList, c ∈ "0123456789abcdef".toList

instance (revision : String) : Decidable (HexDigits revision) := List.decidableBAll _ _

theorem HexDigits.not_mem {revision : String} (hex : HexDigits revision) {c : Char}
    (other : c ∉ "0123456789abcdef".toList) : c ∉ revision.toList := fun m => other (hex c m)

/-- The tag of a revision. -/
def currentTag {revision : String} (hex : HexDigits revision) : EntityTag where
  weak := true
  value := revision.toList
  plain := hex.not_mem (by decide)

theorem weakTag_toList {revision : String} (hex : HexDigits revision) :
    (weakTag revision).toList = (currentTag hex).text := by
  simp [weakTag, currentTag, EntityTag.text]

theorem etagMatches_iff {revision : String} (hex : HexDigits revision) (condition : Condition) :
    etagMatches condition.ifNoneMatch (weakTag revision) = true ↔ condition.Names revision := by
  cases condition with
  | absent => simp [Condition.ifNoneMatch, etagMatches, Condition.Names]
  | any => exact iff_of_true rfl trivial
  | tags first others =>
      have alone : (⟨[], currentTag hex, [], List.forall_mem_nil _, List.forall_mem_nil _⟩ : ListedTag).text =
          (weakTag revision).toList := by
        rw [weakTag_toList hex, ListedTag.text, List.nil_append, List.append_nil]
      refine etagMatches_tagList (List.cons_ne_nil first others) (currentTag hex) ?_ (hex.not_mem (by decide))
      rw [← alone, ListedTag.opaqueTag_text]

/-! ## Conditional requests -/

theorem withoutBodyHeaders_setHeader {name : String} (own : name ∉ bodyHeaders) (value : String)
    (headers : List (String × String)) :
    withoutBodyHeaders (setHeader name value headers) = setHeader name value (withoutBodyHeaders headers) := by
  have kept (header : String × String) (headers : List (String × String)) :
      withoutBodyHeaders (header :: headers) =
        if header.1 ∈ bodyHeaders then withoutBodyHeaders headers else header :: withoutBodyHeaders headers := by
    rw [withoutBodyHeaders, List.filter_cons]
    by_cases mem : header.1 ∈ bodyHeaders
    · simp only [mem, not_true, decide_false, Bool.false_eq_true, if_false, if_true]
      rfl
    · simp only [mem, not_false_iff, decide_true, if_true, if_false]
      rfl
  induction headers with
  | nil =>
      rw [setHeader, kept, if_neg own]
      rfl
  | cons header headers ih =>
      rw [setHeader, kept header]
      by_cases same : header.1 = name
      · rw [if_pos same, if_neg (same ▸ own), kept, if_neg own, setHeader, if_pos same, withoutBodyHeaders,
          withoutBodyHeaders, List.filter_comm]
      · rw [if_neg same, kept, ih]
        split
        · rfl
        · rw [setHeader, if_neg same]

section
variable (contentRevision : List (String × String) → String) (request : ConditionalRequest) (parts : RevisionParts)

/-- A whole response of the router in chunks. -/
def wholeResponse (status : Nat) (headers : List (String × String)) (chunks : List (List UInt8))
    (last : List UInt8) : List Message :=
  .start status headers :: (chunks.map fun chunk => .body chunk true) ++ [.body last false]

/-- The messages of a handler that may raise before it builds its response. -/
def conditionally (full : List Message) : List Message :=
  if raiseIfNotModified contentRevision request parts then handleNotModified else full

theorem middleware_kept (chunks : List (List UInt8)) (last : List UInt8) :
    modelRevisionMiddleware contentRevision request parts false
        ((chunks.map fun chunk => .body chunk true) ++ [.body last false]) =
      (chunks.map fun chunk => .body chunk true) ++ [.body last false] := by
  induction chunks with
  | nil => rfl
  | cons chunk chunks ih => exact congrArg (Message.body chunk true :: ·) ih

theorem middleware_dropped (chunks : List (List UInt8)) (last : List UInt8) :
    modelRevisionMiddleware contentRevision request parts true
        ((chunks.map fun chunk => .body chunk true) ++ [.body last false]) = [.body [] false] := by
  induction chunks with
  | nil => rfl
  | cons chunk chunks ih => exact ih

theorem withoutBodyHeaders_tagged {headers : List (String × String)} (own : withoutBodyHeaders headers = [])
    (etag : String) : withoutBodyHeaders (tagHeaders etag (modelRevisionHeader parts headers)) =
      tagHeaders etag (modelRevisionHeader parts []) := by
  have revised : withoutBodyHeaders (modelRevisionHeader parts headers) = modelRevisionHeader parts [] := by
    unfold modelRevisionHeader
    split
    · split
      · exact own
      · rw [withoutBodyHeaders_setHeader (by decide), own]
    · exact own
  rw [tagHeaders, withoutBodyHeaders_setHeader (by decide), withoutBodyHeaders_setHeader (by decide), revised,
    tagHeaders]

section
variable {contentRevision : List (String × String) → String} {request : ConditionalRequest} {parts : RevisionParts}

theorem middleware_untagged {status : Nat}
    (untagged : request.isRead → status = 200 ∨ status = 304 → representationEtag contentRevision parts = none)
    (headers : List (String × String)) (messages : List Message) :
    modelRevisionMiddleware contentRevision request parts false (.start status headers :: messages) =
      .start status (modelRevisionHeader parts headers) ::
        modelRevisionMiddleware contentRevision request parts false messages := by
  rw [modelRevisionMiddleware, sendWithRevision]
  cases tag : if request.isRead then representationEtag contentRevision parts else none with
  | none => rfl
  | some etag =>
      have other : ¬ (status = 200 ∨ status = 304) := by
        intro inside
        split at tag
        · rename_i read
          cases (untagged read inside).symm.trans tag
        · cases tag
      simp only [if_neg other]
      rfl

/-- A tagged response that the client does not have. -/
theorem middleware_modified {etag : String} (read : request.isRead = true)
    (tag : representationEtag contentRevision parts = some etag)
    (other : etagMatches request.ifNoneMatch etag = false) (headers : List (String × String))
    (messages : List Message) :
    modelRevisionMiddleware contentRevision request parts false (.start 200 headers :: messages) =
      .start 200 (tagHeaders etag (modelRevisionHeader parts headers)) ::
        modelRevisionMiddleware contentRevision request parts false messages := by
  simp only [modelRevisionMiddleware, sendWithRevision, read, tag, other, if_true, true_or, Bool.and_false,
    Bool.or_false, Bool.false_eq_true, if_false, Option.toList_some, List.cons_append, List.nil_append,
    Nat.reduceEqDiff]

/-- A tagged response that the client has, or that the handler did not build. -/
theorem middleware_notModified {etag : String} (status : Nat) (read : request.isRead = true)
    (tag : representationEtag contentRevision parts = some etag)
    (either : status = 200 ∧ etagMatches request.ifNoneMatch etag = true ∨ status = 304)
    (headers : List (String × String)) (own : withoutBodyHeaders headers = []) (messages : List Message) :
    modelRevisionMiddleware contentRevision request parts false (.start status headers :: messages) =
      .start 304 (tagHeaders etag (modelRevisionHeader parts [])) ::
        modelRevisionMiddleware contentRevision request parts (decide (status = 200)) messages := by
  rw [← withoutBodyHeaders_tagged parts own]
  rcases either with ⟨rfl, same⟩ | rfl
  · simp only [modelRevisionMiddleware, sendWithRevision, read, tag, same, if_true, true_or, decide_true,
      Bool.and_self, Bool.or_true, Option.toList_some, List.cons_append, List.nil_append]
  · simp only [modelRevisionMiddleware, sendWithRevision, read, tag, if_true, or_true, Nat.reduceEqDiff, decide_false,
      Bool.false_and, Bool.or_false, Bool.false_eq_true, if_false, Option.toList_some, List.cons_append,
      List.nil_append]

theorem hexDigits_representation (hex : ∀ revisions, HexDigits (contentRevision revisions)) {revision : String}
    (found : representationRevision contentRevision parts = some revision) : HexDigits revision := by
  unfold representationRevision at found
  split at found
  · cases found
  · split at found
    · cases found
    · cases found
      exact hex _

end

/-- **Conditional requests.** A handler that raises before it builds its body is
answered like one that does not. A response of the statuses 200 and 304 to a read gets
the tag of the representation, and a client that has named it gets no body with 200. -/
theorem conditional_get (hex : ∀ revisions, HexDigits (contentRevision revisions)) (method : String)
    (condition : Condition) (status : Nat) (headers : List (String × String))
    (own : withoutBodyHeaders headers = []) (chunks : List (List UInt8)) (last : List UInt8) :
    let request : ConditionalRequest := ⟨method, condition.ifNoneMatch⟩
    let sent := modelRevisionMiddleware contentRevision request parts false
    let full := wholeResponse status headers chunks last
    (status = 200 → sent (conditionally contentRevision request parts full) = sent full) ∧
      sent full =
        match if request.isRead ∧ (status = 200 ∨ status = 304) then representationRevision contentRevision parts
          else none with
        | none => wholeResponse status (modelRevisionHeader parts headers) chunks last
        | some revision =>
            let kept := if status = 304 then [] else headers
            if status = 200 ∧ condition.Names revision then
              [.start 304 (tagHeaders (weakTag revision) (modelRevisionHeader parts [])), .body [] false]
            else wholeResponse status (tagHeaders (weakTag revision) (modelRevisionHeader parts kept)) chunks last := by
  intro request sent full
  have kept := middleware_kept contentRevision request parts chunks last
  cases shown : if request.isRead ∧ (status = 200 ∨ status = 304) then representationRevision contentRevision parts
    else none with
  | none =>
      have untagged (read : request.isRead) (inside : status = 200 ∨ status = 304) :
          representationEtag contentRevision parts = none := by
        rw [if_pos ⟨read, inside⟩] at shown
        rw [representationEtag, shown, Option.map_none]
      refine ⟨fun good => ?_, (middleware_untagged untagged headers _).trans (congrArg _ kept)⟩
      have silent : raiseIfNotModified contentRevision request parts = false := by
        rw [raiseIfNotModified]
        cases read : request.isRead with
        | false => rfl
        | true => rw [untagged read (.inl good), Option.any_none, Bool.and_false]
      rw [conditionally, silent]
      rfl
  | some revision =>
      obtain ⟨read, inside⟩ : request.isRead ∧ (status = 200 ∨ status = 304) := by
        by_contra other
        rw [if_neg other] at shown
        cases shown
      rw [if_pos ⟨read, inside⟩] at shown
      have tag : representationEtag contentRevision parts = some (weakTag revision) := by
        rw [representationEtag, shown, Option.map_some]
      rcases inside with rfl | rfl
      · have matched : etagMatches request.ifNoneMatch (weakTag revision) = decide (condition.Names revision) := by
          rw [Bool.eq_iff_iff, etagMatches_iff (hexDigits_representation hex shown), decide_eq_true_eq]
        have raised : raiseIfNotModified contentRevision request parts = decide (condition.Names revision) := by
          rw [raiseIfNotModified, read, tag, Option.any_some, matched, Bool.true_and]
        rw [conditionally, raised]
        by_cases names : condition.Names revision
        · have same := matched.trans (decide_eq_true names)
          have dropping := middleware_notModified 200 read tag (.inl ⟨rfl, same⟩) headers own
            ((chunks.map fun chunk => .body chunk true) ++ [.body last false])
          have short := middleware_notModified 304 read tag (.inr rfl) [] rfl [.body [] false]
          have answered : sent full = _ :=
            dropping.trans (congrArg _ (middleware_dropped contentRevision request parts chunks last))
          simp only [names, decide_true, if_true, answered, and_true]
          exact fun _ => short
        · have modified := middleware_modified read tag (matched.trans (decide_eq_false names)) headers
            ((chunks.map fun chunk => .body chunk true) ++ [.body last false])
          simp only [names, decide_false, if_false, Bool.false_eq_true, and_false, implies_true, true_and,
            Nat.reduceEqDiff]
          exact modified.trans (congrArg _ kept)
      · refine ⟨nofun, ?_⟩
        have short := middleware_notModified 304 read tag (.inr rfl) headers own
          ((chunks.map fun chunk => .body chunk true) ++ [.body last false])
        exact short.trans (congrArg _ kept)

end

/-- The answer to a client that has the representation among others, and the one of a
failed read, whatever the client has. -/
theorem conditional_get_named :
    let parts := enableEtag (recordRevision (recordRevision .empty namespacesPart "7") modelPart "5")
    let digest : List (String × String) → String := fun revisions => if revisions.length = 2 then "0f" else "1"
    let sent (header : String) := modelRevisionMiddleware digest ⟨"GET", some header⟩ parts false
    let full (status : Nat) := wholeResponse status [("content-length", "2")] [] [123, 125]
    sent "\"a,b\", W/\"0f\"" (conditionally digest ⟨"GET", some "\"a,b\", W/\"0f\""⟩ parts (full 200)) =
      [.start 304 [("i3x-model-revision", "5"), ("etag", "W/\"0f\""), ("cache-control", "no-cache")],
        .body [] false] ∧
    sent "*" (full 502) =
      [.start 502 [("content-length", "2"), ("i3x-model-revision", "5")], .body [123, 125] false] := by
  intro parts digest sent full
  have hex : ∀ revisions, HexDigits (digest revisions) := by
    intro revisions
    unfold digest
    split
    · decide
    · decide
  let none : ∀ c ∈ [], c = ' ' ∨ c = '\t' := List.forall_mem_nil _
  let other : ListedTag := ⟨[], ⟨false, "a,b".toList, by decide⟩, [], none, none⟩
  let own : ListedTag := ⟨[' '], ⟨true, "0f".toList, by decide⟩, [], fun c m => .inl (List.mem_singleton.mp m), none⟩
  have answer (condition : Condition) (status : Nat) := conditional_get digest parts hex "GET" condition status
    [("content-length", "2")] (by decide) [] [123, 125]
  constructor
  · have named := answer (.tags other [own]) 200
    exact (named.1 rfl).trans (named.2.trans (by decide +kernel))
  · exact (answer .any 502).2.trans (by decide +kernel)

end I3x.Serving
