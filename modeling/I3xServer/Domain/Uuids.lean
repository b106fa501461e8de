import I3xServer.Container.Replacement
import I3xServer.Container.Trimming
import I3xServer.Domain.NodeIds
import Mathlib.Algebra.GroupWithZero.Nat

/-!
# UUIDs as text

What the standard library reads as a UUID, and how it prints one. The text may have
braces, dashes and prefixes; what is left are 32 characters that `int` reads to base 16.
-/
namespace I3x.Uuid
open Container

/-- `int` reads decimal digits of every script as the ASCII ones. -/
def toAscii (decimal : Char → Option Nat) (c : Char) : Char := ((decimal c).map Nat.digitChar).getD c

/-- The white space around a number. Of the ASCII characters it has fewer than `str.strip`
takes: the separators U+001C to U+001F are none. -/
def numberSpace (isSpace : Char → Bool) (c : Char) : Bool :=
  if c.val < 128 then c.val = 32 || (9 ≤ c.val && c.val ≤ 13) else isSpace c

def hexDigit (c : Char) : Option Nat :=
  if 48 ≤ c.val && c.val ≤ 57 then some (c.toNat - 48)
  else if 97 ≤ c.val && c.val ≤ 102 then some (c.toNat - 87)
  else if 65 ≤ c.val && c.val ≤ 70 then some (c.toNat - 55)
  else none

def unsigned : List Char → List Char
  | '+' :: text => text
  | text => text

/-- One underscore may follow the prefix. -/
def unprefixed : List Char → List Char
  | '0' :: 'x' :: '_' :: text | '0' :: 'X' :: '_' :: text => text
  | '0' :: 'x' :: text | '0' :: 'X' :: text => text
  | text => text

/-- Single underscores may stand between digits. -/
def hexDigits (text : List Char) : Option (List Nat) :=
  if text.head? = some '_' ∨ text.getLast? = some '_' ∨ ['_', '_'] <:+: text ∨ text.filter (· ≠ '_') = [] then none
  else (text.filter (· ≠ '_')).mapM hexDigit

section
variable (decimal : Char → Option Nat) (isSpace : Char → Bool)

/-- `int(text, 16)` for a text without a minus. -/
def hexNumber (text : List Char) : Option Nat :=
  let trimmed := trim (numberSpace isSpace) (text.map (toAscii decimal))
  (hexDigits (unprefixed (unsigned trimmed))).map fun digits => digits.foldl (fun n d => 16 * n + d) 0

def isBrace (c : Char) : Bool := c = '\x7b' || c = '\x7d'

/-- The last digits of a number, as many as wanted. -/
def hexText : Nat → Nat → List Char
  | 0, _ => []
  | width + 1, value => hexText width (value / 16) ++ [Nat.digitChar (value % 16)]

/-- `str(UUID(int=value))` -/
def printed (value : Nat) : List Char :=
  let hex := hexText 32 value
  hex.take 8 ++ '-' :: ((hex.drop 8).take 4 ++ '-' :: ((hex.drop 12).take 4 ++ '-' ::
    ((hex.drop 16).take 4 ++ '-' :: hex.drop 20)))

/-- A text without prefixes, braces and dashes. -/
def bareText (text : List Char) : List Char :=
  (trim isBrace (replaceAll "uuid:".toList [] (replaceAll "urn:".toList [] text))).filter (· ≠ '-')

/-- `str(UUID(text))`, absent where it raises. -/
def uuid (text : String) : Option String :=
  let hex := bareText text.toList
  if hex.length = 32 then (hexNumber decimal isSpace hex).map fun value => String.ofList (printed value) else none

end

/-! ## What is printed is read -/

def IsHex (c : Char) : Prop := ∃ d < 16, c = Nat.digitChar d

theorem IsHex.elim {P : Char → Prop} {c : Char} (hex : IsHex c) (each : ∀ d < 16, P (Nat.digitChar d)) : P c := by
  obtain ⟨d, small, rfl⟩ := hex
  exact each d small

theorem isHex_of_mem {width value : Nat} {c : Char} (m : c ∈ hexText width value) : IsHex c := by
  induction width generalizing value with
  | zero => cases m
  | succ width ih =>
      rcases List.mem_append.mp m with m | m
      · exact ih m
      · exact ⟨value % 16, Nat.mod_lt _ (by decide), List.mem_singleton.mp m⟩

theorem length_hexText (width value : Nat) : (hexText width value).length = width := by
  induction width generalizing value with
  | zero => rfl
  | succ width ih => rw [hexText, List.length_append, ih, List.length_singleton]

theorem hexDigit_digitChar : ∀ d < 16, hexDigit (Nat.digitChar d) = some d := by decide

/-- Every digit of a printed number is read back. -/
theorem mapM_hexText (width value : Nat) : ∃ digits, (hexText width value).mapM hexDigit = some digits ∧
    digits.foldl (fun n d => 16 * n + d) 0 = value % 16 ^ width := by
  induction width generalizing value with
  | zero => exact ⟨[], rfl, (Nat.mod_one value).symm⟩
  | succ width ih =>
      obtain ⟨digits, read, denotes⟩ := ih (value / 16)
      refine ⟨digits ++ [value % 16], ?_, ?_⟩
      · rw [hexText, List.mapM_append, read, List.mapM_cons, hexDigit_digitChar _ (Nat.mod_lt _ (by decide))]
        rfl
      · rw [List.foldl_append, denotes, List.foldl_cons, List.foldl_nil, Nat.pow_succ']
        rw [Nat.mod_mul]
        omega

theorem hexText_mod (width value : Nat) : hexText width (value % 16 ^ width) = hexText width value := by
  induction width generalizing value with
  | zero => rfl
  | succ width ih =>
      have high : value % 16 ^ (width + 1) / 16 = value / 16 % 16 ^ width := by
        rw [Nat.pow_succ', Nat.mod_mul_right_div_self]
      have low : value % 16 ^ (width + 1) % 16 = value % 16 := by
        rw [Nat.pow_succ', Nat.mod_mul_right_mod]
      rw [hexText, hexText, high, low, ih]

theorem printed_mod (value : Nat) : printed (value % 16 ^ 32) = printed value := by
  rw [printed, printed, hexText_mod]

theorem unsigned_of_not_mem {text : List Char} (plain : '+' ∉ text) : unsigned text = text := by
  unfold unsigned
  split
  · exact absurd List.mem_cons_self plain
  · rfl

theorem unprefixed_of_not_mem {text : List Char} (lower : 'x' ∉ text) (upper : 'X' ∉ text) : unprefixed text = text := by
  unfold unprefixed
  split
  · exact absurd (List.mem_cons_of_mem _ List.mem_cons_self) lower
  · exact absurd (List.mem_cons_of_mem _ List.mem_cons_self) upper
  · exact absurd (List.mem_cons_of_mem _ List.mem_cons_self) lower
  · exact absurd (List.mem_cons_of_mem _ List.mem_cons_self) upper
  · rfl

theorem hexDigits_of_not_mem {text : List Char} (some' : text ≠ []) (plain : '_' ∉ text) :
    hexDigits text = text.mapM hexDigit := by
  have same : text.filter (· ≠ '_') = text :=
    List.filter_eq_self.mpr fun c m => decide_eq_true fun eq : c = '_' => plain (eq ▸ m)
  rw [hexDigits, same, if_neg]
  rintro (first | last | pair | none)
  · exact plain (List.mem_of_mem_head? first)
  · exact plain (List.mem_of_getLast? last)
  · exact plain (pair.subset List.mem_cons_self)
  · exact some' none

theorem mem_printed {value : Nat} {c : Char} (m : c ∈ printed value) : IsHex c ∨ c = '-' := by
  have part {cs : List Char} (inside : cs ⊆ hexText 32 value) (m : c ∈ cs) : IsHex c := isHex_of_mem (inside m)
  simp only [printed, List.mem_append, List.mem_cons] at m
  rcases m with m | rfl | m | rfl | m | rfl | m | rfl | m
  · exact .inl (part (List.take_subset _ _) m)
  · exact .inr rfl
  · exact .inl (part (List.Subset.trans (List.take_subset _ _) (List.drop_subset _ _)) m)
  · exact .inr rfl
  · exact .inl (part (List.Subset.trans (List.take_subset _ _) (List.drop_subset _ _)) m)
  · exact .inr rfl
  · exact .inl (part (List.Subset.trans (List.take_subset _ _) (List.drop_subset _ _)) m)
  · exact .inr rfl
  · exact .inl (part (List.drop_subset _ _) m)

/-- Without the dashes the digits are left. -/
theorem filter_printed (value : Nat) : (printed value).filter (· ≠ '-') = hexText 32 value := by
  have kept {cs : List Char} (inside : cs ⊆ hexText 32 value) : cs.filter (· ≠ '-') = cs := by
    refine List.filter_eq_self.mpr fun c m => ?_
    exact (isHex_of_mem (inside m)).elim (P := fun c => decide (c ≠ '-') = true) (by decide)
  have dash (cs : List Char) : ('-' :: cs).filter (· ≠ '-') = cs.filter (· ≠ '-') :=
    List.filter_cons_of_neg (by decide)
  simp only [printed, List.filter_append, dash]
  rw [kept (List.take_subset _ _), kept (List.Subset.trans (List.take_subset _ _) (List.drop_subset _ _)),
    kept (List.Subset.trans (List.take_subset _ _) (List.drop_subset _ _)), kept (List.Subset.trans (List.take_subset _ _) (List.drop_subset _ _)),
    kept (List.drop_subset _ _)]
  have next (from_ width : Nat) (cs : List Char) :
      (cs.drop from_).take width ++ cs.drop (from_ + width) = cs.drop from_ := by
    rw [← List.drop_drop, List.take_append_drop]
  rw [next 16 4, next 12 4, next 8 4, List.take_append_drop]

section
variable {decimal : Char → Option Nat} {isSpace : Char → Bool}
  (ascii : ∀ c, c.val < 128 → decimal c = Unicode.asciiDecimal c)
include ascii

/-- Hex digits are read as they stand: nothing is trimmed, and there is no sign or prefix. -/
theorem hexNumber_hexText (value : Nat) : hexNumber decimal isSpace (hexText 32 value) = some (value % 16 ^ 32) := by
  have hex : ∀ c ∈ hexText 32 value, IsHex c := fun _ => isHex_of_mem
  have small : ∀ c ∈ hexText 32 value, c.val < 128 := fun c m => (hex c m).elim (P := fun c => c.val < 128) (by decide)
  have same : (hexText 32 value).map (toAscii decimal) = hexText 32 value := by
    conv => rhs; rw [← List.map_id (hexText 32 value)]
    refine List.map_congr_left fun c m => ?_
    rw [toAscii, ascii c (small c m)]
    exact (hex c m).elim (P := fun c => ((Unicode.asciiDecimal c).map Nat.digitChar).getD c = c) (by decide)
  have absent {other : Char} (apart : ∀ d < 16, Nat.digitChar d ≠ other) : other ∉ hexText 32 value := by
    intro m
    obtain ⟨d, fits, rfl⟩ := hex _ m
    exact apart d fits rfl
  have inside : ∀ c ∈ hexText 32 value, numberSpace isSpace c = false := by
    intro c m
    rw [numberSpace, if_pos (small c m)]
    exact (hex c m).elim (P := fun c => (c.val = 32 || (9 ≤ c.val && c.val ≤ 13)) = false) (by decide)
  have whole : trim (numberSpace isSpace) (hexText 32 value) = hexText 32 value :=
    trim_eq_self ⟨fun c first => inside c (List.mem_of_mem_head? first), fun c last => inside c (List.mem_of_getLast? last)⟩
  have some' : hexText 32 value ≠ [] := List.ne_nil_of_length_eq_add_one (length_hexText 32 value)
  obtain ⟨digits, read, denotes⟩ := mapM_hexText 32 value
  rw [hexNumber, same, whole, unsigned_of_not_mem (absent (by decide)), unprefixed_of_not_mem (absent (by decide)) (absent (by decide)),
    hexDigits_of_not_mem some' (absent (by decide)), read, Option.map_some, denotes]

/-- A printed UUID is read and printed as it is. -/
theorem uuid_printed (value : Nat) :
    uuid decimal isSpace (String.ofList (printed value)) = some (String.ofList (printed value)) := by
  have absent {other : Char} (apart : ∀ d < 16, Nat.digitChar d ≠ other) (dash : '-' ≠ other) : other ∉ printed value := by
    intro m
    rcases mem_printed m with ⟨d, fits, rfl⟩ | rfl
    · exact apart d fits rfl
    · exact dash rfl
  have colon : ':' ∉ printed value := absent (by decide) (by decide)
  have plain : ∀ c ∈ printed value, isBrace c = false := by
    intro c m
    rcases mem_printed m with hex | rfl
    · exact hex.elim (P := fun c => isBrace c = false) (by decide)
    · decide
  have bare : bareText (printed value) = hexText 32 value := by
    rw [bareText, replaceAll_absent (fun part => colon (part.subset (by decide))),
      replaceAll_absent (fun part => colon (part.subset (by decide))), trim_eq_self, filter_printed]
    exact ⟨fun c first => plain c (List.mem_of_mem_head? first), fun c last => plain c (List.mem_of_getLast? last)⟩
  dsimp only [uuid]
  rw [String.toList_ofList, bare, if_pos (length_hexText 32 value), hexNumber_hexText ascii, Option.map_some, printed_mod]

end

/-! ## What is not read -/

theorem uuid_eq_some {decimal : Char → Option Nat} {isSpace : Char → Bool} {text read : String}
    (same : uuid decimal isSpace text = some read) : ∃ value, read = String.ofList (printed value) := by
  dsimp only [uuid] at same
  split at same
  · obtain ⟨value, -, rfl⟩ := Option.map_eq_some_iff.mp same
    exact ⟨value, rfl⟩
  · cases same

theorem mem_of_mapM {f : Char → Option Nat} {text : List Char} {digits : List Nat} (read : text.mapM f = some digits)
    {c : Char} (m : c ∈ text) : f c ≠ none := by
  intro unread
  obtain ⟨before, after, rfl⟩ := List.append_of_mem m
  rw [List.mapM_append, List.mapM_cons, unread] at read
  cases first : before.mapM f with
  | none => rw [first] at read; cases read
  | some values => rw [first] at read; cases read

theorem mem_unsigned {text : List Char} {c : Char} (m : c ∈ text) (plain : c ≠ '+') : c ∈ unsigned text := by
  unfold unsigned
  split
  · exact (List.mem_cons.mp m).resolve_left plain
  · exact m

theorem mem_unprefixed {text : List Char} {c : Char} (m : c ∈ text) (plain : c ∉ ['0', 'x', 'X', '_']) :
    c ∈ unprefixed text := by
  simp only [List.mem_cons, List.not_mem_nil, or_false, not_or] at plain
  unfold unprefixed
  split
  all_goals simpa only [List.mem_cons, plain, false_or] using m

/-- A UUID has no semicolon. -/
theorem uuid_semicolon {decimal : Char → Option Nat} {isSpace : Char → Bool} (digit : decimal ';' = none)
    {text : String} (m : ';' ∈ text.toList) : uuid decimal isSpace text = none := by
  have bare : ';' ∈ bareText text.toList := by
    have kept : ';' ∈ replaceAll "uuid:".toList [] (replaceAll "urn:".toList [] text.toList) :=
      mem_replaceAll_of_apart (by decide) (by decide) (mem_replaceAll_of_apart (by decide) (by decide) m)
    exact List.mem_filter.mpr ⟨mem_trim kept (by decide), by decide⟩
  have digits {cs : List Char} (m : ';' ∈ cs) : hexDigits cs = none := by
    unfold hexDigits
    split
    · rfl
    · rw [Option.eq_none_iff_forall_ne_some]
      intro digits read
      exact mem_of_mapM read (List.mem_filter.mpr ⟨m, by decide⟩) (by decide)
  have number : hexNumber decimal isSpace (bareText text.toList) = none := by
    have same : toAscii decimal ';' = ';' := by rw [toAscii, digit]; rfl
    have outside : numberSpace isSpace ';' = false := if_pos (by decide)
    have mapped : ';' ∈ (bareText text.toList).map (toAscii decimal) := List.mem_map.mpr ⟨';', bare, same⟩
    rw [hexNumber, digits (mem_unprefixed (mem_unsigned (mem_trim mapped outside) (by decide)) (by decide))]
    rfl
  dsimp only [uuid]
  rw [number, Option.map_none, ite_self]

end I3x.Uuid
