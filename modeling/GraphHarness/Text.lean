import GraphHarness.Collections
import Mathlib.Data.List.DropRight
import Mathlib.Data.List.Infix
import Mathlib.Data.List.TakeWhile

/-!
# Functions on text

What `str` offers and the executors use on the output of a command. The work is done
on lists of characters; a number of bytes counts the UTF-8 encoding.

`split_once`, `split`, `lines`, `trim` and `split_whitespace` are those of `str`, over
characters, with white space as Unicode has it. `parseU16` accepts a leading plus sign, as
Rust does. `bytePrefix` is slicing at a number of bytes, and has no value inside a character
or behind the end, where the source panics.
-/

namespace GraphHarness

/-- White space at both ends is dropped. -/
def trimChars (chars : List Char) : List Char :=
  (chars.dropWhile isWhitespace).rdropWhile isWhitespace

/-- `str::trim`. -/
def trim (s : String) : String := String.ofList (trimChars s.toList)

/-- `s.trim().is_empty()`. -/
def isBlank (s : String) : Bool := (trimChars s.toList).isEmpty

/-- `str::split_once`: what is before and after the first occurrence. -/
def splitOnce (pattern : List Char) : List Char → Option (List Char × List Char)
  | [] => if pattern.isEmpty then some ([], []) else none
  | c :: chars =>
    if pattern.isPrefixOf (c :: chars) then some ([], (c :: chars).drop pattern.length)
    else (splitOnce pattern chars).map fun parts => (c :: parts.1, parts.2)

/-- `str::split` at a character. -/
def splitOn (separator : Char) : List Char → List (List Char)
  | [] => [[]]
  | c :: chars =>
    if c = separator then [] :: splitOn separator chars
    else
      match splitOn separator chars with
      | part :: parts => (c :: part) :: parts
      | [] => [[c]]

/-- A line without the carriage return at its end. -/
def stripReturn (line : List Char) : List Char :=
  if line.getLast? = some '\r' then line.dropLast else line

/-- `str::lines`: a line ends with a line break and the carriage return before it; an
empty line after the last line break does not count. -/
def lines (chars : List Char) : List (List Char) :=
  let parts := splitOn '\n' chars
  parts.dropLast.map stripReturn ++ parts.getLast?.toList.filter fun line => !line.isEmpty

/-- The value of decimal digits, if there are only such. -/
def digitsValue (chars : List Char) : Option Nat :=
  chars.foldl (fun value c =>
    match value with
    | some n => if '0' ≤ c ∧ c ≤ '9' then some (10 * n + (c.toNat - '0'.toNat)) else none
    | none => none) (some 0)

/-- `str::parse::<u16>`: a plus sign may stand in front. -/
def parseU16 (chars : List Char) : Option UInt16 :=
  let digits := if chars.head? = some '+' then chars.tail else chars
  if digits.isEmpty then none
  else
    match digitsValue digits with
    | some n => if n < UInt16.size then some (UInt16.ofNat n) else none
    | none => none

/-- `&s[..n]`: the characters of the first `n` bytes. The slice panics when there are
fewer, or when the `n`th byte is inside a character. -/
def bytePrefix : Nat → List Char → Option (List Char)
  | 0, _ => some []
  | _ + 1, [] => none
  | n + 1, c :: chars =>
    if c.utf8Size ≤ n + 1 then (bytePrefix (n + 1 - c.utf8Size) chars).map (c :: ·) else none

/-- `str::contains`. -/
def contains (text pattern : String) : Bool := decide (pattern.toList <:+: text.toList)

/-- `str::split_whitespace`: the pieces between white space that are not empty. -/
def splitWhitespace (text : String) : List String :=
  ((text.toList.splitOnP isWhitespace).filter fun word => !word.isEmpty).map String.ofList

theorem isBlank_iff (s : String) : isBlank s = true ↔ ∀ c ∈ s.toList, isWhitespace c = true := by
  unfold isBlank trimChars
  rw [List.isEmpty_iff, List.rdropWhile_eq_nil_iff]
  constructor
  · intro h
    rw [← List.dropWhile_eq_nil_iff]
    by_contra hne
    -- what is left starts with a character that is no white space
    have hhead := List.head_dropWhile_not isWhitespace hne
    rw [h _ (List.head_mem hne)] at hhead
    exact Bool.noConfusion hhead
  · intro h c hc
    exact h c ((List.dropWhile_suffix _).subset hc)

/-! ## Trimming -/

/-- The characters that are no white space. -/
def visible (chars : List Char) : List Char := chars.filter fun c => !isWhitespace c

theorem visible_append (chars chars' : List Char) :
    visible (chars ++ chars') = visible chars ++ visible chars' := List.filter_append _ _

theorem visible_eq_nil_iff {chars : List Char} :
    visible chars = [] ↔ ∀ c ∈ chars, isWhitespace c = true := by
  simp [visible, List.filter_eq_nil_iff]

theorem visible_dropWhile (chars : List Char) :
    visible (chars.dropWhile isWhitespace) = visible chars := by
  have hblank : visible (chars.takeWhile isWhitespace) = [] :=
    visible_eq_nil_iff.mpr fun c hc => List.mem_takeWhile_imp hc
  calc visible (chars.dropWhile isWhitespace)
      = visible (chars.takeWhile isWhitespace) ++ visible (chars.dropWhile isWhitespace) := by
        rw [hblank, List.nil_append]
    _ = visible chars := by
        rw [← visible_append, List.takeWhile_append_dropWhile]

theorem visible_trimChars (chars : List Char) : visible (trimChars chars) = visible chars := by
  have hreverse : ∀ text : List Char, visible text.reverse = (visible text).reverse :=
    fun text => List.filter_reverse
  rw [trimChars, List.rdropWhile, hreverse, visible_dropWhile, hreverse, List.reverse_reverse,
    visible_dropWhile]

/-- A word is trimmed out of what is around it exactly if that is white space. -/
theorem trimChars_eq_iff {before word after : List Char} (hword : word ≠ [])
    (hvisible : ∀ c ∈ word, isWhitespace c = false) :
    trimChars (before ++ word ++ after) = word ↔
      (∀ c ∈ before, isWhitespace c = true) ∧ ∀ c ∈ after, isWhitespace c = true := by
  constructor
  · intro h
    have hcount := congrArg List.length (congrArg visible h)
    rw [visible_trimChars, visible_append, visible_append, List.length_append,
      List.length_append] at hcount
    rw [← visible_eq_nil_iff, ← visible_eq_nil_iff, ← List.length_eq_zero_iff,
      ← List.length_eq_zero_iff]
    omega
  · rintro ⟨hbefore, hafter⟩
    obtain ⟨first, rest, rfl⟩ := List.exists_cons_of_ne_nil hword
    have hfirst : isWhitespace first = false := hvisible first List.mem_cons_self
    have hleft : (before ++ (first :: rest) ++ after).dropWhile isWhitespace =
        first :: rest ++ after := by
      rw [List.append_assoc, List.dropWhile_append_of_pos hbefore, List.cons_append,
        List.dropWhile_cons_of_neg (by rw [hfirst]; exact Bool.false_ne_true)]
    have hright : (first :: rest ++ after).reverse.dropWhile isWhitespace =
        (first :: rest).reverse := by
      rw [List.reverse_append, List.dropWhile_append_of_pos (by simpa using hafter),
        List.dropWhile_eq_self_iff]
      intro hlength
      rw [hvisible _ (List.mem_reverse.mp (List.getElem_mem hlength))]
      exact Bool.false_ne_true
    rw [trimChars, hleft, List.rdropWhile, hright, List.reverse_reverse]

end GraphHarness
