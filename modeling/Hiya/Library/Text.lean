import Mathlib.Data.List.DropRight
import Mathlib.Tactic.Common
import Mathlib.Algebra.Group.Int.Defs
import Mathlib.Algebra.Group.Nat.Defs
import Hiya.Library.Bytes

/-! Texts as C has them: bytes before a terminator, the calls of `string.h` and `ctype.h` in
the plain locale, and files that are read line by line into a buffer of fixed size. -/

namespace Hiya.Library

def literal (text : String) : Bytes := text.toByteArray.data.toList

/-- The string in a buffer ends at the first zero byte. -/
def cString (bytes : Bytes) : Bytes := bytes.takeWhile (· ≠ 0)

/-- The value of a `char`, which is signed here. -/
def charValue (byte : UInt8) : Int := byte.toInt8.toInt

def toLower (byte : UInt8) : UInt8 := if 65 ≤ byte ∧ byte ≤ 90 then byte + 32 else byte

/-- `strcasecmp` finds no difference. -/
def sameLetters (first second : Bytes) : Bool := first.map toLower = second.map toLower

/-- `strstr` finds the second in the first. -/
def containsText : Bytes → Bytes → Bool
  | [], part => part.isEmpty
  | byte :: rest, part => part.isPrefixOf (byte :: rest) || containsText rest part

def newline : UInt8 := 10

def carriageReturn : UInt8 := 13

def hashSign : UInt8 := 35
def semicolon : UInt8 := 59
def bracketOpen : UInt8 := 91
def bracketClose : UInt8 := 93
def equalSign : UInt8 := 61
def dot : UInt8 := 46

/-- What repeated calls of `fgets` return: a buffer is full after `limit` bytes, and a line
that is longer comes in several pieces. The first argument is what the buffer holds. -/
def fgetsAll (limit : Nat) : Bytes → Bytes → List Bytes
  | held, [] => if held = [] then [] else [held]
  | held, byte :: rest =>
    if byte = newline ∨ limit ≤ held.length + 1 then (held ++ [byte]) :: fgetsAll limit [] rest
    else fgetsAll limit (held ++ [byte]) rest

def beforeLineEnd (line : Bytes) : Bytes := line.takeWhile fun byte => byte ≠ carriageReturn ∧ byte ≠ newline

def isBlank (byte : UInt8) : Bool := byte = 32 ∨ byte = 9

def isLineEnd (byte : UInt8) : Bool := byte = newline ∨ byte = carriageReturn

def trimEnd (text : Bytes) : Bytes := text.rdropWhile isBlank

def trimmed (text : Bytes) : Bytes := trimEnd (text.dropWhile isBlank)

theorem fgetsAll_line {limit : Nat} {held line rest : Bytes} (whole : newline ∉ line)
    (short : held.length + line.length < limit) :
    fgetsAll limit held (line ++ newline :: rest) = (held ++ line ++ [newline]) :: fgetsAll limit [] rest := by
  induction line generalizing held with
  | nil =>
    rw [List.nil_append, fgetsAll, if_pos (.inl rfl), List.append_nil]
  | cons byte line ih =>
    rw [List.length_cons] at short
    have inner : ¬ (byte = newline ∨ limit ≤ held.length + 1) := by
      rintro (same | full)
      · exact whole (same ▸ List.mem_cons_self)
      · omega
    have fits : (held ++ [byte]).length + line.length < limit := by
      rw [List.length_append, List.length_singleton]
      omega
    rw [List.cons_append, fgetsAll, if_neg inner, ih (fun inside => whole (List.mem_cons_of_mem _ inside)) fits,
      List.append_assoc held, List.singleton_append]

/-- Short lines are read as they were written. -/
theorem fgetsAll_lines {limit : Nat} {lines : List Bytes} (whole : ∀ line ∈ lines, newline ∉ line)
    (short : ∀ line ∈ lines, line.length < limit) :
    fgetsAll limit [] (lines.flatMap (· ++ [newline])) = lines.map (· ++ [newline]) := by
  induction lines with
  | nil => rfl
  | cons line lines ih =>
    have rest := ih (fun line inside => whole line (List.mem_cons_of_mem _ inside))
      (fun line inside => short line (List.mem_cons_of_mem _ inside))
    have first := short line List.mem_cons_self
    rw [List.flatMap_cons, List.append_assoc, List.singleton_append, fgetsAll_line (whole line List.mem_cons_self)
      (by rwa [List.length_nil, Nat.zero_add]),
      rest]
    rfl

theorem length_trimmed_le (text : Bytes) : (trimmed text).length ≤ text.length :=
  Nat.le_trans (List.rdropWhile_prefix _ _).length_le (List.dropWhile_suffix _).length_le

/-- Cutting off blanks at the end changes nothing about what is left when blanks are cut off. -/
theorem trimEnd_take {text : Bytes} {limit : Nat} (short : (trimEnd text).length ≤ limit) :
    trimEnd (text.take limit) = trimEnd text := by
  have blanks (front tail : Bytes) (blank : ∀ byte ∈ tail, isBlank byte) : trimEnd (front ++ tail) = trimEnd front := by
    unfold trimEnd List.rdropWhile
    rw [List.reverse_append, List.dropWhile_append_of_pos fun byte inside => blank byte (List.mem_reverse.mp inside)]
  obtain ⟨tail, shape, blank⟩ : ∃ tail, text = trimEnd text ++ tail ∧ ∀ byte ∈ tail, isBlank byte := by
    refine ⟨(text.reverse.takeWhile isBlank).reverse, ?_,
      fun byte inside => List.mem_takeWhile_imp (List.mem_reverse.mp inside)⟩
    unfold trimEnd List.rdropWhile
    rw [← List.reverse_append, List.takeWhile_append_dropWhile, List.reverse_reverse]
  have cut : text.take limit = trimEnd text ++ tail.take (limit - (trimEnd text).length) := by
    conv_lhs => rw [shape]
    rw [List.take_append, List.take_of_length_le short]
  rw [cut, blanks _ _ fun byte inside => blank byte (List.mem_of_mem_take inside)]
  exact List.rdropWhile_idempotent ..

theorem trimmed_trimmed (text : Bytes) : trimmed (trimmed text) = trimmed text := by
  have start : (trimmed text).dropWhile isBlank = trimmed text := by
    rw [List.dropWhile_eq_self_iff]
    intro some
    have first := (List.rdropWhile_prefix isBlank (text.dropWhile isBlank)).getElem some
    intro blank
    have inner : 0 < (text.dropWhile isBlank).length := Nat.lt_of_lt_of_le some (List.rdropWhile_prefix _ _).length_le
    apply List.dropWhile_get_zero_not isBlank text inner
    rw [List.get_eq_getElem, ← first]
    exact blank
  unfold trimmed at start ⊢
  rw [start]
  exact List.rdropWhile_idempotent ..

theorem rdropWhile_append {p : UInt8 → Bool} {front back : Bytes} (one : front.rdropWhile p = front)
    (two : back.rdropWhile p = back) :
    (front ++ back).rdropWhile p = front ++ back := by
  rw [List.rdropWhile_eq_self_iff] at one two ⊢
  intro some
  by_cases none : back = []
  · simp only [none, List.append_nil] at some ⊢
    exact one some
  · rw [List.getLast_append_of_ne_nil some none]
    exact two none

theorem cString_eq {bytes : Bytes} (clean : 0 ∉ bytes) : cString bytes = bytes := by
  apply List.takeWhile_eq_self_iff.mpr
  intro byte inside
  exact decide_eq_true fun zero => clean (zero ▸ inside)

/-- What is left of a line when its end has been cut off. -/
theorem strip_line {text : Bytes} (clean : 0 ∉ text) : (cString (text ++ [newline])).rdropWhile isLineEnd =
    text.rdropWhile isLineEnd := by
  have zero : 0 ∉ text ++ [newline] := by
    intro inside
    obtain old | new := List.mem_append.mp inside
    · exact clean old
    · cases List.mem_singleton.mp new
  rw [cString_eq zero]
  exact List.rdropWhile_concat_pos _ _ _ rfl

def isWhite (byte : UInt8) : Bool := byte = 32 ∨ (9 ≤ byte ∧ byte ≤ 13)

/-- The value of a digit; letters of either case go on after nine. -/
def digitOf (byte : UInt8) : Option Nat :=
  if 48 ≤ byte ∧ byte ≤ 57 then some (byte.toNat - 48)
  else if 97 ≤ byte ∧ byte ≤ 122 then some (byte.toNat - 87)
  else if 65 ≤ byte ∧ byte ≤ 90 then some (byte.toNat - 55)
  else none

def isDigitOf (base : Nat) (byte : UInt8) : Bool := (digitOf byte).any fun digit => digit < base

def numeral (base : Nat) (digits : Bytes) : Nat := digits.foldl (fun value byte => value * base + (digitOf byte).getD 0) 0

/-- The base a text without its sign is written in, and where its digits start. A prefix
counts only with a digit after it. -/
def ownBase (text : Bytes) : Nat × Bytes :=
  match text with
  | 48 :: mark :: digit :: rest => if (mark = 120 ∨ mark = 88) ∧ isDigitOf 16 digit then (16, digit :: rest) else (8, text)
  | 48 :: _ => (8, text)
  | _ => (10, text)

structure Scanned where
  negative : Bool
  size : Nat
  rest : Bytes

/-- A number at the start of a text, after white space and a sign. -/
def scanNumber (start : Bytes → Nat × Bytes) (text : Bytes) : Option Scanned :=
  let text := text.dropWhile isWhite
  let (negative, text) := match text with
    | 43 :: rest => (false, rest)
    | 45 :: rest => (true, rest)
    | _ => (false, text)
  let (base, text) := start text
  let digits := text.takeWhile (isDigitOf base)
  if digits = [] then none else some ⟨negative, numeral base digits, text.drop digits.length⟩

/-- The outcome of a conversion: the value, whether it was out of range, and the text at which
the conversion stopped. -/
structure Converted where
  value : Int
  outOfRange : Bool
  rest : Bytes

/-- `strtol` in base 10; a `long` has 64 bits. Without a number the text is left as it is. -/
def strtol (text : Bytes) : Converted :=
  match scanNumber (fun text => (10, text)) text with
  | none => ⟨0, false, text⟩
  | some ⟨negative, size, rest⟩ =>
    let value : Int := if negative then -size else size
    if value < -2 ^ 63 then ⟨-2 ^ 63, true, rest⟩
    else if 2 ^ 63 ≤ value then ⟨2 ^ 63 - 1, true, rest⟩
    else ⟨value, false, rest⟩

/-- `strtoul` in the base the text itself tells. A sign is taken, and the value negated in the
unsigned type. -/
def strtoul (text : Bytes) : Converted :=
  match scanNumber ownBase text with
  | none => ⟨0, false, text⟩
  | some ⟨negative, size, rest⟩ =>
    if 2 ^ 64 ≤ size then ⟨2 ^ 64 - 1, true, rest⟩
    else ⟨if negative then (-size) % 2 ^ 64 else size, false, rest⟩

/-- `strtoull` in base 10, with signs as above. -/
def strtoull (text : Bytes) : Converted :=
  match scanNumber (fun text => (10, text)) text with
  | none => ⟨0, false, text⟩
  | some ⟨negative, size, rest⟩ =>
    if 2 ^ 64 ≤ size then ⟨2 ^ 64 - 1, true, rest⟩
    else ⟨if negative then (-size) % 2 ^ 64 else size, false, rest⟩

section
/-- The lines of a file, each with the newline it ends with. The first argument is what the line
has so far. -/
def linesOf : Bytes → Bytes → List Bytes
  | held, [] => if held = [] then [] else [held]
  | held, byte :: rest => if byte = newline then (held ++ [byte]) :: linesOf [] rest else linesOf (held ++ [byte]) rest

/-- A line with its newline, or a last line without one. -/
structure Line (line : Bytes) : Prop where
  some : line ≠ []
  once : newline ∉ line.dropLast

variable {held line rest file : Bytes}

theorem linesOf_line (whole : newline ∉ line) : linesOf held (line ++ newline :: rest) =
    (held ++ line ++ [newline]) :: linesOf [] rest := by
  induction line generalizing held with
  | nil => rw [List.nil_append, linesOf, if_pos rfl, List.append_nil]
  | cons byte line ih =>
    have other : byte ≠ newline := fun same => whole (same ▸ List.mem_cons_self)
    rw [List.cons_append, linesOf, if_neg other, ih fun inside => whole (List.mem_cons_of_mem _ inside),
      List.append_assoc held,
      List.singleton_append]

theorem linesOf_last (whole : newline ∉ line) : linesOf held line = if held ++ line = [] then [] else [held ++ line] := by
  induction line generalizing held with
  | nil => rw [linesOf, List.append_nil]
  | cons byte line ih =>
    have other : byte ≠ newline := fun same => whole (same ▸ List.mem_cons_self)
    rw [linesOf, if_neg other, ih fun inside => whole (List.mem_cons_of_mem _ inside), List.append_assoc,
      List.singleton_append]

/-- A file is empty, or a last line, or starts with a line that has its newline. -/
theorem file_cases (file : Bytes) : newline ∉ file ∨ ∃ line rest, file = line ++ newline :: rest ∧ newline ∉ line := by
  by_cases inside : newline ∈ file
  · obtain ⟨line, rest, shape, whole⟩ := List.eq_append_cons_of_mem inside
    exact .inr ⟨line, rest, shape, whole⟩
  · exact .inl inside

theorem line_of_mem (inside : line ∈ linesOf [] file) : Line line := by
  induction size : file.length using Nat.strongRecOn generalizing file with
  | ind size ih =>
    obtain whole | ⟨first, rest, rfl, whole⟩ := file_cases file
    · rw [linesOf_last whole, List.nil_append] at inside
      split at inside
      · cases inside
      · rename_i some
        cases List.mem_singleton.mp inside
        exact ⟨some, fun within => whole (List.dropLast_subset _ within)⟩
    · rw [linesOf_line whole, List.nil_append] at inside
      obtain rfl | later := List.mem_cons.mp inside
      · refine ⟨List.append_ne_nil_of_right_ne_nil _ (List.cons_ne_nil _ _), ?_⟩
        rwa [List.dropLast_concat]
      · refine ih rest.length ?_ later rfl
        rw [← size, List.length_append, List.length_cons]
        omega

/-- The pieces of a line do not depend on what comes behind its newline. -/
theorem fgetsAll_append (limit : Nat) (line rest : Bytes) :
    ∀ held, fgetsAll limit held (line ++ newline :: rest) = fgetsAll limit held (line ++ [newline]) ++
    fgetsAll limit [] rest := by
  induction line with
  | nil =>
    intro held
    rw [List.nil_append, List.nil_append, fgetsAll, fgetsAll, if_pos (.inl rfl), if_pos (.inl rfl), fgetsAll, if_pos rfl]
    rfl
  | cons byte line ih =>
    intro held
    rw [List.cons_append, List.cons_append, fgetsAll, fgetsAll]
    split
    · rw [ih, List.cons_append]
    · exact ih _

/-- The pieces of a file are the pieces of its lines. -/
theorem fgetsAll_eq_flatMap (limit : Nat) (file : Bytes) :
    fgetsAll limit [] file = (linesOf [] file).flatMap (fgetsAll limit []) := by
  induction size : file.length using Nat.strongRecOn generalizing file with
  | ind count ih =>
    obtain whole | ⟨line, rest, rfl, whole⟩ := file_cases file
    · rw [linesOf_last whole, List.nil_append]
      split
      · rename_i none
        rw [none]
        rfl
      · rw [List.flatMap_singleton]
    · have fewer : rest.length < count := by
        rw [← size, List.length_append, List.length_cons]
        omega
      rw [linesOf_line whole, List.flatMap_cons, List.nil_append, ← ih rest.length fewer rest rfl, fgetsAll_append]

/-- A text without a newline that fits is one piece. -/
theorem fgetsAll_last {limit : Nat} (whole : newline ∉ line) (some : held ++ line ≠ [])
    (fits : held.length + line.length ≤ limit) :
    fgetsAll limit held line = [held ++ line] := by
  induction line generalizing held with
  | nil =>
    rw [List.append_nil] at some ⊢
    rw [fgetsAll, if_neg some]
  | cons byte line ih =>
    have other : byte ≠ newline := fun same => whole (same ▸ List.mem_cons_self)
    rw [List.length_cons] at fits
    rw [fgetsAll]
    split
    next full =>
      obtain same | full := full
      · exact absurd same other
      · obtain rfl : line = [] := List.length_eq_zero_iff.mp (by omega)
        rfl
    next =>
      have enough : (held ++ [byte]).length + line.length ≤ limit := by
        rw [List.length_append, List.length_singleton]
        omega
      rw [ih (fun inside => whole (List.mem_cons_of_mem _ inside)) (by simp) enough, List.append_assoc, List.singleton_append]

theorem fgetsAll_of_fits {limit : Nat} (shape : Line line) (fits : line.length ≤ limit) :
    fgetsAll limit [] line = [line] := by
  obtain whole | ⟨front, rest, rfl, whole⟩ := file_cases line
  · exact fgetsAll_last whole shape.some (by rwa [List.length_nil, Nat.zero_add])
  · obtain rfl : rest = [] := by
      by_contra more
      apply shape.once
      rw [List.dropLast_append_of_ne_nil (List.cons_ne_nil _ _), List.dropLast_cons_of_ne_nil more]
      exact List.mem_append_right _ List.mem_cons_self
    rw [List.length_append, List.length_singleton] at fits
    rw [fgetsAll_line whole (by rw [List.length_nil]; omega)]
    rfl

end

end Hiya.Library
