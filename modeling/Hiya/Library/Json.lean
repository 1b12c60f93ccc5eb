import Mathlib.Data.List.Infix
import Mathlib.Tactic.Common
import Hiya.Library.Text

/-! JSON texts as a sequence of tokens with white space between them. A value fixes its tokens,
so a text is a document of a value where it can be cut into the tokens of that value. -/

namespace Hiya.Library.Json

/-- A number keeps the letters it is written with, a string has the bytes of its characters. -/
inductive Token
  | punct (byte : UInt8)
  | word (letters : Bytes)
  | number (letters : Bytes)
  | text (bytes : Bytes)

inductive Value
  | word (letters : Bytes)
  | number (letters : Bytes)
  | text (bytes : Bytes)
  | array (items : List Value)
  | object (members : List (Bytes × Value))

def braceOpen : UInt8 := 123
def braceClose : UInt8 := 125
def comma : UInt8 := 44
def colon : UInt8 := 58
def quote : UInt8 := 34
def backslash : UInt8 := 92

/-- Lists of tokens with a comma between two of them. -/
def separated : List (List Token) → List Token
  | [] => []
  | [last] => last
  | first :: rest => first ++ .punct comma :: separated rest

mutual

def Value.tokens : Value → List Token
  | .word letters => [.word letters]
  | .number letters => [.number letters]
  | .text bytes => [.text bytes]
  | .array items => .punct bracketOpen :: separated (itemTokens items) ++ [.punct bracketClose]
  | .object members => .punct braceOpen :: separated (memberTokens members) ++ [.punct braceClose]

def itemTokens : List Value → List (List Token)
  | [] => []
  | item :: rest => item.tokens :: itemTokens rest

def memberTokens : List (Bytes × Value) → List (List Token)
  | [] => []
  | (key, value) :: rest => (.text key :: .punct colon :: value.tokens) :: memberTokens rest

end

def IsSpace (byte : UInt8) : Prop := byte = 32 ∨ byte = 9 ∨ byte = 10 ∨ byte = 13

def IsPunct (byte : UInt8) : Prop := byte ∈ [braceOpen, braceClose, bracketOpen, bracketClose, comma, colon]

def IsWord (letters : Bytes) : Prop := letters ∈ [literal "true", literal "false", literal "null"]

def IsDigit (byte : UInt8) : Prop := 48 ≤ byte ∧ byte ≤ 57

def Digits (letters : Bytes) : Prop := letters ≠ [] ∧ ∀ byte ∈ letters, IsDigit byte

/-- No digit stands behind a zero that leads. -/
def Whole (letters : Bytes) : Prop := Digits letters ∧ (letters.head? = some 48 → letters.length = 1)

/-- A minus sign, the whole part, a fraction and an exponent, of which only the second has to be there. -/
structure IsNumber (letters : Bytes) : Prop where
  parts : ∃ sign whole fraction exponent, letters = sign ++ whole ++ fraction ++ exponent ∧ sign ∈ [[], [45]] ∧ Whole whole ∧
    (fraction = [] ∨ ∃ digits, Digits digits ∧ fraction = dot :: digits) ∧
    (exponent = [] ∨ ∃ mark sign digits, (mark = 69 ∨ mark = 101) ∧ sign ∈ [[], [43], [45]] ∧ Digits digits ∧
      exponent = mark :: sign ++ digits)

/-- A character that stands for itself in a string. -/
def PlainChar (char : Char) : Prop := 32 ≤ char.val ∧ char ≠ '"' ∧ char ≠ '\\'

/-- Characters that need no escape, one after the other. -/
inductive Plain : Bytes → Prop
  | nil : Plain []
  | char (char : Char) (plain : PlainChar char) (more : Plain rest) : Plain (String.utf8EncodeChar char ++ rest)

/-- The letter behind a backslash, and what the two stand for. -/
def escapes : List (UInt8 × UInt8) := [(34, 34), (92, 92), (47, 47), (98, 8), (102, 12), (110, 10), (114, 13), (116, 9)]

def hexValue (byte : UInt8) : Option Nat :=
  if 48 ≤ byte ∧ byte ≤ 57 then some (byte.toNat - 48)
  else if 65 ≤ byte ∧ byte ≤ 70 then some (byte.toNat - 55)
  else if 97 ≤ byte ∧ byte ≤ 102 then some (byte.toNat - 87)
  else none

/-- Four hexadecimal digits spell a number. -/
def Spells (letters : Bytes) (unit : Nat) : Prop :=
  letters.length = 4 ∧ ∃ values, List.Forall₂ (fun byte value => hexValue byte = some value) letters values ∧
    values.foldl (fun whole digit => whole * 16 + digit) 0 = unit

/-- What stands between the quotes of a string, and the bytes of its characters. -/
inductive Body : Bytes → Bytes → Prop
  | nil : Body [] []
  | char (char : Char) (plain : PlainChar char) (more : Body raw bytes) :
      Body (String.utf8EncodeChar char ++ raw) (String.utf8EncodeChar char ++ bytes)
  | escape (pair : UInt8 × UInt8) (known : pair ∈ escapes) (more : Body raw bytes) : Body (backslash :: pair.1 :: raw)
    (pair.2 :: bytes)
  | unit (letters : Bytes) (char : Char) (spelled : Spells letters char.val.toNat) (more : Body raw bytes) :
      Body (backslash :: 117 :: (letters ++ raw)) (String.utf8EncodeChar char ++ bytes)
  /-- A character beyond the first plane is a pair of surrogates. -/
  | surrogates (high low : Bytes) (char : Char) (first second : Nat) (leads : Spells high (0xD800 + first))
    (follows : Spells low (0xDC00 + second))
      (small : first < 1024 ∧ second < 1024) (joined : char.val.toNat = 0x10000 + first * 1024 + second)
      (more : Body raw bytes) :
      Body (backslash :: 117 :: (high ++ backslash :: 117 :: (low ++ raw))) (String.utf8EncodeChar char ++ bytes)

inductive Lexes : Bytes → List Token → Prop
  | nil : Lexes [] []
  | space (white : IsSpace byte) (more : Lexes rest tokens) : Lexes (byte :: rest) tokens
  | punct (mark : IsPunct byte) (more : Lexes rest tokens) : Lexes (byte :: rest) (.punct byte :: tokens)
  | word (known : IsWord letters) (more : Lexes rest tokens) : Lexes (letters ++ rest) (.word letters :: tokens)
  | number (valid : IsNumber letters) (more : Lexes rest tokens) : Lexes (letters ++ rest) (.number letters :: tokens)
  | text (body : Body raw bytes) (more : Lexes rest tokens) : Lexes (quote :: (raw ++ quote :: rest)) (.text bytes :: tokens)

/-- The text is a document that holds this value. -/
def Document (text : Bytes) (value : Value) : Prop := Lexes text value.tokens

/-- A character has one byte, its number, or all its bytes are outside of ASCII. -/
theorem utf8_bytes (char : Char) : (char.val.toNat ≤ 127 ∧ String.utf8EncodeChar char = [UInt8.ofNat char.val.toNat]) ∨
    (127 < char.val.toNat ∧ 2 ≤ (String.utf8EncodeChar char).length ∧ ∀ byte ∈ String.utf8EncodeChar char, 128 ≤ byte) := by
  have high : ∀ value : Nat, 128 ≤ value → value < 256 → (128 : UInt8) ≤ UInt8.ofNat value := by
    intro value low small
    rw [UInt8.le_iff_toNat_le, UInt8.toNat_ofNat_of_lt' (by simpa using small)]
    exact low
  unfold String.utf8EncodeChar
  dsimp only
  by_cases ascii : char.val.toNat ≤ 127
  · exact Or.inl ⟨ascii, if_pos ascii⟩
  · refine Or.inr ⟨by omega, ?_⟩
    rw [if_neg ascii]
    split
    · simp only [List.forall_mem_cons, List.length_cons]
      exact ⟨by omega, high _ (by omega) (by omega), high _ (by omega) (by omega), fun _ none => by cases none⟩
    · split
      · simp only [List.forall_mem_cons, List.length_cons]
        exact ⟨by omega, high _ (by omega) (by omega), high _ (by omega) (by omega), high _ (by omega) (by omega),
          fun _ none => by cases none⟩
      · simp only [List.forall_mem_cons, List.length_cons]
        exact ⟨by omega, high _ (by omega) (by omega), high _ (by omega) (by omega), high _ (by omega) (by omega),
          high _ (by omega) (by omega), fun _ none => by cases none⟩

theorem utf8_ne_nil (char : Char) : String.utf8EncodeChar char ≠ [] := by
  obtain ⟨_, ascii⟩ | ⟨_, long, _⟩ := utf8_bytes char
  · rw [ascii]
    exact List.cons_ne_nil _ _
  · exact fun none => by simp [none] at long

theorem utf8_length_le (char : Char) : (String.utf8EncodeChar char).length ≤ 4 := by
  rw [String.length_utf8EncodeChar]
  exact Char.utf8Size_le_four char

/-- Nothing below the space is part of a plain character, nor is a quote. -/
theorem PlainChar.bytes {char : Char} (plain : PlainChar char) : ∀ byte ∈ String.utf8EncodeChar char, 32 ≤ byte ∧
    byte ≠ quote := by
  intro byte member
  obtain ⟨small, ascii⟩ | ⟨_, _, high⟩ := utf8_bytes char
  · rw [ascii, List.mem_singleton] at member
    have room : char.val.toNat < 256 := by omega
    have value : byte.toNat = char.val.toNat := by rw [member, UInt8.toNat_ofNat_of_lt' (by simpa using room)]
    constructor
    · rw [UInt8.le_iff_toNat_le, value]
      exact plain.1
    · intro is
      refine plain.2.1 (Char.ext (UInt32.toNat_inj.mp ?_))
      rw [← value, is]
      rfl
  · have high := high byte member
    exact ⟨UInt8.le_trans (by decide) high, fun is => absurd (is ▸ high) (by decide)⟩

theorem escapes_printable : ∀ pair ∈ escapes, 32 ≤ pair.1 := by
  have all : escapes.all (fun pair => decide (32 ≤ pair.1)) = true := rfl
  exact fun pair known => of_decide_eq_true (List.all_eq_true.mp all pair known)

theorem hexValue_printable {byte : UInt8} {value : Nat} (digit : hexValue byte = some value) : 32 ≤ byte := by
  unfold hexValue at digit
  split at digit
  · exact UInt8.le_trans (by decide) (‹48 ≤ byte ∧ byte ≤ 57›).1
  · split at digit
    · exact UInt8.le_trans (by decide) (‹65 ≤ byte ∧ byte ≤ 70›).1
    · split at digit
      · exact UInt8.le_trans (by decide) (‹97 ≤ byte ∧ byte ≤ 102›).1
      · cases digit

theorem Spells.printable {letters : Bytes} {unit : Nat} (spelled : Spells letters unit) : ∀ byte ∈ letters, 32 ≤ byte := by
  obtain ⟨four, values, all, joined⟩ := spelled
  clear four joined
  induction all with
  | nil => exact fun _ none => by cases none
  | cons digit _ more => exact List.forall_mem_cons.mpr ⟨hexValue_printable digit, more⟩

theorem Body.printable {raw bytes : Bytes} (body : Body raw bytes) : ∀ byte ∈ raw, 32 ≤ byte := by
  induction body with
  | nil => exact fun _ none => by cases none
  | char char plain _ more =>
    intro byte member
    obtain here | there := List.mem_append.mp member
    · exact (plain.bytes byte here).1
    · exact more byte there
  | escape pair known _ more =>
    exact List.forall_mem_cons.mpr ⟨by decide, List.forall_mem_cons.mpr ⟨escapes_printable pair known, more⟩⟩
  | unit letters _ spelled _ more =>
    exact List.forall_mem_cons.mpr ⟨by decide,
      List.forall_mem_cons.mpr ⟨by decide, List.forall_mem_append.mpr ⟨spelled.printable, more⟩⟩⟩
  | surrogates high low _ _ _ leads follows _ _ _ more =>
    refine List.forall_mem_cons.mpr ⟨by decide,
      List.forall_mem_cons.mpr ⟨by decide, List.forall_mem_append.mpr ⟨leads.printable, ?_⟩⟩⟩
    exact List.forall_mem_cons.mpr ⟨by decide,
      List.forall_mem_cons.mpr ⟨by decide, List.forall_mem_append.mpr ⟨follows.printable, more⟩⟩⟩

/-- An escape is longer than what it stands for. -/
theorem Body.length {raw bytes : Bytes} (body : Body raw bytes) : (raw = bytes ∧ Plain raw) ∨ bytes.length < raw.length := by
  induction body with
  | nil => exact Or.inl ⟨rfl, .nil⟩
  | char char plain _ more =>
    obtain ⟨same, rest⟩ | shorter := more
    · exact Or.inl ⟨by rw [same], .char char plain rest⟩
    · exact Or.inr (by simpa only [List.length_append, Nat.add_lt_add_iff_left] using shorter)
  | escape pair _ _ more =>
    refine Or.inr ?_
    obtain ⟨same, _⟩ | shorter := more
    · simp [same]
    · simp only [List.length_cons]
      omega
  | unit letters char spelled _ more =>
    refine Or.inr ?_
    have few := utf8_length_le char
    have four := spelled.1
    simp only [List.length_cons, List.length_append]
    obtain ⟨same, _⟩ | shorter := more
    · rw [same]
      omega
    · omega
  | surrogates high low char _ _ leads follows _ _ _ more =>
    refine Or.inr ?_
    have few := utf8_length_le char
    have four := leads.1
    have again := follows.1
    simp only [List.length_cons, List.length_append]
    obtain ⟨same, _⟩ | shorter := more
    · rw [same]
      omega
    · omega

/-- No string goes on over a quote that stands behind plain letters. -/
theorem Body.stops {key rest bytes : Bytes} (plain : ∀ byte ∈ key, byte ≤ 127 ∧ byte ≠ backslash) :
    ¬ Body (key ++ quote :: rest) bytes := by
  intro body
  induction key generalizing bytes with
  | nil =>
    generalize whole : [] ++ quote :: rest = raw at body
    cases body with
    | nil => cases whole
    | char char plain _ =>
      obtain ⟨byte, more, letters⟩ := List.exists_cons_of_ne_nil (utf8_ne_nil char)
      rw [letters, List.cons_append, List.nil_append, List.cons.injEq] at whole
      exact (plain.bytes byte (letters ▸ List.mem_cons_self)).2 whole.1.symm
    | escape => cases whole
    | unit => cases whole
    | surrogates => cases whole
  | cons first key ih =>
    obtain ⟨here, more⟩ := List.forall_mem_cons.mp plain
    generalize whole : first :: key ++ quote :: rest = raw at body
    cases body with
    | nil => cases whole
    | char char _ rest =>
      obtain ⟨_, ascii⟩ | ⟨_, _, high⟩ := utf8_bytes char
      · rw [ascii, List.singleton_append, List.cons_append, List.cons.injEq] at whole
        exact ih more (whole.2 ▸ rest)
      · obtain ⟨byte, tail, letters⟩ := List.exists_cons_of_ne_nil (utf8_ne_nil char)
        rw [letters, List.cons_append, List.cons_append, List.cons.injEq] at whole
        have outside := high byte (letters ▸ List.mem_cons_self)
        rw [← whole.1] at outside
        exact absurd (UInt8.le_trans outside here.1) (by decide)
    | escape => exact here.2 (List.cons.inj whole).1
    | unit => exact here.2 (List.cons.inj whole).1
    | surrogates => exact here.2 (List.cons.inj whole).1

theorem Body.of_plain {bytes : Bytes} (plain : Plain bytes) : Body bytes bytes := by
  induction plain with
  | nil => exact .nil
  | char char plain _ more => exact .char char plain more

theorem Plain.not_quote {bytes : Bytes} (plain : Plain bytes) : quote ∉ bytes := by
  induction plain with
  | nil => exact List.not_mem_nil
  | char char plain _ more => exact List.not_mem_append (fun member => (plain.bytes quote member).2 rfl) more

theorem IsNumber.head {letters : Bytes} (valid : IsNumber letters) : ∃ byte rest, letters = byte :: rest ∧
    (byte = 45 ∨ IsDigit byte) := by
  obtain ⟨sign, whole, fraction, exponent, rfl, signed, ⟨⟨some, digits⟩, _⟩, _⟩ := valid.parts
  obtain ⟨first, more, rfl⟩ := List.exists_cons_of_ne_nil some
  simp only [List.mem_cons, List.not_mem_nil, or_false] at signed
  obtain rfl | rfl := signed
  · exact ⟨first, more ++ fraction ++ exponent, by simp, Or.inr (digits first List.mem_cons_self)⟩
  · exact ⟨45, first :: more ++ fraction ++ exponent, by simp, Or.inl rfl⟩

theorem IsWord.head {letters : Bytes} (known : IsWord letters) : ∃ byte rest, letters = byte :: rest ∧ ¬ IsSpace byte := by
  simp only [IsWord, List.mem_cons, List.not_mem_nil, or_false] at known
  obtain rfl | rfl | rfl := known
  · exact ⟨116, [114, 117, 101], rfl, by unfold IsSpace; decide⟩
  · exact ⟨102, [97, 108, 115, 101], rfl, by unfold IsSpace; decide⟩
  · exact ⟨110, [117, 108, 108], rfl, by unfold IsSpace; decide⟩

theorem IsPunct.not_space {byte : UInt8} (mark : IsPunct byte) : ¬ IsSpace byte := by
  simp only [IsPunct, List.mem_cons, List.not_mem_nil, or_false] at mark
  obtain rfl | rfl | rfl | rfl | rfl | rfl := mark <;> (unfold IsSpace; decide)

theorem IsNumber.not_space {byte : UInt8} (first : byte = 45 ∨ IsDigit byte) : ¬ IsSpace byte := by
  intro white
  obtain rfl | rfl | rfl | rfl := white
  · exact absurd first (by unfold IsDigit; decide)
  · exact absurd first (by unfold IsDigit; decide)
  · exact absurd first (by unfold IsDigit; decide)
  · exact absurd first (by unfold IsDigit; decide)

theorem Lexes.of_nil {tokens : List Token} (lexes : Lexes [] tokens) : tokens = [] := by
  generalize none : [] = text at lexes
  cases lexes with
  | nil => rfl
  | space => cases none
  | punct => cases none
  | word known _ =>
    obtain ⟨_, _, rfl, _⟩ := known.head
    cases none
  | number valid _ =>
    obtain ⟨_, _, rfl, _⟩ := valid.head
    cases none
  | text => cases none

theorem Lexes.of_space {byte : UInt8} {rest : Bytes} {tokens : List Token} (white : IsSpace byte)
    (lexes : Lexes (byte :: rest) tokens) :
    Lexes rest tokens := by
  generalize whole : byte :: rest = text at lexes
  cases lexes with
  | nil => cases whole
  | space _ more =>
    cases whole
    exact more
  | punct mark _ =>
    cases whole
    exact absurd white mark.not_space
  | word known _ =>
    obtain ⟨_, _, rfl, dark⟩ := known.head
    cases whole
    exact absurd white dark
  | number valid _ =>
    obtain ⟨_, _, rfl, first⟩ := valid.head
    cases whole
    exact absurd white (IsNumber.not_space first)
  | text =>
    cases whole
    exact absurd white (by unfold IsSpace; decide)

/-- How a part of a text belongs to a part of the tokens. It can be cut into them under a
condition. Where a beginning of the text can be cut into these tokens and more, the
condition holds and the part is in it whole. -/
structure Cut (part : Bytes) (tokens : List Token) (sound : Prop) : Prop where
  write : sound → ∀ {rest more}, Lexes rest more → Lexes (part ++ rest) (tokens ++ more)
  read : ∀ {seen rest more}, more ≠ [] → seen <+: part ++ rest → Lexes seen (tokens ++ more) →
    sound ∧ ∃ left, seen = part ++ left ∧ left <+: rest ∧ Lexes left more

namespace Cut
variable {part next : Bytes} {tokens others : List Token} {sound fine : Prop}

theorem nil : Cut [] [] True where
  write _ _ _ lexes := lexes
  read _ front lexes := ⟨trivial, _, rfl, front, lexes⟩

theorem append (first : Cut part tokens sound) (second : Cut next others fine) : Cut (part ++ next) (tokens ++ others)
    (sound ∧ fine) where
  write both rest more lexes := by
    rw [List.append_assoc, List.append_assoc]
    exact first.write both.1 (second.write both.2 lexes)
  read due front lexes := by
    rw [List.append_assoc] at front lexes
    obtain ⟨one, left, rfl, front, lexes⟩ := first.read (by simp [due]) front lexes
    obtain ⟨two, left, rfl, front, lexes⟩ := second.read due front lexes
    exact ⟨⟨one, two⟩, left, by rw [List.append_assoc], front, lexes⟩

theorem weaken (cut : Cut part tokens sound) (same : sound ↔ fine) : Cut part tokens fine where
  write holds := cut.write (same.mpr holds)
  read due front lexes := (cut.read due front lexes).imp_left same.mp

theorem also (first : Cut part tokens True) (second : Cut next others sound) : Cut (part ++ next) (tokens ++ others) sound :=
  (first.append second).weaken (iff_of_eq (true_and sound))

theorem space {byte : UInt8} (white : IsSpace byte) : Cut [byte] [] True where
  write _ _ _ lexes := .space white lexes
  read {seen rest more} due front lexes := by
    refine ⟨trivial, ?_⟩
    cases seen with
    | nil => exact absurd lexes.of_nil due
    | cons first left =>
      obtain ⟨rfl, rest⟩ := List.cons_prefix_cons.mp front
      exact ⟨left, rfl, rest, lexes.of_space white⟩

theorem spaces (white : ∀ byte ∈ part, IsSpace byte) : Cut part [] True := by
  induction part with
  | nil => exact nil
  | cons byte part ih =>
    obtain ⟨here, there⟩ := List.forall_mem_cons.mp white
    exact (space here).also (ih there)

theorem punct {byte : UInt8} (mark : IsPunct byte) : Cut [byte] [.punct byte] True where
  write _ _ _ lexes := .punct mark lexes
  read {seen rest more} _ front lexes := by
    refine ⟨trivial, ?_⟩
    cases lexes with
    | space white _ =>
      obtain ⟨rfl, _⟩ := List.cons_prefix_cons.mp front
      exact absurd white mark.not_space
    | punct _ lexes => exact ⟨_, rfl, (List.cons_prefix_cons.mp front).2, lexes⟩

theorem number {letters : Bytes} (valid : IsNumber letters) : Cut letters [.number letters] True where
  write _ _ _ lexes := .number valid lexes
  read {seen rest more} _ front lexes := by
    refine ⟨trivial, ?_⟩
    cases lexes with
    | space white _ =>
      obtain ⟨byte, tail, rfl, first⟩ := valid.head
      obtain ⟨rfl, _⟩ := List.cons_prefix_cons.mp front
      exact absurd white (IsNumber.not_space first)
    | number _ lexes => exact ⟨_, rfl, (List.prefix_append_right_inj _).mp front, lexes⟩

/-- A string of plain letters ends at its quote. -/
theorem key {letters : Bytes} (plain : Plain letters) (ascii : ∀ byte ∈ letters, byte ≤ 127 ∧ byte ≠ backslash) :
    Cut (quote :: letters ++ [quote]) [.text letters] True where
  write _ rest more lexes := by
    rw [List.cons_append, List.cons_append, List.append_assoc]
    exact .text (.of_plain plain) lexes
  read {seen rest more} _ front lexes := by
    refine ⟨trivial, ?_⟩
    rw [List.cons_append, List.cons_append, List.append_assoc, List.singleton_append] at front
    cases lexes with
    | space white _ =>
      obtain ⟨rfl, _⟩ := List.cons_prefix_cons.mp front
      exact absurd white (by unfold IsSpace; decide)
    | @text raw _ left _ body lexes =>
      have front := (List.cons_prefix_cons.mp front).2
      obtain ⟨rfl, _⟩ | longer := body.length
      · have front := (List.cons_prefix_cons.mp ((List.prefix_append_right_inj _).mp front)).2
        exact ⟨left, by simp, front, lexes⟩
      · have behind : letters ++ [quote] <+: letters ++ quote :: rest :=
          (List.prefix_append_right_inj _).mpr (List.prefix_append [quote] rest)
        have within : letters ++ [quote] <+: raw :=
          List.prefix_of_prefix_length_le behind ((List.prefix_append _ _).trans front) (by rwa [List.length_append])
        obtain ⟨tail, rfl⟩ := within
        rw [List.append_assoc, List.singleton_append] at body
        exact absurd body (Body.stops ascii)

/-- A string that a comma and a line end follow. It cannot run over them, as the line end may
not be in a string and the comma is no quote. -/
theorem line (bytes : Bytes) : Cut (quote :: bytes ++ [quote, comma, newline]) [.text bytes, .punct comma] (Plain bytes) where
  write plain rest more lexes := by
    rw [List.cons_append, List.cons_append, List.append_assoc]
    exact .text (.of_plain plain) (.punct (by unfold IsPunct; decide) (.space (by unfold IsSpace; decide) lexes))
  read {seen rest more} due front lexes := by
    rw [List.cons_append, List.cons_append, List.append_assoc] at front
    cases lexes with
    | space white _ =>
      obtain ⟨rfl, _⟩ := List.cons_prefix_cons.mp front
      exact absurd white (by unfold IsSpace; decide)
    | @text raw _ left _ body lexes =>
      have front := (List.cons_prefix_cons.mp front).2
      obtain ⟨rfl, plain⟩ | longer := body.length
      · have front := (List.cons_prefix_cons.mp ((List.prefix_append_right_inj _).mp front)).2
        have tail := (punct (show IsPunct comma by unfold IsPunct; decide)).also
          (space (show IsSpace newline by unfold IsSpace; decide))
        obtain ⟨_, left, rfl, front, lexes⟩ := tail.read due front lexes
        exact ⟨plain, left, by simp, front, lexes⟩
      · exfalso
        obtain ⟨extra, rfl⟩ : bytes <+: raw :=
          List.prefix_of_prefix_length_le (List.prefix_append _ _) ((List.prefix_append _ _).trans front)
            (Nat.le_of_lt longer)
        rw [List.append_assoc] at front
        have front := (List.prefix_append_right_inj _).mp front
        have printable := body.printable
        cases extra with
        | nil => simp at longer
        | cons one extra =>
          rw [List.cons_append, List.cons_append, List.cons_prefix_cons] at front
          cases extra with
          | nil => exact absurd (List.cons_prefix_cons.mp front.2).1 (by decide)
          | cons two extra =>
            rw [List.cons_append, List.cons_append, List.cons_prefix_cons] at front
            cases extra with
            | nil => exact absurd (List.cons_prefix_cons.mp front.2.2).1 (by decide)
            | cons three extra =>
              rw [List.cons_append, List.cons_append, List.cons_prefix_cons] at front
              exact absurd (printable newline (by simp [← front.2.2.1])) (by decide)

end Cut

end Hiya.Library.Json
