import Mathlib.Data.List.Chain
import Hiya.Library.Json

/-! What a part of a JSON text tells of the tokens. Outside of its strings a text can be cut at
every mark, and in no document are there two marks with an item missing between them. -/

namespace Hiya.Library.Json
/-- Bytes that are characters, one after the other. -/
inductive Characters : Bytes → Prop
  | nil : Characters []
  | char (char : Char) (more : Characters rest) : Characters (String.utf8EncodeChar char ++ rest)

def Apart (byte : UInt8) : Prop := byte ≠ quote ∧ byte ≠ backslash

/-- Letters among which a quote stands only behind a backslash. -/
inductive Quoted : Bytes → Prop
  | nil : Quoted []
  | letter (apart : Apart byte) (more : Quoted rest) : Quoted (byte :: rest)
  | escape (letter : UInt8) (more : Quoted rest) : Quoted (backslash :: letter :: rest)

/-- Every string that begins in the text ends in it. -/
inductive Balanced : Bytes → Prop
  | nil : Balanced []
  | letter (apart : byte ≠ quote) (more : Balanced rest) : Balanced (byte :: rest)
  | text (string : Quoted raw) (more : Balanced rest) : Balanced (quote :: (raw ++ quote :: rest))

variable {letters raw rest more front back text bytes : Bytes} {byte first second : UInt8} {tokens others : List Token}

namespace Quoted

theorem letters_append (apart : ∀ byte ∈ letters, Apart byte) (more : Quoted rest) : Quoted (letters ++ rest) := by
  induction letters with
  | nil => exact more
  | cons byte letters ih =>
    obtain ⟨here, there⟩ := List.forall_mem_cons.mp apart
    exact .letter here (ih there)

theorem unique (one : Quoted front) (two : Quoted back) (same : front ++ quote :: rest = back ++ quote :: more) :
    front = back ∧ rest = more := by
  induction one generalizing back with
  | nil =>
    cases two with
    | nil => exact ⟨rfl, (List.cons.inj same).2⟩
    | letter apart _ => exact absurd (List.cons.inj same).1.symm apart.1
    | escape => exact absurd (List.cons.inj same).1 (by decide)
  | letter apart _ ih =>
    cases two with
    | nil => exact absurd (List.cons.inj same).1 apart.1
    | letter _ others =>
      obtain ⟨rfl, tails⟩ := List.cons.inj same
      obtain ⟨rfl, behind⟩ := ih others tails
      exact ⟨rfl, behind⟩
    | escape => exact absurd (List.cons.inj same).1 apart.2
  | escape letter _ ih =>
    cases two with
    | nil => exact absurd (List.cons.inj same).1 (by decide)
    | letter apart _ => exact absurd (List.cons.inj same).1.symm apart.2
    | escape _ others =>
      obtain ⟨rfl, tails⟩ := List.cons.inj (List.cons.inj same).2
      obtain ⟨rfl, behind⟩ := ih others tails
      exact ⟨rfl, behind⟩

end Quoted

theorem ascii_char (small : byte ≤ 127) : ∃ char : Char, String.utf8EncodeChar char = [byte] ∧
    char.val.toNat = byte.toNat := by
  have room : byte.toNat ≤ 127 := UInt8.le_iff_toNat_le.mp small
  have value : (Char.ofNat byte.toNat).val.toNat = byte.toNat := by
    rw [Char.ofNat, dif_pos (.inl (by omega))]
    rfl
  obtain ⟨_, ascii⟩ | ⟨large, _⟩ := utf8_bytes (Char.ofNat byte.toNat)
  · exact ⟨_, by rw [ascii, value, UInt8.ofNat_toNat], value⟩
  · omega

theorem Characters.ascii (small : byte ≤ 127) (more : Characters rest) : Characters (byte :: rest) := by
  obtain ⟨char, encoded, _⟩ := ascii_char small
  have whole := Characters.char char more
  rwa [encoded] at whole

theorem PlainChar.apart {char : Char} (plain : PlainChar char) : ∀ byte ∈ String.utf8EncodeChar char, Apart byte := by
  intro byte member
  refine ⟨(plain.bytes byte member).2, fun is => ?_⟩
  obtain ⟨small, ascii⟩ | ⟨_, _, high⟩ := utf8_bytes char
  · rw [ascii, List.mem_singleton] at member
    have value : byte.toNat = char.val.toNat :=
      by rw [member, UInt8.toNat_ofNat_of_lt' (Nat.lt_of_le_of_lt small (by decide))]
    refine plain.2.2 (Char.ext (UInt32.toNat_inj.mp ?_))
    rw [← value, is]
    rfl
  · exact absurd (is ▸ high byte member) (by decide)

theorem hexValue_apart {value : Nat} (digit : hexValue byte = some value) : Apart byte := by
  constructor
  · rintro rfl
    cases digit
  · rintro rfl
    cases digit

theorem Spells.apart {unit : Nat} (spelled : Spells letters unit) : ∀ byte ∈ letters, Apart byte := by
  obtain ⟨four, values, all, joined⟩ := spelled
  clear four joined
  induction all with
  | nil => exact List.forall_mem_nil _
  | cons digit _ ih => exact List.forall_mem_cons.mpr ⟨hexValue_apart digit, ih⟩

theorem Body.quoted (body : Body raw bytes) : Quoted raw := by
  induction body with
  | nil => exact .nil
  | char char plain _ ih => exact .letters_append plain.apart ih
  | escape pair _ _ ih => exact .escape _ ih
  | unit letters _ spelled _ ih => exact .escape _ (.letters_append spelled.apart ih)
  | surrogates high low _ _ _ leads follows _ _ _ ih =>
    exact .escape _ (.letters_append leads.apart (.escape _ (.letters_append follows.apart ih)))

namespace Balanced

theorem letters_append (apart : ∀ byte ∈ letters, byte ≠ quote) (more : Balanced rest) : Balanced (letters ++ rest) := by
  induction letters with
  | nil => exact more
  | cons byte letters ih =>
    obtain ⟨here, there⟩ := List.forall_mem_cons.mp apart
    exact .letter here (ih there)

theorem append (one : Balanced front) (two : Balanced back) : Balanced (front ++ back) := by
  induction one with
  | nil => exact two
  | letter apart _ ih => exact .letter apart ih
  | text string _ ih =>
    rw [List.cons_append, List.append_assoc, List.cons_append]
    exact .text string ih

theorem of_cons (balanced : Balanced (byte :: rest)) (apart : byte ≠ quote) : Balanced rest := by
  cases balanced with
  | letter _ more => exact more
  | text => exact absurd rfl apart

theorem of_letters (balanced : Balanced (letters ++ rest)) (apart : ∀ byte ∈ letters, byte ≠ quote) : Balanced rest := by
  induction letters with
  | nil => exact balanced
  | cons byte letters ih =>
    obtain ⟨here, there⟩ := List.forall_mem_cons.mp apart
    exact ih (balanced.of_cons here) there

theorem of_quote (balanced : Balanced (quote :: text)) : ∃ raw rest, text = raw ++ quote :: rest ∧ Quoted raw ∧
    Balanced rest := by
  cases balanced with
  | letter apart _ => exact absurd rfl apart
  | text string more => exact ⟨_, _, rfl, string, more⟩

end Balanced

/-- A byte that is part of no word and no number. -/
def IsMark (byte : UInt8) : Prop := IsPunct byte ∨ byte = quote

theorem IsMark.not_space (mark : IsMark byte) : ¬ IsSpace byte := by
  obtain mark | rfl := mark
  · exact mark.not_space
  · unfold IsSpace
    decide

theorem IsWord.not_mark (known : IsWord letters) : ∀ byte ∈ letters, ¬ IsMark byte := by
  simp only [IsWord, List.mem_cons, List.not_mem_nil, or_false] at known
  obtain rfl | rfl | rfl := known <;> (unfold IsMark IsPunct; decide +kernel)

theorem IsDigit.not_mark (digit : IsDigit byte) : ¬ IsMark byte := by
  rintro (mark | rfl)
  · simp only [IsPunct, List.mem_cons, List.not_mem_nil, or_false] at mark
    obtain rfl | rfl | rfl | rfl | rfl | rfl := mark <;> exact absurd digit (by unfold IsDigit; decide)
  · exact absurd digit (by unfold IsDigit; decide)

theorem IsNumber.not_mark (valid : IsNumber letters) : ∀ byte ∈ letters, ¬ IsMark byte := by
  have signs : ∀ sign ∈ [[], [43], [45]], ∀ byte ∈ (sign : Bytes), ¬ IsMark byte := by
    unfold IsMark IsPunct
    decide +kernel
  have marks : ¬ IsMark dot ∧ ¬ IsMark 69 ∧ ¬ IsMark 101 := by
    unfold IsMark IsPunct
    decide +kernel
  obtain ⟨sign, whole, fraction, exponent, rfl, signed, ⟨digits, _⟩, broken, raised⟩ := valid.parts
  simp only [List.forall_mem_append]
  have known : ([[], [45]] : List Bytes) ⊆ [[], [43], [45]] := by decide
  refine ⟨⟨⟨signs sign (known signed), fun byte member => (digits.2 byte member).not_mark⟩, ?_⟩, ?_⟩
  · obtain rfl | ⟨digits, fine, rfl⟩ := broken
    · exact List.forall_mem_nil _
    · exact List.forall_mem_cons.mpr ⟨marks.1, fun byte member => (fine.2 byte member).not_mark⟩
  · obtain rfl | ⟨mark, sign, digits, known, signed, fine, rfl⟩ := raised
    · exact List.forall_mem_nil _
    · rw [List.cons_append, List.forall_mem_cons, List.forall_mem_append]
      refine ⟨?_, signs sign signed, fun byte member => (fine.2 byte member).not_mark⟩
      obtain rfl | rfl := known
      · exact marks.2.1
      · exact marks.2.2

namespace Lexes

theorem append (one : Lexes front tokens) (two : Lexes back others) : Lexes (front ++ back) (tokens ++ others) := by
  induction one with
  | nil => exact two
  | space white _ ih => exact .space white ih
  | punct mark _ ih => exact .punct mark ih
  | word known _ ih =>
    rw [List.append_assoc]
    exact .word known ih
  | number valid _ ih =>
    rw [List.append_assoc]
    exact .number valid ih
  | text body _ ih =>
    rw [List.cons_append, List.append_assoc, List.cons_append]
    exact .text body ih

theorem flatMap {spell : Token → Bytes} (each : ∀ token ∈ tokens, Lexes (spell token) [token]) :
    Lexes (tokens.flatMap spell) tokens := by
  induction tokens with
  | nil => exact .nil
  | cons token tokens ih =>
    obtain ⟨here, there⟩ := List.forall_mem_cons.mp each
    rw [List.flatMap_cons]
    exact here.append (ih there)

theorem of_punct (mark : IsPunct byte) (lexes : Lexes (byte :: rest) tokens) : ∃ others,
    tokens = .punct byte :: others ∧ Lexes rest others := by
  generalize whole : byte :: rest = text at lexes
  cases lexes with
  | nil => cases whole
  | space white _ =>
    cases whole
    exact absurd white mark.not_space
  | punct _ lexes =>
    cases whole
    exact ⟨_, rfl, lexes⟩
  | word known _ =>
    obtain ⟨head, tail, rfl, _⟩ := known.head
    cases whole
    exact absurd (.inl mark) (known.not_mark _ List.mem_cons_self)
  | number valid _ =>
    obtain ⟨head, tail, rfl, _⟩ := valid.head
    cases whole
    exact absurd (.inl mark) (valid.not_mark _ List.mem_cons_self)
  | text =>
    cases whole
    exact absurd mark (by unfold IsPunct; decide)

theorem of_text (string : Quoted raw) (lexes : Lexes (quote :: (raw ++ quote :: rest)) tokens) : ∃ bytes, Body raw bytes := by
  generalize whole : quote :: (raw ++ quote :: rest) = text at lexes
  cases lexes with
  | nil => cases whole
  | space white _ =>
    cases whole
    exact absurd white (IsMark.not_space (.inr rfl))
  | punct mark _ =>
    cases whole
    exact absurd mark (by unfold IsPunct; decide)
  | word known _ =>
    obtain ⟨head, tail, rfl, _⟩ := known.head
    obtain rfl := (List.cons.inj whole).1
    exact absurd (.inr rfl) (known.not_mark _ List.mem_cons_self)
  | number valid _ =>
    obtain ⟨head, tail, rfl, _⟩ := valid.head
    obtain rfl := (List.cons.inj whole).1
    exact absurd (.inr rfl) (valid.not_mark _ List.mem_cons_self)
  | text body _ =>
    obtain ⟨rfl, _⟩ := string.unique body.quoted (List.cons.inj whole).2
    exact ⟨_, body⟩

/-- Letters without a mark are in front of the mark as a whole. -/
theorem front_of_letters (mark : IsMark byte) (none : ∀ letter ∈ letters, ¬ IsMark letter)
    (shape : letters ++ rest = front ++ byte :: back) :
    ∃ middle, front = letters ++ middle ∧ rest = middle ++ byte :: back := by
  obtain ⟨middle, fits, behind⟩ | ⟨middle, fits, behind⟩ := List.append_eq_append_iff.mp shape
  · exact ⟨middle, fits, behind⟩
  · cases middle with
    | nil => exact ⟨[], by simpa using fits.symm, by simpa using behind.symm⟩
    | cons head tail =>
      obtain ⟨rfl, _⟩ := List.cons.inj behind
      exact absurd mark (none byte (by simp [fits]))

/-- Behind a balanced part, the tokens can be parted where there is a mark. -/
theorem split (lexes : Lexes text tokens) (shape : text = front ++ byte :: back) (balanced : Balanced front)
    (mark : IsMark byte) :
    ∃ before after, tokens = before ++ after ∧ Lexes (byte :: back) after := by
  induction lexes generalizing front with
  | nil => exact absurd shape.symm (by simp)
  | @space letter rest tokens white more ih =>
    cases front with
    | nil => exact ⟨[], _, rfl, by rw [List.nil_append] at shape; exact shape ▸ .space white more⟩
    | cons head tail =>
      obtain ⟨rfl, behind⟩ := List.cons.inj shape
      exact ih behind (balanced.of_cons fun is => IsMark.not_space (.inr is) white)
  | @punct letter rest tokens known more ih =>
    cases front with
    | nil => exact ⟨[], _, rfl, by rw [List.nil_append] at shape; exact shape ▸ .punct known more⟩
    | cons head tail =>
      obtain ⟨rfl, behind⟩ := List.cons.inj shape
      obtain ⟨before, after, rfl, lexes⟩ :=
        ih behind (balanced.of_cons (by rintro rfl; exact absurd known (by unfold IsPunct; decide)))
      exact ⟨_ :: before, after, rfl, lexes⟩
  | word known _ ih =>
    obtain ⟨middle, rfl, behind⟩ := front_of_letters mark known.not_mark shape
    obtain ⟨before, after, rfl, lexes⟩ :=
      ih behind (balanced.of_letters fun letter member is => known.not_mark letter member (.inr is))
    exact ⟨_ :: before, after, rfl, lexes⟩
  | number valid _ ih =>
    obtain ⟨middle, rfl, behind⟩ := front_of_letters mark valid.not_mark shape
    obtain ⟨before, after, rfl, lexes⟩ :=
      ih behind (balanced.of_letters fun letter member is => valid.not_mark letter member (.inr is))
    exact ⟨_ :: before, after, rfl, lexes⟩
  | text body more ih =>
    cases front with
    | nil => exact ⟨[], _, rfl, by rw [List.nil_append] at shape; exact shape ▸ .text body more⟩
    | cons head tail =>
      obtain ⟨rfl, strings⟩ := List.cons.inj (shape.trans (List.cons_append ..))
      obtain ⟨raw, left, rfl, string, balanced⟩ := balanced.of_quote
      rw [List.append_assoc, List.cons_append] at strings
      obtain ⟨_, behind⟩ := body.quoted.unique string strings
      obtain ⟨before, after, rfl, lexes⟩ := ih behind balanced
      exact ⟨_ :: before, after, rfl, lexes⟩

/-- Marks side by side are tokens side by side. -/
theorem adjacent (lexes : Lexes (front ++ first :: second :: back) tokens) (balanced : Balanced front)
    (one : IsPunct first) (two : IsPunct second) :
    ∃ before after, tokens = before ++ .punct first :: .punct second :: after := by
  obtain ⟨before, after, rfl, behind⟩ := lexes.split rfl balanced (.inl one)
  obtain ⟨_, rfl, further⟩ := behind.of_punct one
  obtain ⟨after, rfl, _⟩ := further.of_punct two
  exact ⟨before, after, rfl⟩

/-- What stands between quotes is the body of a string. -/
theorem body (lexes : Lexes (front ++ quote :: (raw ++ quote :: back)) tokens) (balanced : Balanced front)
    (string : Quoted raw) :
    ∃ bytes, Body raw bytes := by
  obtain ⟨_, _, _, behind⟩ := lexes.split rfl balanced (.inr rfl)
  exact behind.of_text string

end Lexes

/-- An item is missing in front of a comma or between a comma and the end of an array. -/
def Missing (one two : Token) : Prop :=
  (one = .punct comma ∧ (two = .punct comma ∨ two = .punct bracketClose)) ∨ (one = .punct bracketOpen ∧ two = .punct comma)

abbrev Dense (tokens : List Token) : Prop := tokens.IsChain fun one two => ¬ Missing one two

theorem separated_cons_cons (part next : List Token) (parts : List (List Token)) :
    separated (part :: next :: parts) = part ++ .punct comma :: separated (next :: parts) := rfl

/-- A comma stands in front of every item but the first. -/
theorem separated_cons (part : List Token) (parts : List (List Token)) : separated (part :: parts) = part ++
    parts.flatMap (.punct comma :: ·) := by
  induction parts generalizing part with
  | nil => exact (List.append_nil part).symm
  | cons next parts ih => rw [separated_cons_cons, ih, List.flatMap_cons, List.cons_append]

structure Firm (tokens : List Token) : Prop where
  some : tokens ≠ []
  dense : Dense tokens
  head : ∀ token ∈ tokens.head?, token ≠ .punct comma ∧ token ≠ .punct bracketClose
  last : ∀ token ∈ tokens.getLast?, token ≠ .punct comma ∧ token ≠ .punct bracketOpen

namespace Firm
variable {parts : List (List Token)} {token : Token}

theorem single (apart : token ≠ .punct comma ∧ token ≠ .punct bracketClose ∧ token ≠ .punct bracketOpen) : Firm [token] where
  some := List.cons_ne_nil _ _
  dense := .singleton _
  head := by simp [apart.1, apart.2.1]
  last := by simp [apart.1, apart.2.2]

theorem cons (apart : token ≠ .punct comma ∧ token ≠ .punct bracketClose ∧ token ≠ .punct bracketOpen)
    (firm : Firm tokens) : Firm (token :: tokens) where
  some := List.cons_ne_nil _ _
  dense := firm.dense.cons fun _ _ missing => missing.elim (fun here => apart.1 here.1) fun here => apart.2.2 here.1
  head := by simp [apart.1, apart.2.1]
  last := by
    rw [List.getLast?_cons_of_ne_nil firm.some]
    exact firm.last

theorem separated (each : ∀ part ∈ parts, Firm part) (some : parts ≠ []) : Firm (separated parts) := by
  induction parts with
  | nil => exact absurd rfl some
  | cons part parts ih =>
    obtain ⟨here, there⟩ := List.forall_mem_cons.mp each
    cases parts with
    | nil => exact here
    | cons next others =>
      have others := ih there (List.cons_ne_nil _ _)
      rw [separated_cons_cons]
      constructor
      · simp
      · refine here.dense.append (others.dense.cons fun token head missing => ?_) fun token last comma first missing => ?_
        · obtain ⟨_, is | is⟩ | ⟨is, _⟩ := missing
          · exact (others.head token head).1 is
          · exact (others.head token head).2 is
          · exact absurd (Token.punct.inj is) (by decide)
        · obtain ⟨is, _⟩ | ⟨is, _⟩ := missing
          · exact (here.last token last).1 is
          · exact (here.last token last).2 is
      · rw [List.head?_append_of_ne_nil _ here.some]
        exact here.head
      · rw [List.getLast?_append_of_ne_nil _ (List.cons_ne_nil _ _), List.getLast?_cons_of_ne_nil others.some]
        exact others.last

theorem enclosed {opens closes : UInt8} (each : ∀ part ∈ parts, Firm part) (opened : opens ≠ comma ∧ opens ≠ bracketClose)
    (closed : closes ≠ comma ∧ closes ≠ bracketOpen) (empty : ¬ Missing (.punct opens) (.punct closes)) :
    Firm (.punct opens :: Json.separated parts ++ [.punct closes]) where
  some := by simp
  dense := by
    rw [List.cons_append]
    by_cases none : parts = []
    · subst none
      exact List.isChain_pair.mpr empty
    · have inner := separated each none
      have ends : Dense (Json.separated parts ++ [.punct closes]) := by
        refine inner.dense.append (.singleton _) fun token last mark same missing => ?_
        obtain rfl : mark = .punct closes := by simpa using same.symm
        obtain ⟨is, _⟩ | ⟨_, is⟩ := missing
        · exact (inner.last token last).1 is
        · exact closed.1 (Token.punct.inj is)
      refine ends.cons fun token head missing => ?_
      rw [List.head?_append_of_ne_nil _ inner.some] at head
      obtain ⟨is, _⟩ | ⟨_, is⟩ := missing
      · exact opened.1 (Token.punct.inj is)
      · exact (inner.head token head).1 is
  head := by simpa using opened
  last := by
    rw [List.getLast?_concat]
    simpa using closed

end Firm

mutual

theorem Value.firm : ∀ value : Value, Firm value.tokens
  | .word _ => .single ⟨nofun, nofun, nofun⟩
  | .number _ => .single ⟨nofun, nofun, nofun⟩
  | .text _ => .single ⟨nofun, nofun, nofun⟩
  | .array items =>
    .enclosed (itemTokens_firm items) (by decide) (by decide) (by simp [Missing, comma, bracketOpen, bracketClose])
  | .object members =>
    .enclosed (memberTokens_firm members) (by decide) (by decide) (by simp [Missing, comma, braceOpen, bracketOpen])

theorem itemTokens_firm : ∀ items : List Value, ∀ part ∈ itemTokens items, Firm part
  | [] => List.forall_mem_nil _
  | item :: rest => List.forall_mem_cons.mpr ⟨item.firm, itemTokens_firm rest⟩

theorem memberTokens_firm : ∀ members : List (Bytes × Value), ∀ part ∈ memberTokens members, Firm part
  | [] => List.forall_mem_nil _
  | (_, value) :: rest =>
    List.forall_mem_cons.mpr ⟨.cons ⟨nofun, nofun, nofun⟩
    (.cons (by simp [comma, colon, bracketOpen, bracketClose]) value.firm), memberTokens_firm rest⟩

end

end Hiya.Library.Json
