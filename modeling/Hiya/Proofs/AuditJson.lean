import Mathlib.Algebra.GroupWithZero.Nat
import Hiya.Pm.AuditExport

/-! When the export of an audit is a JSON document of the audit. The block is large enough for
short texts only, and a text stands for itself only where it needs no escape. -/

namespace Hiya.Pm.Audit
open Library

def issueJson (issue : SecurityIssue) : Json.Value := .object [
  (literal "type", .number (signed issue.type.toInt)),
  (literal "severity", .number (signed issue.severity.toInt)),
  (literal "entry_id", .text (orEmpty issue.entryId)),
  (literal "entry_title", .text (orEmpty issue.entryTitle)),
  (literal "description", .text (orEmpty issue.description)),
  (literal "recommendation", .text (orEmpty issue.recommendation)),
  (literal "score_impact", .number (unsigned issue.scoreImpact.toNat))]

def auditJson (audit : SecurityAudit) : Json.Value := .object [
  (literal "overall_score", .number (unsigned audit.overallScore.toNat)),
  (literal "entries_audited", .number (unsigned audit.entriesAudited.toNat)),
  (literal "issues_found", .number (unsigned audit.issuesFound.toNat)),
  (literal "critical_issues", .number (unsigned audit.criticalIssues.toNat)),
  (literal "high_issues", .number (unsigned audit.highIssues.toNat)),
  (literal "medium_issues", .number (unsigned audit.mediumIssues.toNat)),
  (literal "low_issues", .number (unsigned audit.lowIssues.toNat)),
  (literal "generated", .number (signed audit.generated.toInt)),
  (literal "issues", .array (audit.issues.map issueJson))]

/-- The export fails with an error, or the block holds a terminated text that is a document of
the audit. -/
def Exported (malloc : (size : Nat) → Option (Buf size)) (audit : SecurityAudit) : Prop :=
  (∃ problem, auditExportJson malloc (some audit) = .failed problem) ∨
    ∃ block, auditExportJson malloc (some audit) = .written block ∧ 0 ∈ block ∧
      Json.Document (cString block) (auditJson audit)

/-- Every text is made of characters that stand for themselves in a string. -/
structure SecurityIssue.Clean (issue : SecurityIssue) : Prop where
  entryId : Json.Plain (orEmpty issue.entryId)
  entryTitle : Json.Plain (orEmpty issue.entryTitle)
  description : Json.Plain (orEmpty issue.description)
  recommendation : Json.Plain (orEmpty issue.recommendation)

def SecurityIssue.needed (issue : SecurityIssue) : Nat :=
  (orEmpty issue.entryId).length + (orEmpty issue.entryTitle).length + (orEmpty issue.description).length +
    (orEmpty issue.recommendation).length +
    (signed issue.type.toInt).length + (signed issue.severity.toInt).length + (unsigned issue.scoreImpact.toNat).length + 171

def SecurityAudit.needed (audit : SecurityAudit) : Nat :=
  (unsigned audit.overallScore.toNat).length + (unsigned audit.entriesAudited.toNat).length +
    (unsigned audit.issuesFound.toNat).length +
    (unsigned audit.criticalIssues.toNat).length + (unsigned audit.highIssues.toNat).length +
      (unsigned audit.mediumIssues.toNat).length +
    (unsigned audit.lowIssues.toNat).length + (signed audit.generated.toInt).length + 184 +
    (audit.issues.map SecurityIssue.needed).sum + (audit.issues.length - 1)

/-- The text is no longer than the block and can be counted by an `int`. -/
structure SecurityAudit.Fits (audit : SecurityAudit) : Prop where
  room : audit.needed ≤ jsonSize audit
  counted : audit.needed ≤ intMax

theorem unsigned_eq (value : Nat) : unsigned value = (Nat.toDigits 10 value).flatMap String.utf8EncodeChar := by
  unfold unsigned literal
  rw [Nat.toString_eq_ofList_toDigits, String.toByteArray_ofList]
  unfold List.utf8Encode
  rw [List.data_toByteArray]

private theorem digitChar_bytes (digit : Nat) (small : digit < 10) :
    ∃ byte, String.utf8EncodeChar digit.digitChar = [byte] ∧ Json.IsDigit byte ∧ (byte = 48 → digit = 0) := by
  have digits : ∀ digit < 10, String.utf8EncodeChar digit.digitChar = [UInt8.ofNat (48 + digit)] ∧
      (48 ≤ UInt8.ofNat (48 + digit) ∧ UInt8.ofNat (48 + digit) ≤ 57) ∧ (UInt8.ofNat (48 + digit) = 48 → digit = 0) :=
        by decide
  exact ⟨UInt8.ofNat (48 + digit), digits digit small⟩

/-- The digits of a number, where only those of zero begin with a zero. -/
theorem unsigned_digits (value : Nat) : Json.Digits (unsigned value) ∧ ((unsigned value).head? = some 48 → value = 0) := by
  induction value using Nat.strong_induction_on with
  | _ value ih =>
    rw [unsigned_eq]
    by_cases small : value < 10
    · obtain ⟨byte, encoded, digit, zero⟩ := digitChar_bytes value small
      rw [Nat.toDigits_of_lt_base small, List.flatMap_singleton, encoded]
      exact ⟨⟨List.cons_ne_nil _ _, List.forall_mem_singleton.mpr digit⟩, fun first => zero (Option.some.inj first)⟩
    · obtain ⟨⟨some, digits⟩, leads⟩ := ih (value / 10) (by omega)
      obtain ⟨byte, encoded, digit, _⟩ := digitChar_bytes (value % 10) (by omega)
      rw [Nat.toDigits_of_base_le (by decide) (by omega), List.flatMap_append, List.flatMap_singleton, encoded, ← unsigned_eq]
      refine ⟨⟨by simp, List.forall_mem_append.mpr ⟨digits, List.forall_mem_singleton.mpr digit⟩⟩, fun first => ?_⟩
      rw [List.head?_append_of_ne_nil _ some] at first
      exact absurd (leads first) (by omega)

private theorem unsigned_whole (value : Nat) : Json.Whole (unsigned value) := by
  obtain ⟨digits, zero⟩ := unsigned_digits value
  refine ⟨digits, fun first => ?_⟩
  rw [zero first]
  rfl

theorem unsigned_number (value : Nat) : Json.IsNumber (unsigned value) where
  parts := ⟨[], unsigned value, [], [], by simp, by simp, unsigned_whole value, Or.inl rfl, Or.inl rfl⟩

private theorem signed_number (value : Int) : Json.IsNumber (signed value) := by
  unfold signed
  split
  · exact ⟨[45], unsigned value.natAbs, [], [], by simp, by simp, unsigned_whole _, Or.inl rfl, Or.inl rfl⟩
  · exact unsigned_number _

section
open Json

private theorem literal_quote : literal "\"" = [quote] := rfl
private theorem literal_colon : literal "\": " = [quote, colon, 32] := rfl
private theorem literal_line : literal "\",\n" = [quote, comma, newline] := rfl

/-- A key of the format: printable letters of ASCII, without a quote or a backslash. -/
def plainKey (letters : Bytes) : Bool := letters.all fun byte => 32 ≤ byte ∧ byte ≤ 127 ∧ byte ≠ quote ∧ byte ≠ backslash

private theorem plain_of_key {letters : Bytes} (key : plainKey letters = true) : Plain letters := by
  induction letters with
  | nil => exact .nil
  | cons byte letters ih =>
    unfold plainKey at key
    rw [List.all_cons, Bool.and_eq_true, decide_eq_true_eq] at key
    obtain ⟨⟨printable, ascii, noQuote, noBackslash⟩, more⟩ := key
    rw [UInt8.le_iff_toNat_le] at printable ascii
    have small : byte.toNat ≤ 127 := ascii
    have value : (Char.ofNat byte.toNat).val.toNat = byte.toNat := by
      rw [Char.ofNat, dif_pos (Or.inl (by omega))]
      rfl
    have bytes : String.utf8EncodeChar (Char.ofNat byte.toNat) = [byte] := by
      unfold String.utf8EncodeChar
      dsimp only
      rw [if_pos (by omega), value, UInt8.ofNat_toNat]
    have plain : PlainChar (Char.ofNat byte.toNat) := by
      refine ⟨?_, fun is => noQuote ?_, fun is => noBackslash ?_⟩
      · rw [UInt32.le_iff_toNat_le, value]
        exact printable
      · rw [is] at value
        exact UInt8.toNat_inj.mp value.symm
      · rw [is] at value
        exact UInt8.toNat_inj.mp value.symm
    have whole := Plain.char _ plain (ih more)
    rwa [bytes] at whole

private theorem key_ascii {letters : Bytes} (key : plainKey letters = true) : ∀ byte ∈ letters, byte ≤ 127 ∧
    byte ≠ backslash := by
  intro byte member
  have fine := List.all_eq_true.mp key byte member
  rw [decide_eq_true_eq] at fine
  exact ⟨fine.2.1, fine.2.2.2⟩

variable {tokens : List Token} {sound : Prop} {indent : Nat} {name : String} {rest : Bytes}

private theorem spaces_cut (count : Nat) : Cut (List.replicate count 32) [] True :=
  .spaces fun byte member => by
    rw [List.eq_of_mem_replicate member]
    exact Or.inl rfl

private theorem lineEnd_cut : Cut [newline] [] True := .space (by unfold IsSpace; decide)

private theorem comma_cut : Cut [comma] [.punct comma] True := .punct (by unfold IsPunct; decide)

private theorem keyed_cut (key : plainKey (literal name) = true) (behind : Cut rest tokens sound) :
    Cut (keyed indent name rest) (.text (literal name) :: .punct colon :: tokens) sound := by
  have colon := (Cut.punct (show IsPunct Json.colon by unfold IsPunct; decide)).also (spaces_cut 1)
  have whole := (spaces_cut indent).also ((Cut.key (plain_of_key key) (key_ascii key)).also (colon.also behind))
  unfold keyed
  rw [literal_quote, literal_colon]
  simpa using whole

private theorem number_cut (indent : Nat) (name : String) {value : Bytes} (key : plainKey (literal name) = true)
    (valid : IsNumber value) :
    Cut (keyed indent name (value ++ literal ",\n")) [.text (literal name), .punct colon, .number value,
    .punct comma] True := by
  have comma := comma_cut.also lineEnd_cut
  exact keyed_cut key ((Cut.number valid).also comma)

private theorem text_cut (name : String) (text : Option CStr) (key : plainKey (literal name) = true) :
    Cut (issueText name text) [.text (literal name), .punct colon, .text (orEmpty text), .punct comma]
    (Plain (orEmpty text)) := by
  have line := Cut.line (orEmpty text)
  unfold issueText
  rw [literal_quote, literal_line]
  exact keyed_cut key (by simpa using line)

private theorem opened_cut : Cut (literal "    \x7b\n") [.punct braceOpen] True :=
  (spaces_cut 4).also ((Cut.punct (by unfold IsPunct; decide)).also lineEnd_cut)

private theorem closed_cut : Cut (literal "    \x7d") [.punct braceClose] True :=
  (spaces_cut 4).also (Cut.punct (by unfold IsPunct; decide))

private theorem impact_cut (value : Nat) :
    Cut (keyed 6 "score_impact" (unsigned value ++ literal "\n")) [.text (literal "score_impact"), .punct colon,
    .number (unsigned value)] True :=
  keyed_cut rfl ((Cut.number (unsigned_number value)).also lineEnd_cut)

private theorem clean_iff (issue : SecurityIssue) : issue.Clean ↔ Plain (orEmpty issue.entryId) ∧
    Plain (orEmpty issue.entryTitle) ∧
    Plain (orEmpty issue.description) ∧ Plain (orEmpty issue.recommendation) :=
  ⟨fun clean => ⟨clean.entryId, clean.entryTitle, clean.description, clean.recommendation⟩,
    fun all => ⟨all.1, all.2.1, all.2.2.1, all.2.2.2⟩⟩

private theorem issueJson_tokens (issue : SecurityIssue) : (issueJson issue).tokens =
    [.punct braceOpen] ++
    ([.text (literal "type"), .punct colon, .number (signed issue.type.toInt), .punct comma] ++
    ([.text (literal "severity"), .punct colon, .number (signed issue.severity.toInt), .punct comma] ++
    ([.text (literal "entry_id"), .punct colon, .text (orEmpty issue.entryId), .punct comma] ++
    ([.text (literal "entry_title"), .punct colon, .text (orEmpty issue.entryTitle), .punct comma] ++
    ([.text (literal "description"), .punct colon, .text (orEmpty issue.description), .punct comma] ++
    ([.text (literal "recommendation"), .punct colon, .text (orEmpty issue.recommendation), .punct comma] ++
    ([.text (literal "score_impact"), .punct colon, .number (unsigned issue.scoreImpact.toNat)] ++
    [.punct braceClose]))))))) := rfl

/-- An issue up to what stands behind its brace. -/
theorem issue_cut (issue : SecurityIssue) (last : Bool) :
    Cut (issuePiece issue last) ((issueJson issue).tokens ++ if last then [] else [.punct comma]) issue.Clean := by
  have closing : Cut ((if last then [] else literal ",") ++ literal "\n") (if last then [] else [.punct comma]) True := by
    cases last with
    | true => exact lineEnd_cut
    | false => exact comma_cut.also lineEnd_cut
  have numbers := (impact_cut issue.scoreImpact.toNat).also (closed_cut.also closing)
  have texts := (text_cut "entry_id" issue.entryId rfl).append ((text_cut "entry_title" issue.entryTitle rfl).append
    ((text_cut "description" issue.description rfl).append (text_cut "recommendation" issue.recommendation rfl)))
  have first := opened_cut.also ((number_cut 6 "type" rfl (signed_number issue.type.toInt)).also
    (number_cut 6 "severity" rfl (signed_number issue.severity.toInt)))
  have whole := ((first.also texts).append numbers).weaken ((iff_of_eq (and_true _)).trans (clean_iff issue).symm)
  rw [issueJson_tokens]
  simpa only [issuePiece, issueNumber, List.append_assoc] using whole

private theorem issues_cut (issues : List SecurityIssue) :
    Cut (issuePieces issues).flatten (separated (itemTokens (issues.map issueJson))) (∀ issue ∈ issues, issue.Clean) := by
  induction issues with
  | nil => exact Cut.nil.weaken (by simp)
  | cons issue issues ih =>
    cases issues with
    | nil =>
      have cut := issue_cut issue true
      simpa [issuePieces, separated, itemTokens] using cut
    | cons next rest =>
      have cut := (issue_cut issue false).append ih
      have whole := cut.weaken List.forall_mem_cons.symm
      simpa only [issuePieces, List.flatten_cons, List.map_cons, itemTokens, separated, List.append_assoc,
        List.singleton_append,
        Bool.false_eq_true, if_false] using whole

private theorem auditJson_tokens (audit : SecurityAudit) : (auditJson audit).tokens =
    [.punct braceOpen] ++
    ([.text (literal "overall_score"), .punct colon, .number (unsigned audit.overallScore.toNat), .punct comma] ++
    ([.text (literal "entries_audited"), .punct colon, .number (unsigned audit.entriesAudited.toNat), .punct comma] ++
    ([.text (literal "issues_found"), .punct colon, .number (unsigned audit.issuesFound.toNat), .punct comma] ++
    ([.text (literal "critical_issues"), .punct colon, .number (unsigned audit.criticalIssues.toNat), .punct comma] ++
    ([.text (literal "high_issues"), .punct colon, .number (unsigned audit.highIssues.toNat), .punct comma] ++
    ([.text (literal "medium_issues"), .punct colon, .number (unsigned audit.mediumIssues.toNat), .punct comma] ++
    ([.text (literal "low_issues"), .punct colon, .number (unsigned audit.lowIssues.toNat), .punct comma] ++
    ([.text (literal "generated"), .punct colon, .number (signed audit.generated.toInt), .punct comma] ++
    ([.text (literal "issues"), .punct colon, .punct bracketOpen] ++
    (separated (itemTokens (audit.issues.map issueJson)) ++ [.punct bracketClose])))))))))) ++ [.punct braceClose] := by
  simp [auditJson, Value.tokens, memberTokens, separated]

def unclosed (audit : SecurityAudit) : Bytes := headerPiece audit ++ (issuePieces audit.issues).flatten ++ literal "  ]\n"

private theorem pieces_flatten (audit : SecurityAudit) : (auditPieces audit).flatten = unclosed audit ++
    [braceClose, newline] := by
  have footer : footerPiece = literal "  ]\n" ++ [braceClose, newline] := rfl
  simp only [auditPieces, unclosed, footer, List.cons_append, List.flatten_cons, List.flatten_append, List.flatten_nil,
    List.append_nil,
    List.append_assoc]

private theorem unclosed_cut (audit : SecurityAudit) : ∃ tokens, (auditJson audit).tokens = tokens ++ [.punct braceClose] ∧
    Cut (unclosed audit) tokens (∀ issue ∈ audit.issues, issue.Clean) := by
  refine ⟨_, auditJson_tokens audit, ?_⟩
  have opened : Cut (literal "\x7b\n") [.punct braceOpen] True := (Cut.punct (by unfold IsPunct; decide)).also lineEnd_cut
  have list : Cut (keyed 2 "issues" (literal "[\n")) [.text (literal "issues"), .punct colon, .punct bracketOpen] True :=
    keyed_cut rfl ((Cut.punct (by unfold IsPunct; decide)).also lineEnd_cut)
  have closed : Cut (literal "  ]\n") [.punct bracketClose] True :=
    (spaces_cut 2).also ((Cut.punct (by unfold IsPunct; decide)).also lineEnd_cut)
  have body := ((issues_cut audit.issues).append closed).weaken (iff_of_eq (and_true _))
  have counts := (number_cut 2 "overall_score" rfl (unsigned_number audit.overallScore.toNat)).also
    ((number_cut 2 "entries_audited" rfl (unsigned_number audit.entriesAudited.toNat)).also
    ((number_cut 2 "issues_found" rfl (unsigned_number audit.issuesFound.toNat)).also
    ((number_cut 2 "critical_issues" rfl (unsigned_number audit.criticalIssues.toNat)).also
    ((number_cut 2 "high_issues" rfl (unsigned_number audit.highIssues.toNat)).also
    ((number_cut 2 "medium_issues" rfl (unsigned_number audit.mediumIssues.toNat)).also
    ((number_cut 2 "low_issues" rfl (unsigned_number audit.lowIssues.toNat)).also
    ((number_cut 2 "generated" rfl (signed_number audit.generated.toInt)).also (list.also body))))))))
  have whole := opened.also counts
  simpa only [unclosed, headerPiece, headerNumber, List.append_assoc] using whole

end

private theorem length_keyed (indent : Nat) (key : String) (rest : Bytes) :
    (keyed indent key rest).length = indent + (literal key).length + 4 + rest.length := by
  have quote : (literal "\"").length = 1 := rfl
  have colon : (literal "\": ").length = 3 := rfl
  simp only [keyed, List.length_append, List.length_replicate, quote, colon]
  omega

private theorem length_issuePiece (issue : SecurityIssue) (last : Bool) :
    (issuePiece issue last).length = issue.needed + if last then 0 else 1 := by
  have comma : (if last then [] else literal ",").length = if last then 0 else 1 := by cases last <;> rfl
  have ends : (literal ",\n").length = 2 ∧ (literal "\"").length = 1 ∧ (literal "\",\n").length = 3 ∧
    (literal "\n").length = 1 ∧
    (literal "    \x7b\n").length = 6 ∧ (literal "    \x7d").length = 5 := ⟨rfl, rfl, rfl, rfl, rfl, rfl⟩
  have keys : (literal "type").length = 4 ∧ (literal "severity").length = 8 ∧ (literal "entry_id").length = 8 ∧
    (literal "entry_title").length = 11 ∧
    (literal "description").length = 11 ∧ (literal "recommendation").length = 14 ∧ (literal "score_impact").length = 12 :=
    ⟨rfl, rfl, rfl, rfl, rfl, rfl, rfl⟩
  simp only [issuePiece, issueNumber, issueText, length_keyed, List.length_append, comma, ends, keys, SecurityIssue.needed]
  omega

private theorem length_issuePieces (issues : List SecurityIssue) :
    (issuePieces issues).flatten.length = (issues.map SecurityIssue.needed).sum + (issues.length - 1) := by
  induction issues with
  | nil => rfl
  | cons issue issues ih =>
    cases issues with
    | nil => simp [issuePieces, length_issuePiece]
    | cons next rest =>
      simp only [issuePieces, List.flatten_cons, List.length_append, length_issuePiece, ih, List.map_cons,
        List.sum_cons, List.length_cons,
        Bool.false_eq_true, if_false]
      omega

private theorem length_pieces (audit : SecurityAudit) : (auditPieces audit).flatten.length = audit.needed := by
  have ends : (literal ",\n").length = 2 ∧ (literal "\x7b\n").length = 2 ∧ (literal "[\n").length = 2 ∧
    footerPiece.length = 6 := ⟨rfl, rfl, rfl, rfl⟩
  have keys : (literal "overall_score").length = 13 ∧ (literal "entries_audited").length = 15 ∧
    (literal "issues_found").length = 12 ∧
    (literal "critical_issues").length = 15 ∧ (literal "high_issues").length = 11 ∧ (literal "medium_issues").length = 13 ∧
    (literal "low_issues").length = 10 ∧ (literal "generated").length = 9 ∧ (literal "issues").length = 6 :=
    ⟨rfl, rfl, rfl, rfl, rfl, rfl, rfl, rfl, rfl⟩
  simp only [auditPieces, headerPiece, headerNumber, length_keyed, List.cons_append, List.flatten_cons,
    List.flatten_append, List.flatten_nil,
    List.length_append, length_issuePieces, ends, keys, SecurityAudit.needed, List.length_nil]
  omega

/-- The block begins with what was written, as much of it as there is room for, and a zero. -/
structure Filled (size : Nat) (done block : Bytes) : Prop where
  length : block.length = size
  begins : ∃ rest, block = done.take (size - 1) ++ 0 :: rest

theorem Filled.take {size : Nat} {done block : Bytes} (filled : Filled size done block) (room : done.length < size) :
    block.take done.length = done := by
  obtain ⟨rest, begins⟩ := filled.begins
  rw [begins, List.take_of_length_le (Nat.le_sub_one_of_lt room), List.take_left]

theorem Filled.terminated {size : Nat} {done block : Bytes} (filled : Filled size done block) : 0 ∈ block := by
  obtain ⟨rest, begins⟩ := filled.begins
  rw [begins]
  exact List.mem_append_right _ List.mem_cons_self

theorem Filled.cString {size : Nat} {done block : Bytes} (filled : Filled size done block) (clean : 0 ∉ done) :
    cString block = done.take (size - 1) := by
  obtain ⟨rest, begins⟩ := filled.begins
  rw [begins, Library.cString, List.takeWhile_append_of_pos fun byte member => ?_,
    List.takeWhile_cons_of_neg (by decide), List.append_nil]
  exact decide_eq_true fun zero => clean (zero ▸ List.mem_of_mem_take member)

section
variable {size offset : Nat} {block piece done : Bytes}

def pasted (size offset : Nat) (block piece : Bytes) : Bytes :=
  block.take offset ++ (piece.take (size - offset - 1) ++ [0]) ++
    block.drop (offset + (piece.take (size - offset - 1) ++ [0]).length)

private theorem appendPiece_inside (wide : size ≤ sizeMax) (length : block.length = size) (room : offset < size) :
    appendPiece size (block, offset) piece =
      if intMax < offset + piece.length then .error .overflow else .ok (pasted size offset block piece,
      offset + piece.length) := by
  have difference : (size + (sizeMax + 1) - offset) % (sizeMax + 1) = size - offset := by
    rw [show size + (sizeMax + 1) - offset = size - offset +
      (sizeMax + 1) by omega, Nat.add_mod_right, Nat.mod_eq_of_lt (by omega)]
  have inside : ¬ block.length < offset + (piece.take (size - offset - 1) ++ [0]).length := by
    simp only [List.length_append, List.length_take, List.length_singleton]
    omega
  unfold appendPiece
  dsimp only
  rw [difference, if_neg (show ¬ size - offset = 0 by omega), if_neg inside]
  rfl

private theorem appendPiece_full (length : block.length = size) :
    appendPiece size (block, size) piece = if intMax < size + piece.length then .error .overflow
    else .ok (block, size + piece.length) := by
  have difference : (size + (sizeMax + 1) - size) % (sizeMax + 1) = 0 := by
    rw [Nat.add_sub_cancel_left, Nat.mod_self]
  unfold appendPiece
  dsimp only
  rw [difference, if_pos rfl, List.length_nil, Nat.add_zero, if_neg (by omega), List.append_nil, List.take_append_drop]

private theorem appendPiece_beyond (length : block.length = size) (behind : size < offset) (counted : offset ≤ intMax) :
    appendPiece size (block, offset) piece = .error .outside := by
  have big : intMax < sizeMax := by decide
  have difference : (size + (sizeMax + 1) - offset) % (sizeMax + 1) ≠ 0 := by
    rw [Nat.mod_eq_of_lt (by omega)]
    omega
  unfold appendPiece
  dsimp only
  rw [if_neg difference, if_pos]
  simp only [List.length_append, List.length_singleton]
  omega

private theorem length_pasted (length : block.length = size) (room : offset < size) :
    (pasted size offset block piece).length = size := by
  simp only [pasted, List.length_append, List.length_take, List.length_drop, List.length_singleton]
  omega

private theorem pasted_filled (length : block.length = size) (room : done.length < size)
    (begins : block.take done.length = done) :
    Filled size (done ++ piece) (pasted size done.length block piece) where
  length := length_pasted length room
  begins := by
    refine ⟨block.drop (done.length + (piece.take (size - done.length - 1) ++ [0]).length), ?_⟩
    rw [pasted, begins, List.take_append, List.take_of_length_le (Nat.le_sub_one_of_lt room), Nat.sub_right_comm]
    simp only [List.append_assoc, List.singleton_append]

/-- A call that has a meaning keeps what the block begins with, and its offset is the length of
all that was to be written. -/
theorem Filled.append {next : Bytes × Nat} (wide : size ≤ sizeMax) (filled : Filled size done block)
    (counted : done.length ≤ intMax)
    (ok : appendPiece size (block, done.length) piece = .ok next) :
    Filled size (done ++ piece) next.1 ∧ next.2 = (done ++ piece).length ∧ (done ++ piece).length ≤ intMax := by
  rw [List.length_append]
  obtain room | full | behind := Nat.lt_trichotomy done.length size
  · rw [appendPiece_inside wide filled.length room] at ok
    split at ok
    · cases ok
    · cases ok
      exact ⟨pasted_filled filled.length room (filled.take room), rfl, by omega⟩
  · rw [full, appendPiece_full filled.length] at ok
    split at ok
    · cases ok
    · cases ok
      obtain ⟨rest, begins⟩ := filled.begins
      refine ⟨⟨filled.length, rest, ?_⟩, by rw [full], by omega⟩
      rw [List.take_append_of_le_length (by omega)]
      exact begins
  · rw [appendPiece_beyond filled.length behind counted] at ok
    cases ok

theorem Filled.run {last : Bytes × Nat} {pieces : List Bytes} (wide : size ≤ sizeMax) (filled : Filled size done block)
    (counted : done.length ≤ intMax) (ok : pieces.foldlM (appendPiece size) (block, done.length) = .ok last) :
    Filled size (done ++ pieces.flatten) last.1 ∧ (done ++ pieces.flatten).length ≤ intMax := by
  induction pieces generalizing done block with
  | nil =>
    cases ok
    rw [List.flatten_nil, List.append_nil]
    exact ⟨filled, counted⟩
  | cons piece pieces ih =>
    rw [List.foldlM_cons] at ok
    cases first : appendPiece size (block, done.length) piece with
    | error =>
      rw [first] at ok
      cases ok
    | ok next =>
      obtain ⟨filled, place, counted⟩ := filled.append wide counted first
      rw [first] at ok
      rw [List.flatten_cons, ← List.append_assoc]
      exact ih filled counted (place ▸ ok)

/-- Pieces that fit are written without a fault. -/
theorem appendPieces_ok {pieces : List Bytes} (wide : size ≤ sizeMax) (length : block.length = size)
    (room : offset + pieces.flatten.length ≤ size) (counted : offset + pieces.flatten.length ≤ intMax) :
    ∃ last, pieces.foldlM (appendPiece size) (block, offset) = .ok last := by
  induction pieces generalizing offset block with
  | nil => exact ⟨_, rfl⟩
  | cons piece pieces ih =>
    rw [List.flatten_cons, List.length_append] at room counted
    rw [List.foldlM_cons]
    by_cases inside : offset < size
    · rw [appendPiece_inside wide length inside, if_neg (by omega)]
      exact ih (length_pasted length inside) (by omega) (by omega)
    · obtain rfl : offset = size := by omega
      rw [appendPiece_full length, if_neg (by omega)]
      exact ih length (by omega) (by omega)

end

private theorem jsonSize_le (audit : SecurityAudit) : jsonSize audit ≤ sizeMax :=
    Nat.le_of_lt_succ (Nat.mod_lt _ (Nat.succ_pos _))

private theorem auditPieces_filled {audit : SecurityAudit} {json : Buf (jsonSize audit)} {last : Bytes × Nat}
    (ok : (auditPieces audit).foldlM (appendPiece (jsonSize audit)) (json.bytes, 0) = .ok last) (some : 0 < jsonSize audit) :
    Filled (jsonSize audit) (auditPieces audit).flatten last.1 ∧ (auditPieces audit).flatten.length ≤ intMax := by
  rw [auditPieces, List.cons_append, List.foldlM_cons, appendPiece_inside (jsonSize_le audit) json.length_bytes some] at ok
  split at ok
  · cases ok
  · have first : Filled (jsonSize audit) ([] ++ headerPiece audit)
      (pasted (jsonSize audit) 0 json.bytes (headerPiece audit)) :=
      pasted_filled json.length_bytes some rfl
    rw [List.nil_append] at first
    rw [Nat.zero_add] at ok
    exact first.run (jsonSize_le audit) (by omega) ok

/-- A piece that is written leaves the block as long as it was. -/
theorem length_appendPiece {size offset : Nat} {block piece : Bytes} {next : Bytes × Nat}
    (ok : appendPiece size (block, offset) piece = .ok next) : next.1.length = block.length := by
  unfold appendPiece at ok
  dsimp only at ok
  generalize (if (size + (sizeMax + 1) - offset) % (sizeMax + 1) = 0 then [] else
    piece.take ((size + (sizeMax + 1) - offset) % (sizeMax + 1) - 1) ++ [0] : Bytes) = kept at ok
  split at ok
  next => cases ok
  next inside =>
    split at ok
    next => cases ok
    next =>
      rw [← Except.ok.inj ok]
      simp only [List.length_append, List.length_take, List.length_drop]
      omega

private theorem length_appendPieces {size offset : Nat} {block : Bytes} {pieces : List Bytes} {last : Bytes × Nat}
    (ok : pieces.foldlM (appendPiece size) (block, offset) = .ok last) : last.1.length = block.length := by
  induction pieces generalizing offset block with
  | nil =>
    cases ok
    rfl
  | cons piece pieces ih =>
    rw [List.foldlM_cons] at ok
    cases one : appendPiece size (block, offset) piece with
    | error fault =>
      rw [one] at ok
      cases ok
    | ok next =>
      rw [one] at ok
      exact (ih ok).trans (length_appendPiece one)

private theorem unsigned_clean (value : Nat) : 0 ∉ unsigned value :=
    fun zero => absurd ((unsigned_digits value).1.2 0 zero) (by unfold Json.IsDigit; decide)

private theorem signed_clean (value : Int) : 0 ∉ signed value := by
  unfold signed
  split
  · exact List.not_mem_cons_of_ne_of_not_mem (by decide) (unsigned_clean _)
  · exact unsigned_clean _

private theorem keyed_clean {indent : Nat} {key : String} {rest : Bytes} (plain : plainKey (literal key) = true)
    (clean : 0 ∉ rest) :
    0 ∉ keyed indent key rest := by
  have quote : 0 ∉ literal "\"" := by decide
  have colon : 0 ∉ literal "\": " := by decide
  have letters : 0 ∉ literal key := fun zero => absurd (List.all_eq_true.mp plain 0 zero) (by decide)
  simp only [keyed, List.mem_append, not_or, List.mem_replicate, quote, colon, letters, clean, not_false_eq_true, and_true]
  exact fun spaces => absurd spaces.2 (by decide)

private theorem line_clean {indent : Nat} {key : String} {value : Bytes} (plain : plainKey (literal key) = true)
    (clean : 0 ∉ value) :
    0 ∉ keyed indent key (value ++ literal ",\n") :=
  keyed_clean plain (List.not_mem_append clean (by decide))

private theorem text_clean {key : String} (text : Option CStr) (plain : plainKey (literal key) = true) :
    0 ∉ issueText key text :=
  keyed_clean plain (List.not_mem_append (List.not_mem_append (by decide) (text.getD .empty).clean) (by decide))

private theorem issuePiece_clean (issue : SecurityIssue) (last : Bool) : 0 ∉ issuePiece issue last := by
  have comma : 0 ∉ if last then [] else literal "," := by cases last <;> decide
  have ends : 0 ∉ literal "    \x7b\n" ∧ 0 ∉ literal "    \x7d" ∧ 0 ∉ literal "\n" := by decide
  have impact : 0 ∉ keyed 6 "score_impact" (unsigned issue.scoreImpact.toNat ++ literal "\n") :=
    keyed_clean rfl (List.not_mem_append (unsigned_clean _) (by decide))
  have numbers : 0 ∉ issueNumber "type" (signed issue.type.toInt) ∧
    0 ∉ issueNumber "severity" (signed issue.severity.toInt) :=
    ⟨line_clean rfl (signed_clean _), line_clean rfl (signed_clean _)⟩
  have texts : 0 ∉ issueText "entry_id" issue.entryId ∧ 0 ∉ issueText "entry_title" issue.entryTitle ∧
      0 ∉ issueText "description" issue.description ∧ 0 ∉ issueText "recommendation" issue.recommendation :=
    ⟨text_clean _ rfl, text_clean _ rfl, text_clean _ rfl, text_clean _ rfl⟩
  simp only [issuePiece, List.mem_append, not_or]
  simp only [comma, ends, impact, numbers, texts, not_false_eq_true, and_true]

private theorem issuePieces_clean (issues : List SecurityIssue) : ∀ piece ∈ issuePieces issues, 0 ∉ piece := by
  induction issues with
  | nil => exact fun _ none => by cases none
  | cons issue issues ih =>
    cases issues with
    | nil => exact List.forall_mem_singleton.mpr (issuePiece_clean issue true)
    | cons next rest => exact List.forall_mem_cons.mpr ⟨issuePiece_clean issue false, ih⟩

private theorem headerPiece_clean (audit : SecurityAudit) : 0 ∉ headerPiece audit := by
  have brace : 0 ∉ literal "\x7b\n" := by decide
  have list : 0 ∉ keyed 2 "issues" (literal "[\n") := keyed_clean rfl (by decide)
  simp only [headerPiece, headerNumber, List.mem_append, not_or]
  exact ⟨⟨⟨⟨⟨⟨⟨⟨⟨brace, line_clean rfl (unsigned_clean _)⟩, line_clean rfl (unsigned_clean _)⟩,
    line_clean rfl (unsigned_clean _)⟩,
    line_clean rfl (unsigned_clean _)⟩, line_clean rfl (unsigned_clean _)⟩, line_clean rfl (unsigned_clean _)⟩,
    line_clean rfl (unsigned_clean _)⟩, line_clean rfl (signed_clean _)⟩, list⟩

private theorem pieces_clean (audit : SecurityAudit) : 0 ∉ (auditPieces audit).flatten := by
  rw [List.mem_flatten]
  rintro ⟨piece, member, zero⟩
  rw [auditPieces, List.cons_append, List.mem_cons, List.mem_append, List.mem_singleton] at member
  obtain rfl | issue | rfl := member
  · exact headerPiece_clean audit zero
  · exact issuePieces_clean audit.issues piece issue zero
  · exact absurd zero (by decide)

private theorem last_token {left : Bytes} (front : left <+: [Json.braceClose, newline])
    (lexes : Json.Lexes left [.punct Json.braceClose]) :
    1 ≤ left.length := by
  cases left with
  | nil => exact absurd lexes.of_nil (by simp)
  | cons => simp

/-- A beginning of the text is a document of the audit where only the line end is missing and
every issue is clean. -/
theorem document_iff {audit : SecurityAudit} {size : Nat} (some : 0 < size) :
    Json.Document ((auditPieces audit).flatten.take (size - 1)) (auditJson audit) ↔ audit.needed ≤ size ∧
    ∀ issue ∈ audit.issues, issue.Clean := by
  obtain ⟨tokens, whole, cut⟩ := unclosed_cut audit
  have pieces := pieces_flatten audit
  have length := length_pieces audit
  rw [pieces] at length
  rw [Json.Document, whole, pieces]
  rw [List.length_append, List.length_cons, List.length_singleton] at length
  constructor
  · intro lexes
    obtain ⟨clean, left, seen, front, lexes⟩ := cut.read (by simp) (List.take_prefix _ _) lexes
    refine ⟨?_, clean⟩
    have long := congrArg List.length seen
    have one := last_token front lexes
    rw [List.length_take, List.length_append, List.length_append] at long
    omega
  · intro both
    obtain ⟨room, clean⟩ := both
    by_cases cutOff : size = audit.needed
    · rw [List.take_append, List.take_of_length_le (by omega), show size - 1 - (unclosed audit).length = 1 by omega]
      exact cut.write clean (.punct (by unfold Json.IsPunct; decide) .nil)
    · rw [List.take_of_length_le (by simp only [List.length_append, List.length_cons, List.length_nil]; omega)]
      exact cut.write clean (.punct (by unfold Json.IsPunct; decide) (.space (by unfold Json.IsSpace; decide) .nil))

section
variable {malloc : (size : Nat) → Option (Buf size)} {audit : SecurityAudit}

private theorem auditExportJson_none (refused : malloc (jsonSize audit) = none) : auditExportJson malloc (some audit) =
    .failed .nomem := by
  unfold auditExportJson
  dsimp only
  rw [refused]

variable {json : Buf (jsonSize audit)}

private theorem auditExportJson_some (granted : malloc (jsonSize audit) = some json) :
    auditExportJson malloc (some audit) = handed (writePieces audit json.bytes) := by
  unfold auditExportJson
  dsimp only
  rw [granted]

/-- With a block that is handed out, the export is a document where the text fits and is clean. -/
theorem exported_iff (granted : malloc (jsonSize audit) = some json) :
    Exported malloc audit ↔ audit.Fits ∧ ∀ issue ∈ audit.issues, issue.Clean := by
  have length := length_pieces audit
  rw [Exported, auditExportJson_some granted]
  constructor
  · intro exported
    cases ok : writePieces audit json.bytes with
    | error fault =>
      rw [ok] at exported
      obtain ⟨_, failed⟩ | ⟨_, failed, _⟩ := exported
      · cases failed
      · cases failed
    | ok last =>
      rw [ok] at exported
      obtain ⟨_, failed⟩ | ⟨block, written, terminated, document⟩ := exported
      · cases failed
      · cases written
        have some : 0 < jsonSize audit := by
          rw [← json.length_bytes, ← length_appendPieces ok]
          exact List.length_pos_of_mem terminated
        obtain ⟨filled, counted⟩ := auditPieces_filled ok some
        rw [filled.cString (pieces_clean audit), document_iff some] at document
        exact ⟨⟨document.1, length ▸ counted⟩, document.2⟩
  · intro both
    obtain ⟨fits, clean⟩ := both
    have some : 0 < jsonSize audit := by
      refine Nat.lt_of_lt_of_le ?_ fits.room
      unfold SecurityAudit.needed
      omega
    obtain ⟨last, ok⟩ := appendPieces_ok (jsonSize_le audit) json.length_bytes (by rw [length, Nat.zero_add]; exact fits.room)
      (by rw [length, Nat.zero_add]; exact fits.counted)
    obtain ⟨filled, _⟩ := auditPieces_filled ok some
    have written : writePieces audit json.bytes = .ok last := ok
    refine Or.inr ⟨last.1, congrArg handed written, filled.terminated, ?_⟩
    rw [filled.cString (pieces_clean audit)]
    exact (document_iff some).mpr ⟨fits.room, clean⟩

end

/-- Whatever is allocated, the export fails or is a document of the audit: exactly where the
text has room and no text of an issue needs an escape. -/
theorem audit_exported_iff (audit : SecurityAudit) :
    (∀ malloc, Exported malloc audit) ↔ audit.Fits ∧ ∀ issue ∈ audit.issues, issue.Clean := by
  constructor
  · intro always
    exact (exported_iff rfl).mp (always fun size => some (Buf.zero size))
  · intro both malloc
    cases granted : malloc (jsonSize audit) with
    | none => exact Or.inl ⟨.nomem, auditExportJson_none granted⟩
    | some json => exact (exported_iff granted).mpr both

def quotedTitle : CStr where
  bytes := literal "my \"bank\""
  clean := by decide
  short := by decide

def quotedIssue : SecurityIssue where
  type := 10
  severity := 2
  entryId := some .empty
  entryTitle := some quotedTitle
  description := none
  recommendation := none
  scoreImpact := 15

def quotedAudit : SecurityAudit where
  overallScore := 85
  entriesAudited := 1
  issuesFound := 1
  criticalIssues := 0
  highIssues := 0
  mediumIssues := 1
  lowIssues := 0
  issues := [quotedIssue]
  generated := 0

private theorem quotedTitle_not_plain : ¬ Json.Plain quotedTitle.bytes := fun plain => plain.not_quote (by decide)

/-- The title ends the string it is written into, and no document is left. -/
theorem quoted_title_spoils_export : ¬ ∀ (audit : SecurityAudit) (malloc : (size : Nat) → Option (Buf size)),
    Exported malloc audit := by
  intro always
  have exported := always quotedAudit fun size => some (Buf.zero size)
  exact quotedTitle_not_plain (((exported_iff rfl).mp exported).2 quotedIssue List.mem_cons_self).entryTitle

end Hiya.Pm.Audit
