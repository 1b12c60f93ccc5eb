import Hiya.Pm.EntryIterator

/-! The security audit of `pm_security_audit.c`: the checks on one password, with the breach
service of `pm_hibp.c` and the score of `pm_password_gen.c`, and the two drivers that run
them over a list of entries and over an unlocked vault. -/

namespace Hiya.Pm.Audit
open Library

def keyboardPatterns : List Bytes :=
  ["qwerty", "asdf", "zxcv", "123", "abc", "qaz", "wsx", "edc", "rfv", "tgb", "yhn", "ujm", "ik", "ol", "p;", "mnb",
    "vcx"].map literal

def qwertyRows : List Bytes := ["qwertyuiop", "asdfghjkl", "zxcvbnm", "1234567890"].map literal

/-- Three keys in a row, from every place on it. -/
def rowTriples (row : Bytes) : List Bytes := (List.range (row.length - 2)).map fun place => (row.drop place).take 3

def detectKeyboardPattern (password : Bytes) : Bool :=
  let lowered := password.map toLower
  keyboardPatterns.any (containsText lowered) || qwertyRows.any fun row => (rowTriples row).any (containsText lowered)

/-- From this place on, every character is the one before and a step further. -/
def stepsFrom (password : Bytes) (place length : Nat) (step : Int) : Bool :=
  (List.range' 1 (length - 1)).all fun offset =>
    charValue (password.getD (place + offset) 0) = charValue (password.getD (place + offset - 1) 0) + step

def detectSequentialChars (password : Bytes) (minLength : Nat) : Bool :=
  if password.length < minLength then false
  else (List.range (password.length - minLength + 1)).any fun place =>
    stepsFrom password place minLength 1 || stepsFrom password place minLength (-1)

def detectRepeatedChars (password : Bytes) (minCount : Nat) : Bool :=
  if password.length < minCount then false
  else (List.range (password.length - minCount + 1)).any fun place =>
    minCount ≤ ((password.drop place).takeWhile (· = password.getD place 0)).length

def commonPasswords : List Bytes :=
  ["password", "123456", "password123", "admin", "qwerty", "letmein", "welcome", "monkey", "1234567890", "abc123",
    "password1", "123123", "000000", "iloveyou", "1234567", "superman", "trustno1", "hello", "dragon", "freedom"].map literal

/-- The list of the program, and then the file if there is one that can be opened. -/
def checkCommonPassword (password : Bytes) (list : Option Bytes) : Bool :=
  commonPasswords.any (sameLetters password) ||
    match list with
    | none => false
    | some file => (fgetsAll 255 [] file).any fun line => sameLetters password (beforeLineEnd (cString line))

def lowercase : Bytes := literal "abcdefghijklmnopqrstuvwxyz"
def uppercase : Bytes := literal "ABCDEFGHIJKLMNOPQRSTUVWXYZ"
def digits : Bytes := literal "0123456789"
def symbols : Bytes := literal "!@#$%^&*()_+-=[]\x7b\x7d|;:,.<>?"

/-- What the estimator finds: one of five tiers by the number of guesses, and whether a word
of a dictionary is part of the password. -/
structure Estimate where
  tier : UInt32
  dictionary : Bool

structure Strength where
  score : UInt32
  hasSymbols : Bool

def isSymbol (char : UInt8) : Bool :=
  if char ∈ lowercase then false else if char ∈ uppercase then false else if char ∈ digits then false else char ∈ symbols

def assessStrength (estimate : Estimate) (password : Bytes) : Strength where
  -- a short password made of words is not strong
  score := (if estimate.dictionary ∧ password.length ≤ 12 ∧ estimate.tier > 2 then 2 else estimate.tier) * 25
  hasSymbols := password.any isSymbol

/-- How a request for a range of hashes ends. -/
inductive RangeAnswer
  | unavailable
  | network
  | received (response : Bytes)

def isSpace (char : UInt8) : Bool := char = 32 ∨ (9 ≤ char ∧ char ≤ 13)

def isDigit (char : UInt8) : Bool := 48 ≤ char ∧ char ≤ 57

def decimal (text : Bytes) : Nat := text.foldl (fun value digit => value * 10 + (digit.toNat - 48)) 0

/-- `strtoull` takes the whole text and reports no overflow. -/
def readsWhole (text : Bytes) : Bool :=
  if text = [] then true
  else
    let unsigned := match text.dropWhile isSpace with
      | char :: rest => if char = 43 ∨ char = 45 then rest else char :: rest
      | [] => []
    unsigned ≠ [] ∧ unsigned.all isDigit ∧ decimal unsigned < 2 ^ 64

def splitLines (response : Bytes) : List Bytes := response.splitOn newline

/-- A line names the suffix and a count after a colon. -/
def lineNames (suffix line : Bytes) : Bool :=
  let line := if line.getLast? = some carriageReturn then line.dropLast else line
  let front := line.takeWhile (· ≠ 58)
  let count := (line.drop (front.length + 1)).take 31
  front.length < line.length ∧ front.length = 35 ∧ sameLetters front suffix ∧ count ≠ [] ∧ readsWhole (cString count)

def hibpParseResponse (response suffix : Bytes) : Bool := (splitLines response).any (lineNames suffix)

def hexDigit (value : Nat) : UInt8 := UInt8.ofNat (if value < 10 then 48 + value else 55 + value)

def upperHex (digest : Bytes) : Bytes := digest.flatMap fun byte => [hexDigit (byte.toNat / 16), hexDigit (byte.toNat % 16)]

/-- What is outside the program, at the time of the audit. -/
structure Services where
  estimate : Bytes → Estimate
  sha1 : Bytes → Option (Buf 20)
  fetchRange : Bytes → RangeAnswer

/-- The service has an answer, it cannot be reached, or the check fails. -/
inductive Breach
  | checked (found : Bool)
  | unreachable
  | failed (problem : PmError)

def checkPasswordBreach (services : Services) (password : Bytes) : Breach :=
  if password = [] then .failed .invalidParam
  else match services.sha1 password with
    | none => .failed .crypto
    | some digest =>
      let hash := upperHex digest.bytes
      match services.fetchRange (hash.take 5) with
      | .unavailable => .unreachable
      | .network => .unreachable
      | .received response => .checked (hibpParseResponse response (hash.drop 5))

inductive Severity
  | info
  | low
  | medium
  | high
  | critical
  deriving DecidableEq

def Severity.code : Severity → Nat
  | info => 0
  | low => 1
  | medium => 2
  | high => 3
  | critical => 4

inductive IssueType
  | weakPassword
  | compromisedPassword
  | commonPassword
  | shortPassword
  | noSymbols
  | keyboardPattern
  | sequentialChars
  | repeatedChars
  deriving DecidableEq

structure Issue where
  type : IssueType
  severity : Severity
  entryId : CStr
  entryTitle : CStr
  description : String
  recommendation : String
  detected : Int
  scoreImpact : UInt32
  deriving DecidableEq

structure Config where
  minPasswordLength : UInt32
  minStrengthScore : UInt32
  checkBreaches : Bool
  checkCommonPasswords : Bool
  checkKeyboardPatterns : Bool
  checkSequentialChars : Bool
  checkRepeatedChars : Bool
  /-- The file of common passwords, if it is named and can be opened. -/
  commonPasswords : Option Bytes

def configDefault : Config where
  minPasswordLength := 12
  minStrengthScore := 70
  checkBreaches := false
  checkCommonPasswords := true
  checkKeyboardPatterns := true
  checkSequentialChars := true
  checkRepeatedChars := true
  commonPasswords := none

def flagged (found : Bool) (issue : Issue) : List Issue := if found then [issue] else []

section
variable (services : Services) (config : Config) (now : Int)

def createIssue (entry : Entry) (type : IssueType) (severity : Severity) (description recommendation : String)
    (scoreImpact : UInt32) : Issue where
  type
  severity
  entryId := entry.id
  entryTitle := entry.title
  description
  recommendation
  detected := now
  scoreImpact

def auditLocally (entry : Entry) : List Issue :=
  let password := entry.password.bytes
  let issue := createIssue now entry
  let strength := assessStrength (services.estimate password) password
  flagged (password.length < config.minPasswordLength.toNat)
    (issue .shortPassword .medium ("Password is only " ++ toString password.length ++ " characters, minimum is " ++
      toString config.minPasswordLength.toNat) "Use a longer password with more entropy" 15) ++
  flagged (strength.score < config.minStrengthScore)
    (issue .weakPassword .high ("Password strength score " ++ toString strength.score.toNat ++ " is below minimum " ++
      toString config.minStrengthScore.toNat) "Generate a stronger password with mixed character types" 20) ++
  flagged (!strength.hasSymbols)
    (issue .noSymbols .low "Password lacks special characters" "Add special characters for better security" 5) ++
  flagged (config.checkCommonPasswords && checkCommonPassword password config.commonPasswords)
    (issue .commonPassword .high "Password found in common password list" "Choose a unique password not in common lists" 25) ++
  flagged (config.checkKeyboardPatterns && detectKeyboardPattern password)
    (issue .keyboardPattern .medium "Password contains keyboard patterns" "Avoid using keyboard patterns like 'qwerty' or '123'" 10) ++
  flagged (config.checkSequentialChars && detectSequentialChars password 3)
    (issue .sequentialChars .low "Password contains sequential characters" "Avoid sequences like 'abc' or '123' in passwords" 5) ++
  flagged (config.checkRepeatedChars && detectRepeatedChars password 3)
    (issue .repeatedChars .low "Password contains repeated characters" "Avoid repeating the same character multiple times" 5)

/-- A service that cannot be reached is passed over; any other failure ends the audit. The caller's
pointer to the issues is stale then, and what it does with it is not modelled. -/
def auditEntryPassword (issues : List Issue) (entry : Entry) : Except PmError (List Issue) :=
  let issues := issues ++ auditLocally services config now entry
  if config.checkBreaches then
    match checkPasswordBreach services entry.password.bytes with
    | .checked found =>
      .ok (issues ++ flagged found (createIssue now entry .compromisedPassword .critical "Password found in known data breaches"
        "Change this password immediately - it has been compromised" 50))
    | .unreachable => .ok issues
    | .failed problem => .error problem
  else .ok issues

end

structure Counters where
  critical : UInt32
  high : UInt32
  medium : UInt32
  low : UInt32
  penalty : UInt32

def Counters.zero : Counters := ⟨0, 0, 0, 0, 0⟩

def Counters.count (counters : Counters) (issue : Issue) : Counters :=
  let counters := { counters with penalty := counters.penalty + issue.scoreImpact }
  match issue.severity with
  | .critical => { counters with critical := counters.critical + 1 }
  | .high => { counters with high := counters.high + 1 }
  | .medium => { counters with medium := counters.medium + 1 }
  | .low => { counters with low := counters.low + 1 }
  | .info => counters

structure Report where
  overallScore : UInt32
  entriesAudited : UInt32
  issuesFound : UInt32
  criticalIssues : UInt32
  highIssues : UInt32
  mediumIssues : UInt32
  lowIssues : UInt32
  issues : List Issue
  generated : Int

def issueSortDesc (first second : Issue) : Int :=
  if first.severity ≠ second.severity then (second.severity.code : Int) - first.severity.code
  else (second.scoreImpact.toNat : Int) - first.scoreImpact.toNat

/-- `qsort`: what it promises of a comparison that is an order. Which of two equal items
comes first is left open. -/
structure Qsort where
  sort : {α : Type} → (α → α → Int) → List α → List α
  perm : ∀ {α : Type} (compare : α → α → Int) (items : List α), (sort compare items).Perm items
  sorted : ∀ {α : Type} (compare : α → α → Int) (items : List α), (∀ first second, compare first second ≤ 0 ∨
    compare second first ≤ 0) →
    (∀ first second third, compare first second ≤ 0 → compare second third ≤ 0 → compare first third ≤ 0) →
    (sort compare items).Pairwise fun first second => compare first second ≤ 0

section
variable (qsort : Qsort) (services : Services) (config : Config) (now : Int)

def finalizeAudit (entriesAudited : Nat) (issues : List Issue) : Report :=
  let counters := issues.foldl Counters.count .zero
  { overallScore := if counters.penalty ≥ 100 then 0 else 100 - counters.penalty
    entriesAudited := UInt32.ofNat entriesAudited
    issuesFound := UInt32.ofNat issues.length
    criticalIssues := counters.critical
    highIssues := counters.high
    mediumIssues := counters.medium
    lowIssues := counters.low
    issues := if issues.length > 1 then qsort.sort issueSortDesc issues else issues
    generated := now }

/-- The entries are an array, or a null pointer. -/
def securityAuditPerform (entries : Option (List Entry)) : Except PmError Report :=
  match entries with
  | none => .error .invalidParam
  | some entries => do
    let issues ← entries.foldlM (auditEntryPassword services config now) []
    pure (finalizeAudit qsort now entries.length issues)

/-- The loop over an iterator, which the first argument bounds. -/
def auditIterator : Nat → EntryIterator → List Issue × Nat → Except PmError (List Issue × Nat)
  | 0, _, found => .ok found
  | rounds + 1, iterator, (issues, audited) =>
    match entryIteratorNext iterator with
    | (none, _) => .ok (issues, audited)
    | (some entry, iterator) => do
      let issues ← auditEntryPassword services config now issues entry
      auditIterator rounds iterator (issues, audited + 1)

def securityAuditRun (vault : VaultHandle) : Except PmError Report :=
  match vaultStoreBegin vault with
  | none => .error .io
  | some iterator => do
    let (issues, audited) ← auditIterator services config now (iterator.entryOrder.length + 1) iterator ([], 0)
    pure (finalizeAudit qsort now audited issues)

end

end Hiya.Pm.Audit
